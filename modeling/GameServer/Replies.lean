/-
# Replies

A reply has nothing in it that says which request it is for: a client takes the next reply it
reads for the answer to the next request that it has written and not got an answer to.  This is
right because a handler replies before it returns, to the session the message came on, and
at most once (`sends_of_step`); so on every session the replies are the answers to the requests
handled, in order (`replies_answer`).  A chat is not answered, and neither is a message
that no handler is registered for; what the members of a room are sent beside the replies
are notifications, and `isReply` tells them from the replies by their kind.

`Server.Answers` says what a reply tells its client, in the state the request was handled in.
-/

import GameServer.Registration

namespace GameServer

/-! ### Lists that match -/

section

variable {α β : Type*} {P : α → β → Prop} {as : List α} {bs : List β}

/-- Everything on the right is related to something on the left. -/
theorem exists_of_mem_right (h : List.Forall₂ P as bs) : ∀ b ∈ bs, ∃ a ∈ as, P a b := by
  induction h with
  | nil => exact fun b hb => absurd hb List.not_mem_nil
  | @cons a b as bs hab _ ih =>
    refine List.forall_mem_cons.2 ⟨⟨a, List.mem_cons_self .., hab⟩, fun b' hb' => ?_⟩
    obtain ⟨a', ha', hab'⟩ := ih b' hb'
    exact ⟨a', List.mem_cons_of_mem _ ha', hab'⟩

/-- What the first on the right are related to are the first on the left. -/
theorem forall₂_prefix_right (h : List.Forall₂ P as bs) {bs' : List β} (hbs : bs' <+: bs) :
    ∃ as', as' <+: as ∧ List.Forall₂ P as' bs' := by
  obtain ⟨rest, rfl⟩ := hbs
  exact ⟨as.take bs'.length, List.take_prefix .., List.forall₂_take_append as bs' rest h⟩

/-- There are not more of a kind on the right than of what they are related to on the left. -/
theorem countP_le_of_forall₂ {p : α → Bool} {q : β → Bool} (h : List.Forall₂ P as bs)
    (hpq : ∀ a b, P a b → q b = true → p a = true) : bs.countP q ≤ as.countP p := by
  induction h with
  | nil => exact le_rfl
  | @cons a b as bs hab _ ih =>
    by_cases hq : q b = true
    · rw [List.countP_cons_of_pos hq, List.countP_cons_of_pos (hpq a b hab hq)]
      exact Nat.succ_le_succ ih
    · rw [List.countP_cons_of_neg hq]
      exact ih.trans (List.sublist_cons_self a as).countP_le

end

/-! ### Requests and replies -/

/-- A message that answers a request, and does not notify of what others did. -/
def Response.isReply : Response → Bool
  | .roomCreatedNotify _ | .chatNotify _ => false
  | _ => true

/-- A request that its handler answers. -/
def Request.isAnswered : Request → Bool
  | .chat _ | .unregistered _ => false
  | _ => true

/-- The reply to a request that is handled in the state `s`. -/
def Server.Answers (s : Server) : Request → Response → Prop
  | .login req, .loginResp r =>
    if req.username.isEmpty then r.code = 1
    else r.code = 0 ∧ r.playerId = s.nextPlayerId ∧
      r.token = LoginService.generateToken s.nextPlayerId
  | .match req, .matchResp r =>
    r.code = if 0 < toInt req.playerId ∧ toInt req.playerId ∉ s.matchQueue.inQueue then 0 else 1
  | .heartbeat req, .heartbeatResp r => r.clientTimeMs = req.clientTimeMs
  | .reconnect req, .reconnectResp r =>
    (r.code = 1 ∧ ∀ st, ¬ s.core.Resumable (toInt req.playerId) req.token st) ∨
      ∃ st, s.core.Resumable (toInt req.playerId) req.token st ∧
        r.code = 0 ∧ r.playerId = toInt req.playerId ∧ r.roomId = st.roomId
  | .ranking req players, .rankingResp r =>
    r.items = (players.take (min (toInt req.topN) (toInt players.length)).toNat).map fun p =>
      { playerId := p.playerId, score := p.score }
  | _, _ => False

/-- The request that an event makes of a session. -/
def Event.requestOn (sid : SessionId) : Event → Option Request
  | .request sid' req _ => if sid' = sid then some req else none
  | _ => none

/-- The requests handled on a session, oldest first, each with the state it was handled in. -/
def History.requestsOn (tr : History) (sid : SessionId) : List (Server × Request) :=
  tr.reverse.filterMap fun x => (x.2.requestOn sid).map (Prod.mk x.1)

/-- The answered ones of them. -/
def History.answeredOn (tr : History) (sid : SessionId) : List (Server × Request) :=
  (tr.requestsOn sid).filter fun x => x.2.isAnswered

theorem requestsOn_cons (tr : History) (s : Server) (e : Event) (sid : SessionId) :
    History.requestsOn ((s, e) :: tr) sid =
      tr.requestsOn sid ++ ((e.requestOn sid).map (Prod.mk s)).toList := by
  rw [History.requestsOn, List.reverse_cons, List.filterMap_append, ← History.requestsOn]
  cases he : e.requestOn sid <;> simp [he]

theorem requestsOn_append (tr tr' : History) (sid : SessionId) :
    (tr ++ tr').requestsOn sid = tr'.requestsOn sid ++ tr.requestsOn sid := by
  rw [History.requestsOn, List.reverse_append, List.filterMap_append]
  rfl

namespace Server

variable {s s' : Server}

theorem Answers.isAnswered {req : Request} {r : Response} (h : s.Answers req r) :
    req.isAnswered = true ∧ r.isReply = true := by
  cases req <;> cases r <;> first | exact ⟨rfl, rfl⟩ | exact h.elim

/-- What the handling of an event replies: the answer to its request, on the session of the
request, or nothing where there is none to answer. -/
inductive Replied (s : Server) : Event → List (SessionId × Response) → Prop
  | answer {sid : SessionId} {req : Request} {now : Instant} {r : Response}
      (h : s.Answers req r) : Replied s (.request sid req now) [(sid, r)]
  | none {e : Event} (h : ∀ sid req now, e = .request sid req now → req.isAnswered = false) :
      Replied s e []

/-- What the handling of an event sends: the reply, and then the notifications, which only a request
leads to, all of them to sessions that exist. -/
structure Sends (s : Server) (e : Event) (s' : Server)
    (replies notifications : List (SessionId × Response)) : Prop where
  sent_eq : s'.sent = s.sent ++ (replies ++ notifications)
  replied : s.Replied e replies
  notified : ∀ x ∈ notifications, x.2.isReply = false ∧ s.core.Alive x.1
  idle : (∀ sid req now, e ≠ .request sid req now) → notifications = []

theorem alive_sessionOf {p : PlayerId} (h : s.core.Resolves p) : s.core.Alive (s.sessionOf p) := by
  obtain ⟨sid, hsid, halive⟩ := h
  have hof : s.sessionOf p = sid := by
    rw [sessionOf, show s.playerManager.players.lookup p = some sid from hsid, Option.getD_some]
  rwa [hof]

/-- A step that only replies. -/
theorem Sends.of_replied {e : Event} {replies : List (SessionId × Response)}
    (hsent : s'.sent = s.sent ++ replies) (h : s.Replied e replies) : Sends s e s' replies [] where
  sent_eq := by rw [List.append_nil, hsent]
  replied := h
  notified x hx := absurd hx List.not_mem_nil
  idle _ := rfl

/-- Players that resolve are sent one notification each. -/
theorem notified_map {msg : Response} (hmsg : msg.isReply = false) {ps : List PlayerId}
    (hres : ∀ p ∈ ps, s.core.Resolves p) :
    ∀ x ∈ ps.map fun p => (s.sessionOf p, msg), x.2.isReply = false ∧ s.core.Alive x.1 := by
  intro x hx
  obtain ⟨p, hp, rfl⟩ := List.mem_map.1 hx
  exact ⟨hmsg, alive_sessionOf (hres p hp)⟩

/-- **What a step sends.** -/
theorem sends_of_step {e : Event} (h : s.step e = .ok s') :
    ∃ replies notifications, Sends s e s' replies notifications := by
  have hcase := handled_of_step h
  generalize s.act e = a at hcase
  clear h
  cases hcase with
  | accept | closed | close | release | sweep =>
    exact ⟨[], [], .of_replied (List.append_nil _).symm (.none fun _ _ _ he => Event.noConfusion he)⟩
  | unregistered sid msgId now =>
    refine ⟨[], [], .of_replied (List.append_nil _).symm (.none fun _ _ _ he => ?_)⟩
    obtain ⟨-, rfl, -⟩ := Event.request.inj he
    rfl
  | loginRefused hu =>
    exact ⟨[_], [], .of_replied rfl (.answer (by rw [Answers, if_pos hu]))⟩
  | login hu =>
    refine ⟨[_], [], .of_replied rfl (.answer ?_)⟩
    rw [Answers, if_neg (Bool.eq_false_iff.1 hu)]
    exact ⟨rfl, rfl, rfl⟩
  | matchRefused href reason =>
    refine ⟨[_], [], .of_replied rfl (.answer ?_)⟩
    rw [Answers, if_neg fun hok => ?_]
    rcases href with hle | hin
    · omega
    · exact hok.2 hin
  | wait hp hq he =>
    exact ⟨[_], [], .of_replied rfl (.answer (by rw [Answers, if_pos ⟨hp, hq⟩]))⟩
  | room hp hq hps hne hres =>
    refine ⟨[_], _, List.append_assoc .., .answer (by rw [Answers, if_pos ⟨hp, hq⟩]),
      notified_map rfl hres, fun hne' => (hne' _ _ _ rfl).elim⟩
  | chat hroom hres =>
    refine ⟨[], _, rfl, .none fun _ _ _ he => ?_, notified_map rfl hres,
      fun hne' => (hne' _ _ _ rfl).elim⟩
    obtain ⟨-, rfl, -⟩ := Event.request.inj he
    rfl
  | heartbeat sid req now => exact ⟨[_], [], .of_replied rfl (.answer (by rw [Answers]))⟩
  | reconnectRefused hno reason => exact ⟨[_], [], .of_replied rfl (.answer (.inl ⟨rfl, hno⟩))⟩
  | resume hst hrm =>
    exact ⟨[_], [], .of_replied rfl (.answer (.inr ⟨_, hst, rfl, rfl, rfl⟩))⟩
  | ranking sid req players now => exact ⟨[_], [], .of_replied rfl (.answer (by rw [Answers]))⟩

/-- What is replied on one session is the answer to the request made of it. -/
theorem Replied.on {e : Event} {replies : List (SessionId × Response)} (h : s.Replied e replies)
    (sid : SessionId) : List.Forall₂ (fun x r => x.1.Answers x.2 r)
      (((e.requestOn sid).map (Prod.mk s)).toList.filter fun x => x.2.isAnswered)
      (((replies.filter fun x => x.1 = sid).map Prod.snd).filter Response.isReply) := by
  cases h with
  | @answer sid' req now r h =>
    obtain ⟨hreq, hr⟩ := h.isAnswered
    by_cases hs : sid' = sid
    · simp [Event.requestOn, hs, hreq, hr, h]
    · simp [Event.requestOn, hs]
  | none h =>
    cases e with
    | request sid' req now =>
      have hreq := h sid' req now rfl
      by_cases hs : sid' = sid <;> simp [Event.requestOn, hs, hreq]
    | _ => exact .nil

/-- **On every session the replies are the answers** to the requests handled on it, one for each
request that is answered, in the order of the requests. -/
theorem replies_answer {tr : History} (h : server.Run tr s) (sid : SessionId) :
    List.Forall₂ (fun x r => x.1.Answers x.2 r) (tr.answeredOn sid)
      ((s.sentTo sid).filter Response.isReply) := by
  induction h with
  | nil => exact .nil
  | @cons tr s s' e _ hs ih =>
    obtain ⟨replies, notifications, h⟩ := sends_of_step hs.2
    have hnil : ((notifications.filter fun x => x.1 = sid).map Prod.snd).filter Response.isReply =
        [] := by
      rw [List.filter_eq_nil_iff]
      intro r hr
      obtain ⟨x, hx, rfl⟩ := List.mem_map.1 hr
      rw [(h.notified x (List.mem_of_mem_filter hx)).1]
      exact Bool.false_ne_true
    rw [History.answeredOn, requestsOn_cons, List.filter_append, sentTo_append h.sent_eq,
      List.filter_append, List.filter_append, List.map_append, List.filter_append, hnil,
      List.append_nil]
    exact List.rel_append ih (h.replied.on sid)

/-- Other events than requests send nothing. -/
theorem sent_of_not_request {e : Event} (h : s.step e = .ok s')
    (he : ∀ sid req now, e ≠ .request sid req now) : s'.sent = s.sent := by
  obtain ⟨replies, notifications, hsends⟩ := sends_of_step h
  have hnone : replies = [] := by
    cases hsends.replied with
    | answer h => exact (he _ _ _ rfl).elim
    | none h => rfl
  rw [hsends.sent_eq, hnone, hsends.idle he]
  exact List.append_nil _

/-- The loop of `check_timeout` sends nothing. -/
theorem sent_closeAll {now : Instant} {sids : List SessionId} (h : s.closeAll now sids = .ok s') :
    s'.sent = s.sent := by
  induction sids generalizing s with
  | nil => exact congrArg sent (Except.ok.inj h).symm
  | cons sid sids ih =>
    unfold closeAll at h
    split at h
    · rename_i s₁ hclose
      exact (ih h).trans (sent_of_not_request (e := .close sid now) hclose fun _ _ _ => Event.noConfusion)
    · cases h

/-- A session object that exists was accepted. -/
theorem known_of_alive {sid : SessionId} (h : s.core.Alive sid) : (s.core.closedFlag sid).isSome := by
  obtain ⟨ses, hses, -⟩ := h
  rw [Core.closedFlag, hses]
  rfl

/-- A session that was accepted stays so. -/
theorem known_step {e : Event} (h : server.step s e s') {sid : SessionId}
    (hsid : (s.core.closedFlag sid).isSome) : (s'.core.closedFlag sid).isSome := by
  rw [closedFlag_step h]
  cases e.setsClosed sid with
  | none => exact hsid
  | some b => rfl

/-- **Messages are sent to sessions that were accepted**, -/
theorem known_of_sent {tr : History} (h : server.Run tr s) :
    ∀ x ∈ s.sent, (s.core.closedFlag x.1).isSome := by
  induction h with
  | nil => exact fun x hx => absurd hx List.not_mem_nil
  | @cons tr s s' e _ hs ih =>
    obtain ⟨replies, notifications, hsends⟩ := sends_of_step hs.2
    intro x hx
    refine known_step hs ?_
    rw [hsends.sent_eq, List.mem_append, List.mem_append] at hx
    rcases hx with hx | hx | hx
    · exact ih x hx
    · cases hsends.replied with
      | answer h =>
        rw [List.mem_singleton.1 hx]
        exact known_of_alive ((s.alive_iff _).1 hs.1.1)
      | none h => exact absurd hx List.not_mem_nil
    · exact known_of_alive (hsends.notified x hx).2

/-- and requests come from them. -/
theorem known_of_request {tr : History} (h : server.Run tr s) {sid : SessionId}
    (hreq : tr.requestsOn sid ≠ []) : (s.core.closedFlag sid).isSome := by
  induction h with
  | nil => exact absurd rfl hreq
  | @cons tr s s' e _ hs ih =>
    refine known_step hs ?_
    by_cases hprev : History.requestsOn tr sid = []
    · rw [requestsOn_cons, hprev, List.nil_append] at hreq
      cases e with
      | request sid' req now =>
        simp only [Event.requestOn] at hreq
        split_ifs at hreq with hs'
        · exact hs' ▸ known_of_alive ((s.alive_iff _).1 hs.1.1)
        · exact absurd rfl hreq
      | _ => exact absurd rfl hreq
    · exact ih hprev

end Server
end GameServer
