/-
# The size of a reply

`encode` answers a body of more than `MAX_BODY_SIZE` bytes with an empty packet, so that a
message of that size is sent and never arrives.  A chat can grow to it on its way: its
notification has the id of the sender beside the text.  A reply cannot, but for one: the texts
that a handler writes are constants and a token, so that the others take a few dozen bytes
(`Response.Short`, `short_of_sent`), and the ranking takes at most 24 for each of its players
(`length_serialize_rankingResp`).
-/

import GameServer.Client.ClientConnection

namespace GameServer

open MessageCodec Wire

namespace Wire

open Varint

theorem length_varint_le {n : ℕ} (hn : n < 2 ^ 64) : (varint n).length ≤ 10 := by
  rw [varint, List.length_map, length_toVarint_le_iff 9 n]
  exact hn.trans (by norm_num)

theorem length_int64Field_le {number : ℕ} (hnumber : number < 15) (x : ℤ) :
    (int64Field number x).length ≤ 11 := by
  unfold int64Field
  split_ifs
  · exact Nat.zero_le _
  · have hlt : (x % 2 ^ 64).toNat < 2 ^ 64 := by omega
    rw [List.length_append, length_tag (by unfold WIRETYPE_VARINT; omega)]
    have hle := length_varint_le hlt
    omega

/-- A size below 128 takes one byte. -/
theorem length_stringField_le {number : ℕ} (hnumber : number < 15) {value : Bytes}
    (hlen : value.length < 128) : (stringField number value).length ≤ value.length + 2 := by
  unfold stringField
  split_ifs
  · exact Nat.zero_le _
  · rw [List.length_append, List.length_append,
      length_tag (by unfold WIRETYPE_LENGTH_DELIMITED; omega), varint, List.length_map,
      toVarint_of_lt hlen, List.length_singleton]
    omega

end Wire

/-- The texts of a reply are short. -/
def Response.Short : Response → Prop
  | .loginResp r => r.message.length ≤ 64 ∧ r.token.length ≤ 64
  | .matchResp r => r.message.length ≤ 64
  | .chatResp r => r.message.length ≤ 64
  | .reconnectResp r => r.message.length ≤ 64
  | _ => True

theorem length_serialize_rankingItem (item : RankingItem) :
    (RankingItem.descriptor.serialize item).length ≤ 22 := by
  have h₁ := length_int64Field_le (by decide : 1 < 15) item.playerId
  have h₂ := length_int64Field_le (by decide : 2 < 15) item.score
  simp only [Descriptor.serialize, RankingItem.descriptor, List.map_cons, List.map_nil,
    Field.serialize, List.flatten_cons, List.flatten_nil, List.append_nil, List.length_append]
  omega

/-- The tag and the size of an item take a byte each. -/
theorem length_serialize_rankingResp (r : RankingResp) :
    (Response.rankingResp r).serialize.length ≤ 24 * r.items.length := by
  have hwritten : (Response.rankingResp r).serialize = (r.items.map fun item =>
      tag 1 WIRETYPE_LENGTH_DELIMITED ++ sized (RankingItem.descriptor.serialize item)).flatten :=
    List.append_nil _
  rw [hwritten]
  induction r.items with
  | nil => exact Nat.zero_le _
  | cons item items ih =>
    have hitem := length_serialize_rankingItem item
    have hsize : (varint (RankingItem.descriptor.serialize item).length).length = 1 := by
      rw [varint, List.length_map, Varint.toVarint_of_lt (by omega), List.length_singleton]
    rw [List.map_cons, List.flatten_cons, List.length_append, List.length_append,
      length_tag (by decide), sized, List.length_append, hsize, List.length_cons]
    omega

/-- **A reply other than a ranking fits into a packet.** -/
theorem Response.Short.length_le {r : Response} (h : r.Short) (hreply : r.isReply = true)
    (hranking : ∀ items, r ≠ .rankingResp items) : r.serialize.length ≤ MAX_BODY_SIZE := by
  have hmax : 200 ≤ MAX_BODY_SIZE := by decide
  refine le_trans ?_ hmax
  cases r with
  | loginResp r =>
    obtain ⟨hmessage, htoken⟩ := h
    have h₁ := length_int64Field_le (by decide : 1 < 15) r.code
    have h₂ := length_int64Field_le (by decide : 2 < 15) r.playerId
    have h₃ := length_stringField_le (by decide : 3 < 15) (by omega : r.message.length < 128)
    have h₄ := length_stringField_le (by decide : 4 < 15) (by omega : r.token.length < 128)
    simp only [serialize, Descriptor.serialize, LoginResp.descriptor, List.map_cons, List.map_nil,
      Field.serialize, List.flatten_cons, List.flatten_nil, List.append_nil, List.length_append]
    omega
  | matchResp r =>
    have hmessage : r.message.length ≤ 64 := h
    have h₁ := length_int64Field_le (by decide : 1 < 15) r.code
    have h₂ := length_stringField_le (by decide : 2 < 15) (by omega : r.message.length < 128)
    simp only [serialize, Descriptor.serialize, MatchResp.descriptor, List.map_cons, List.map_nil,
      Field.serialize, List.flatten_cons, List.flatten_nil, List.append_nil, List.length_append]
    omega
  | chatResp r =>
    have hmessage : r.message.length ≤ 64 := h
    have h₁ := length_int64Field_le (by decide : 1 < 15) r.code
    have h₂ := length_stringField_le (by decide : 2 < 15) (by omega : r.message.length < 128)
    simp only [serialize, Descriptor.serialize, ChatResp.descriptor, List.map_cons, List.map_nil,
      Field.serialize, List.flatten_cons, List.flatten_nil, List.append_nil, List.length_append]
    omega
  | heartbeatResp r =>
    have h₁ := length_int64Field_le (by decide : 1 < 15) r.clientTimeMs
    have h₂ := length_int64Field_le (by decide : 2 < 15) r.serverTimeMs
    simp only [serialize, Descriptor.serialize, HeartbeatResp.descriptor, List.map_cons,
      List.map_nil, Field.serialize, List.flatten_cons, List.flatten_nil, List.append_nil,
      List.length_append]
    omega
  | reconnectResp r =>
    have hmessage : r.message.length ≤ 64 := h
    have h₁ := length_int64Field_le (by decide : 1 < 15) r.code
    have h₂ := length_int64Field_le (by decide : 2 < 15) r.playerId
    have h₃ := length_int64Field_le (by decide : 3 < 15) r.roomId
    have h₄ := length_stringField_le (by decide : 4 < 15) (by omega : r.message.length < 128)
    simp only [serialize, Descriptor.serialize, ReconnectResp.descriptor, List.map_cons,
      List.map_nil, Field.serialize, List.flatten_cons, List.flatten_nil, List.append_nil,
      List.length_append]
    omega
  | rankingResp r => exact absurd rfl (hranking r)
  | roomCreatedNotify | chatNotify => cases hreply

/-- The token of a player has the digits of an `int`. -/
theorem LoginService.length_generateToken {p : PlayerId} (h : IsInt32 p) :
    (generateToken p).length ≤ 64 := by
  have hrepr : ∀ n : ℕ, n ≤ 2 ^ 31 → n.repr.length ≤ 10 := fun n hn =>
    (Nat.length_repr_le_iff (by decide)).2 (hn.trans_lt (by norm_num))
  have hdigits : (ToString.toString p).length ≤ 11 := by
    rw [Int.toString_eq_repr, Int.repr_eq_if]
    unfold IsInt32 at h
    split_ifs
    · exact (hrepr _ (by omega)).trans (by decide)
    · have hneg := hrepr (-p).toNat (by omega)
      rw [String.length_append]
      have hsign : "-".length = 1 := by decide
      omega
  have hprefix : (ascii "token_").length = 6 := by decide
  rw [generateToken, List.length_append, hprefix, toString, ascii, List.length_map,
    String.length_toList]
  omega

namespace Server

variable {s s' : Server} {e : Event}

/-- The reasons for which a request to be matched is refused. -/
theorem reason_match {sid : SessionId} {req : MatchReq} {now : Instant} {reason : Bytes}
    (href : toInt req.playerId ≤ 0 ∨ toInt req.playerId ∈ s.matchQueue.inQueue)
    (h : s.step (.request sid (.match req) now) =
      .ok (MatchService.sendMatchFailure (s.counted sid now .incrMatchReq) sid reason)) :
    reason.length ≤ 64 := by
  have hreason : ∀ {why : Bytes}, why.length ≤ 64 →
      s.sent ++ [(sid, Response.matchResp { code := 1, message := why })] =
        s.sent ++ [(sid, .matchResp { code := 1, message := reason })] → reason.length ≤ 64 := by
    intro why hwhy heq
    obtain rfl : why = reason := by simpa using heq
    exact hwhy
  have h : MatchService.handleMatch (s.received sid now) sid req = _ := h
  rw [MatchService.handleMatch] at h
  dsimp only at h
  split_ifs at h with hp hq
  · exact hreason (by decide) (congrArg Server.sent (Except.ok.inj h))
  · exact hreason (by decide) (congrArg Server.sent (Except.ok.inj h))
  · rcases href with hle | hin
    · exact absurd hle hp
    · exact absurd (decide_eq_true (p := toInt req.playerId ∈ s.matchQueue.inQueue) hin) hq

/-- The reasons for which a request to reconnect is refused. -/
theorem reason_reconnect {sid : SessionId} {req : ReconnectReq} {now : Instant} {reason : Bytes}
    (hno : ∀ st, ¬ s.core.Resumable (toInt req.playerId) req.token st)
    (h : s.step (.request sid (.reconnect req) now) =
      .ok (ReconnectService.sendReconnectFailed (s.counted sid now .incrReconnectReq) sid reason)) :
    reason.length ≤ 64 := by
  have hreason : ∀ {p : ℤ} {why : Bytes}, why.length ≤ 64 →
      s.sent ++ [(sid, Response.reconnectResp { code := 1, playerId := p, message := why })] =
        s.sent ++ [(sid, .reconnectResp { code := 1, playerId := p, message := reason })] →
      reason.length ≤ 64 := by
    intro p why hwhy heq
    obtain rfl : why = reason := by simpa using heq
    exact hwhy
  have h : ReconnectService.handleReconnect (s.received sid now) sid req = _ := h
  rw [ReconnectService.handleReconnect] at h
  dsimp only at h
  split at h
  · exact hreason (by decide) (congrArg Server.sent (Except.ok.inj h))
  · rename_i st hst
    split_ifs at h with htoken hconn
    · exact hreason (by decide) (congrArg Server.sent (Except.ok.inj h))
    · exact hreason (by decide) (congrArg Server.sent (Except.ok.inj h))
    · exact absurd ⟨hst, not_not.1 htoken, not_not.1 hconn⟩ (hno st)

/-- **The texts of all replies are short.** -/
theorem short_of_sent {tr : History} (h : server.Run tr s) : ∀ x ∈ s.sent, x.2.Short := by
  induction h with
  | nil => exact fun x hx => absurd hx List.not_mem_nil
  | @cons tr s s' e hrun hs ih =>
    have hone : ∀ {sid : SessionId} {r : Response}, r.Short →
        ∀ x ∈ s.sent ++ [(sid, r)], x.2.Short := fun hr => by
      rw [List.forall_mem_append]
      exact ⟨ih, List.forall_mem_singleton.2 hr⟩
    have hmatch : (Response.matchResp { code := 0, message := ascii "match success" }).Short :=
      (by decide : (ascii "match success").length ≤ 64)
    have hstep := hs.2
    have hcase := handled_of_step hs.2
    generalize s.act e = a at hcase
    clear hs
    cases hcase with
    | accept | closed | close | release | sweep | unregistered => exact ih
    | loginRefused hu => exact hone ⟨by decide, by decide⟩
    | login hu =>
      exact hone ⟨(by decide : (ascii "login_success").length ≤ 64),
        LoginService.length_generateToken (inRange_of_run hrun).core.nextPlayerId⟩
    | matchRefused href reason => exact hone (reason_match href hstep)
    | wait => exact hone hmatch
    | @room sid req now ps hp hq hps hne hres =>
      refine List.forall_mem_append.2 ⟨hone hmatch, fun x hx => ?_⟩
      obtain ⟨p, -, rfl⟩ := List.mem_map.1 hx
      trivial
    | chat hroom hres =>
      refine List.forall_mem_append.2 ⟨ih, fun x hx => ?_⟩
      obtain ⟨p, -, rfl⟩ := List.mem_map.1 hx
      trivial
    | heartbeat | ranking => exact hone trivial
    | reconnectRefused hno reason => exact hone (reason_reconnect hno hstep)
    | resume hst hrm => exact hone (by decide : (ascii "reconnect_success").length ≤ 64)

end Server
end GameServer
