/-
# Runs of a labelled transition system

A `Transition.System` has one initial state and a step relation; `Run tr s` says
that the steps of the history `tr` lead from the initial state to `s`.  The
history keeps, latest first, each label together with the state it was taken in,
so a property of a run can speak of what happened before as well as of the state
it ends in.

Three rules carry every proof about runs.  `Run.invariant` is induction with the
history in hand.  `Run.invariant_under` restricts it to the runs all of whose
steps meet a condition, which is how a property that fails in general is stated
where it holds.  `Run.forall_reached_iff` says when such a condition is exact: if
a step keeps the property precisely when it meets the condition, then a run keeps
the property throughout precisely when all its steps meet the condition.
-/

import Mathlib.Data.List.Basic
import Mathlib.Tactic

namespace Transition

/-- A labelled transition system with one initial state. -/
structure System (σ ε : Type*) where
  init : σ
  step : σ → ε → σ → Prop

namespace System

variable {σ ε τ δ : Type*} {M : System σ ε}

/-- `M.Run tr s`: the steps of `tr`, latest first, lead from `M.init` to `s`. -/
inductive Run (M : System σ ε) : List (σ × ε) → σ → Prop
  | nil : Run M [] M.init
  | cons {tr : List (σ × ε)} {s s' : σ} {e : ε} :
      Run M tr s → M.step s e s' → Run M ((s, e) :: tr) s'

/-- The states a run passes through, the last one first. -/
def visited (tr : List (σ × ε)) (s : σ) : List σ := s :: tr.map Prod.fst

/-- Induction along a run, with its history. -/
theorem Run.invariant {P : List (σ × ε) → σ → Prop} (h₀ : P [] M.init)
    (hstep : ∀ {tr s e s'}, M.Run tr s → P tr s → M.step s e s' → P ((s, e) :: tr) s')
    {tr : List (σ × ε)} {s : σ} (h : M.Run tr s) : P tr s := by
  induction h with
  | nil => exact h₀
  | cons hrun hs ih => exact hstep hrun ih hs

/-- What every step that meets `C` preserves holds at the end of every run whose
steps all meet `C`. -/
theorem Run.invariant_under {P : σ → Prop} {C : σ → ε → Prop} (h₀ : P M.init)
    (hstep : ∀ {s e s'}, P s → C s e → M.step s e s' → P s')
    {tr : List (σ × ε)} {s : σ} (h : M.Run tr s) (hC : ∀ x ∈ tr, C x.1 x.2) : P s := by
  induction h with
  | nil => exact h₀
  | cons _ hs ih =>
    rw [List.forall_mem_cons] at hC
    exact hstep (ih hC.2) hC.1 hs

/-- What holds at the end of every run holds at every state of a run. -/
theorem Run.forall_visited {P : List (σ × ε) → σ → Prop} (hP : ∀ {tr s}, M.Run tr s → P tr s)
    {tr : List (σ × ε)} {s : σ} (h : M.Run tr s) :
    ∀ t ∈ visited tr s, ∃ tr', tr' <:+ tr ∧ M.Run tr' t ∧ P tr' t := by
  induction h with
  | nil =>
    intro t ht
    rw [visited, List.map_nil, List.mem_singleton] at ht
    exact ht ▸ ⟨[], List.suffix_rfl, .nil, hP .nil⟩
  | cons hrun hs ih =>
    intro t ht
    rw [visited, List.mem_cons] at ht
    rcases ht with rfl | ht
    · exact ⟨_, List.suffix_rfl, hrun.cons hs, hP (hrun.cons hs)⟩
    · obtain ⟨tr', hsuf, h'⟩ := ih t ht
      exact ⟨tr', hsuf.trans (List.suffix_cons _ _), h'⟩

/-- The states a run passes through, the last one first, each with the history that leads to
it. -/
def reached : List (σ × ε) → σ → List (List (σ × ε) × σ)
  | [], s => [([], s)]
  | (t, e) :: tr, s => ((t, e) :: tr, s) :: reached tr t

theorem Run.map_snd_reached {tr : List (σ × ε)} {s : σ} (h : M.Run tr s) :
    (reached tr s).map Prod.snd = visited tr s := by
  induction h with
  | nil => rfl
  | @cons tr s s' e _ _ ih =>
    rw [reached, List.map_cons, ih]
    rfl

/-- The state a run ends in is the last one it passes through. -/
theorem mem_reached (tr : List (σ × ε)) (s : σ) : (tr, s) ∈ reached tr s := by
  cases tr <;> exact List.mem_cons_self ..

/-- What a run passes through is the end of a run, on a history the run goes on from. -/
theorem Run.of_mem_reached {tr : List (σ × ε)} {s : σ} (h : M.Run tr s)
    {x : List (σ × ε) × σ} (hx : x ∈ reached tr s) : x.1 <:+ tr ∧ M.Run x.1 x.2 := by
  induction h with
  | nil =>
    obtain rfl := List.mem_singleton.1 hx
    exact ⟨List.suffix_rfl, .nil⟩
  | cons hrun hs ih =>
    rcases List.mem_cons.1 hx with rfl | hx
    · exact ⟨List.suffix_rfl, hrun.cons hs⟩
    · exact ⟨(ih hx).1.trans (List.suffix_cons _ _), (ih hx).2⟩

/-- **An exact step condition.**  If the property, which may speak of the history, holds
initially and each step of the run keeps it exactly when it meets `C`, the run has the
property in every state it passes through exactly when every step of it meets `C`. -/
theorem Run.forall_reached_iff {P : List (σ × ε) → σ → Prop} {C : σ → ε → Prop} (h₀ : P [] M.init)
    {tr : List (σ × ε)} {s : σ} (h : M.Run tr s)
    (hstep : ∀ {tr' t e t'}, (t, e) :: tr' <:+ tr → M.Run tr' t → P tr' t → M.step t e t' →
      (P ((t, e) :: tr') t' ↔ C t e)) :
    (∀ x ∈ reached tr s, P x.1 x.2) ↔ ∀ x ∈ tr, C x.1 x.2 := by
  induction h with
  | nil => simpa [reached] using h₀
  | @cons tr s s' e hrun hs ih =>
    rw [reached, List.forall_mem_cons, List.forall_mem_cons,
      ← ih fun hsuf => hstep (hsuf.trans (List.suffix_cons _ _))]
    exact and_congr_left fun hP => hstep List.suffix_rfl hrun (hP _ (mem_reached tr s)) hs

/-- The same for a property of the states alone. -/
theorem Run.forall_visited_iff {P : σ → Prop} {C : σ → ε → Prop} (h₀ : P M.init)
    {tr : List (σ × ε)} {s : σ} (h : M.Run tr s)
    (hstep : ∀ {tr' t e t'}, (t, e) :: tr' <:+ tr → M.Run tr' t → P t → M.step t e t' →
      (P t' ↔ C t e)) :
    (∀ t ∈ visited tr s, P t) ↔ ∀ x ∈ tr, C x.1 x.2 := by
  rw [← h.map_snd_reached, List.forall_mem_map]
  exact h.forall_reached_iff (P := fun _ t => P t) h₀ hstep

/-- The same where the steps have a property of their own beside that of the states. -/
theorem Run.forall_visited_and_iff {P : σ → Prop} {Q C : σ → ε → Prop} (h₀ : P M.init)
    {tr : List (σ × ε)} {s : σ} (h : M.Run tr s)
    (hstep : ∀ {tr' t e t'}, (t, e) :: tr' <:+ tr → M.Run tr' t → P t → M.step t e t' →
      (P t' ∧ Q t e ↔ C t e)) :
    ((∀ t ∈ visited tr s, P t) ∧ ∀ x ∈ tr, Q x.1 x.2) ↔ ∀ x ∈ tr, C x.1 x.2 := by
  induction h with
  | nil => simpa [visited] using h₀
  | @cons tr s s' e hrun hs ih =>
    have hv : visited ((s, e) :: tr) s' = s' :: visited tr s := rfl
    have hprev := ih fun hsuf => hstep (hsuf.trans (List.suffix_cons _ _))
    rw [hv, List.forall_mem_cons, List.forall_mem_cons, List.forall_mem_cons, ← hprev]
    constructor
    · rintro ⟨⟨hP', hP⟩, hQ', hQ⟩
      exact ⟨(hstep List.suffix_rfl hrun (hP s (List.mem_cons_self ..)) hs).1 ⟨hP', hQ'⟩, hP, hQ⟩
    · rintro ⟨hC, hP, hQ⟩
      obtain ⟨hP', hQ'⟩ := (hstep List.suffix_rfl hrun (hP s (List.mem_cons_self ..)) hs).2 hC
      exact ⟨⟨hP', hP⟩, hQ', hQ⟩

/-- What a step of another system is in this one: a step, or nothing. -/
def Follows (N : System τ δ) (t : τ) (t' : τ) : Option δ → Prop
  | none => t' = t
  | some d => N.step t d t'

/-- **Simulation.**  If each step of a run is a step of `N` or nothing, for the states that `abs`
makes of those of the run, then the run is one of `N`. -/
theorem Run.simulate {N : System τ δ} (abs : σ → τ) (act : σ → ε → Option δ)
    (h₀ : abs M.init = N.init) {tr : List (σ × ε)} {s : σ} (h : M.Run tr s)
    (hstep : ∀ {tr' t e t'}, (t, e) :: tr' <:+ tr → M.Run tr' t → M.step t e t' →
      N.Follows (abs t) (abs t') (act t e)) :
    N.Run (tr.filterMap fun x => (act x.1 x.2).map fun d => (abs x.1, d)) (abs s) := by
  induction h with
  | nil => exact h₀ ▸ .nil
  | @cons tr s s' e hrun hs ih =>
    have hbefore := ih fun hsuf => hstep (hsuf.trans (List.suffix_cons _ _))
    have hfollows := hstep List.suffix_rfl hrun hs
    cases hact : act s e with
    | none =>
      rw [hact] at hfollows
      rw [List.filterMap_cons_none (by rw [hact]; rfl), hfollows]
      exact hbefore
    | some d =>
      rw [hact] at hfollows
      rw [List.filterMap_cons_some (b := (abs s, d)) (by rw [hact]; rfl)]
      exact hbefore.cons hfollows

/-- Take the events one after the other, as long as `next` has a next state. -/
def replay (next : σ → ε → Option σ) : List (σ × ε) → σ → List ε → Option (List (σ × ε) × σ)
  | tr, s, [] => some (tr, s)
  | tr, s, e :: es => (next s e).bind fun s' => replay next ((s, e) :: tr) s' es

/-- **A replay is a run**, where the states computed are the ones the steps lead to. -/
theorem Run.replay {next : σ → ε → Option σ} (hnext : ∀ s e s', next s e = some s' → M.step s e s')
    {tr tr' : List (σ × ε)} {s s' : σ} {es : List ε} (h : M.Run tr s)
    (hes : replay next tr s es = some (tr', s')) : M.Run tr' s' := by
  induction es generalizing tr s with
  | nil =>
    obtain ⟨rfl, rfl⟩ := Prod.mk.inj (Option.some.inj hes)
    exact h
  | cons e es ih =>
    obtain ⟨s₁, hs, hes⟩ := Option.bind_eq_some_iff.1 hes
    exact ih (h.cons (hnext s e s₁ hs)) hes

/-- The history of a replay has its events, the last one first. -/
theorem map_snd_replay {next : σ → ε → Option σ} {tr tr' : List (σ × ε)} {s s' : σ} {es : List ε}
    (hes : replay next tr s es = some (tr', s')) :
    tr'.map Prod.snd = es.reverse ++ tr.map Prod.snd := by
  induction es generalizing tr s with
  | nil =>
    obtain ⟨rfl, rfl⟩ := Prod.mk.inj (Option.some.inj hes)
    rfl
  | cons e es ih =>
    obtain ⟨s₁, -, hes⟩ := Option.bind_eq_some_iff.1 hes
    rw [ih hes, List.map_cons, List.reverse_cons, List.append_assoc]
    rfl

/-- A replay goes on from where a part of it ends. -/
theorem replay_append {next : σ → ε → Option σ} {tr tr' : List (σ × ε)} {s s' : σ} {es : List ε}
    (hes : replay next tr s es = some (tr', s')) (es' : List ε) :
    replay next tr s (es ++ es') = replay next tr' s' es' := by
  induction es generalizing tr s with
  | nil =>
    obtain ⟨rfl, rfl⟩ := Prod.mk.inj (Option.some.inj hes)
    rfl
  | cons e es ih =>
    obtain ⟨s₁, hs, hes⟩ := Option.bind_eq_some_iff.1 hes
    rw [List.cons_append, replay, hs]
    exact ih hes

/-- A replay that ends as `Q` says is a run that does. -/
theorem exists_run_of_replay {next : σ → ε → Option σ}
    (hnext : ∀ s e s', next s e = some s' → M.step s e s') {Q : List (σ × ε) → σ → Prop}
    [∀ tr s, Decidable (Q tr s)] (es : List ε)
    (h : (replay next [] M.init es).any (fun x => decide (Q x.1 x.2)) = true) :
    ∃ tr s, M.Run tr s ∧ Q tr s := by
  obtain ⟨⟨tr, s⟩, hes, hQ⟩ := (Option.any_eq_true _ _).1 h
  exact ⟨tr, s, Run.nil.replay hnext hes, of_decide_eq_true hQ⟩

/-- The steps of a run are steps of the system. -/
theorem Run.step_of_suffix {tr tr' : List (σ × ε)} {s t : σ} {e : ε} (h : M.Run tr s)
    (hsuf : (t, e) :: tr' <:+ tr) : M.Run tr' t ∧ ∃ t', M.step t e t' := by
  induction h with
  | nil => exact absurd (List.suffix_nil.1 hsuf) (List.cons_ne_nil _ _)
  | cons hrun hs ih =>
    rcases List.suffix_cons_iff.1 hsuf with heq | hsuf
    · obtain ⟨hp, rfl⟩ := List.cons.inj heq
      obtain ⟨rfl, rfl⟩ := Prod.mk.inj hp
      exact ⟨hrun, _, hs⟩
    · exact ih hsuf

end System
end Transition
