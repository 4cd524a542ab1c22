import Mathlib.Data.List.Basic

/-!
# Machines with visible events

A machine reads one action per step and reports the events that the step makes visible.
A trace is the list of all events since the start, so a property of the past is a
property of the trace and needs no history variable in the state. Interleavings are
chosen by the actions: a step function that fixes its action is deterministic.

The rules below are the ones a proof uses: an invariant over trace and state, the
splitting of a run at one of its events, the projection of a composed machine onto a
component, and the lifting of a simulation from steps to runs.
-/

namespace Lib

/-- A state machine whose step consumes an action and reports visible events. -/
structure EventMachine (σ α ε : Type*) where
  initial : σ → Prop
  step : σ → α → Option (σ × List ε)

namespace EventMachine

variable {σ α ε : Type*}

/-- A finite execution with the events it reported, in order. -/
inductive Run (M : EventMachine σ α ε) : σ → List ε → σ → Prop
  | nil (s : σ) : Run M s [] s
  | snoc {s s' s'' : σ} {es e : List ε} {a : α} :
      Run M s es s' → M.step s' a = some (s'', e) → Run M s (es ++ e) s''

/-- The states reachable from an initial one, with everything reported on the way. -/
def Trace (M : EventMachine σ α ε) (es : List ε) (s : σ) : Prop :=
  ∃ s₀, M.initial s₀ ∧ M.Run s₀ es s

variable {M : EventMachine σ α ε}

/-- One step is a run. -/
theorem Run.single {s s' : σ} {e : List ε} {a : α} (h : M.step s a = some (s', e)) : M.Run s e s' := by
  simpa using Run.snoc (Run.nil s) h

/-- Runs compose, and so do their events. -/
theorem Run.trans {s s' s'' : σ} {es es' : List ε} (h : M.Run s es s') (h' : M.Run s' es' s'') :
    M.Run s (es ++ es') s'' := by
  induction h' with
  | nil => simpa using h
  | snoc _ hstep ih =>
    rw [← List.append_assoc]
    exact Run.snoc ih hstep

/-- A relation between the events so far and the state holds along a run once every step keeps it. -/
theorem Run.invariant {I : List ε → σ → Prop} {s s' : σ} {es : List ε} (h : M.Run s es s')
    (hinit : I [] s)
    (hstep : ∀ {es s a s' e}, I es s → M.step s a = some (s', e) → I (es ++ e) s') : I es s' := by
  induction h with
  | nil => exact hinit
  | snoc _ h ih => exact hstep ih h

/-- An invariant of the state alone, kept by every step, survives a whole run. -/
theorem Run.preserves {P : σ → Prop} {s s' : σ} {es : List ε} (h : M.Run s es s') (hinit : P s)
    (hstep : ∀ {s a s' e}, P s → M.step s a = some (s', e) → P s') : P s' :=
  h.invariant (I := fun _ s => P s) hinit hstep

/-- The induction behind every invariant of the reachable states. -/
theorem Trace.invariant {I : List ε → σ → Prop} {s : σ} {es : List ε} (h : M.Trace es s)
    (hinit : ∀ s, M.initial s → I [] s)
    (hstep : ∀ {es s a s' e}, M.Trace es s → I es s → M.step s a = some (s', e) → I (es ++ e) s') :
    I es s := by
  obtain ⟨s₀, h₀, hrun⟩ := h
  exact (hrun.invariant (I := fun es s => M.Trace es s ∧ I es s) ⟨⟨s₀, h₀, Run.nil _⟩, hinit s₀ h₀⟩
    fun hi hs => ⟨let ⟨s₁, h₁, hr⟩ := hi.1; ⟨s₁, h₁, hr.snoc hs⟩, hstep hi.1 hi.2 hs⟩).2

/-- Initial states are reached with nothing reported. -/
theorem Trace.initial {s : σ} (h : M.initial s) : M.Trace [] s := ⟨s, h, Run.nil s⟩

/-- Extending a trace by a run. -/
theorem Trace.run {s s' : σ} {es es' : List ε} (h : M.Trace es s) (hrun : M.Run s es' s') :
    M.Trace (es ++ es') s' :=
  let ⟨s₀, h₀, hr⟩ := h
  ⟨s₀, h₀, hr.trans hrun⟩

/-- Extending a trace by one step. -/
theorem Trace.step {s s' : σ} {es e : List ε} {a : α} (h : M.Trace es s)
    (hstep : M.step s a = some (s', e)) : M.Trace (es ++ e) s' :=
  h.run (Run.single hstep)

/-- Execute a list of actions, failing at the first one that is not enabled. -/
def exec (M : EventMachine σ α ε) : σ → List α → Option (σ × List ε)
  | s, [] => some (s, [])
  | s, a :: as => (M.step s a).bind fun p => (M.exec p.1 as).map fun q => (q.1, p.2 ++ q.2)

/-- An executed schedule is a run. -/
theorem exec_run {s s' : σ} {as : List α} {es : List ε} (h : M.exec s as = some (s', es)) :
    M.Run s es s' := by
  induction as generalizing s es with
  | nil =>
    simp only [exec, Option.some.injEq, Prod.mk.injEq] at h
    obtain ⟨rfl, rfl⟩ := h
    exact Run.nil s
  | cons a as ih =>
    obtain ⟨⟨s₁, e⟩, hstep, h⟩ := Option.bind_eq_some_iff.mp h
    obtain ⟨⟨s₂, es₂⟩, hexec, h⟩ := Option.map_eq_some_iff.mp h
    simp only [Prod.mk.injEq] at h
    obtain ⟨rfl, rfl⟩ := h
    exact (Run.single hstep).trans (ih hexec)

/-- A schedule that is executed from an initial state reaches a state. -/
theorem exec_trace {s s' : σ} {as : List α} {es : List ε} (hinit : M.initial s)
    (h : M.exec s as = some (s', es)) : M.Trace es s' :=
  ⟨s, hinit, exec_run h⟩

/-- Consecutive schedules execute one after the other. -/
theorem exec_append (s : σ) (as bs : List α) :
    M.exec s (as ++ bs) =
      (M.exec s as).bind fun p => (M.exec p.1 bs).map fun q => (q.1, p.2 ++ q.2) := by
  induction as generalizing s with
  | nil => cases h : M.exec s bs <;> simp [exec, h]
  | cons a as ih =>
    simp only [List.cons_append, exec]
    cases M.step s a with
    | none => rfl
    | some p =>
      simp only [Option.bind_some, ih]
      cases M.exec p.1 as with
      | none => rfl
      | some q =>
        simp only [Option.map_some, Option.bind_some]
        cases M.exec q.1 bs with
        | none => rfl
        | some r => simp

/-- A schedule has no more steps than its measure allows, where an invariant makes every step lower it. -/
theorem exec_length_le {I : σ → Prop} {μ : σ → ℕ}
    (hstep : ∀ {s a s' e}, I s → M.step s a = some (s', e) → I s' ∧ μ s' < μ s)
    {s s' : σ} {as : List α} {es : List ε} (hinit : I s) (h : M.exec s as = some (s', es)) :
    as.length + μ s' ≤ μ s := by
  induction as generalizing s es with
  | nil =>
    simp only [exec, Option.some.injEq, Prod.mk.injEq] at h
    obtain ⟨rfl, -⟩ := h
    simp
  | cons a as ih =>
    obtain ⟨⟨s₁, e⟩, hfirst, h⟩ := Option.bind_eq_some_iff.mp h
    obtain ⟨⟨s₂, es₂⟩, hrest, h⟩ := Option.map_eq_some_iff.mp h
    obtain ⟨rfl, -⟩ := Prod.mk.inj h
    obtain ⟨hinv, hless⟩ := hstep hinit hfirst
    have hbound := ih hinv hrest
    rw [List.length_cons]
    omega

/-- A schedule whose events satisfy `Q` has no more steps of kind `q` than the rank of its start and the cost of
some of its actions allow, where every other step of this kind lowers the rank. -/
theorem exec_countP_le_of_cost {I : σ → ℕ → Prop} {Q : ε → Prop} {q p : α → Bool} {k : ℕ}
    (hstep : ∀ {s a s' e n}, I s n → M.step s a = some (s', e) → (∀ x ∈ e, Q x) →
      ∃ n', I s' n' ∧ (n' < n ∨ (q a = false ∧ n' ≤ n) ∨ (p a = true ∧ n' < n + k)))
    {s s' : σ} {as : List α} {es : List ε} {n : ℕ} (hinit : I s n) (h : M.exec s as = some (s', es))
    (hevents : ∀ x ∈ es, Q x) : as.countP q ≤ n + k * as.countP p := by
  induction as generalizing s es n with
  | nil => exact Nat.zero_le _
  | cons a as ih =>
    obtain ⟨⟨s₁, e⟩, hfirst, h⟩ := Option.bind_eq_some_iff.mp h
    obtain ⟨⟨s₂, es₂⟩, hrest, h⟩ := Option.map_eq_some_iff.mp h
    obtain ⟨rfl, rfl⟩ := Prod.mk.inj h
    obtain ⟨n', hrank, hless⟩ := hstep hinit hfirst fun x hx => hevents x (List.mem_append_left es₂ hx)
    have hbound := ih hrank hrest fun x hx => hevents x (List.mem_append_right e hx)
    have hcount : k * as.countP p ≤ k * (a :: as).countP p :=
      Nat.mul_le_mul_left k (List.sublist_cons_self a as).countP_le
    have hone : (a :: as).countP q ≤ as.countP q + 1 := by
      rw [List.countP_cons]
      split_ifs <;> omega
    rcases hless with hless | ⟨hother, hless⟩ | ⟨hcost, hless⟩
    · omega
    · rw [List.countP_cons_of_neg (by rw [hother]; exact Bool.false_ne_true)]
      omega
    · rw [List.countP_cons_of_pos hcost, Nat.mul_succ]
      omega

/-- A schedule has no more steps than the rank of its start and the cost of some of its actions allow, where
every other step lowers the rank. -/
theorem exec_length_le_of_cost {I : σ → ℕ → Prop} {p : α → Bool} {k : ℕ}
    (hstep : ∀ {s a s' e n}, I s n → M.step s a = some (s', e) →
      ∃ n', I s' n' ∧ (n' < n ∨ (p a = true ∧ n' < n + k)))
    {s s' : σ} {as : List α} {es : List ε} {n : ℕ} (hinit : I s n) (h : M.exec s as = some (s', es)) :
    as.length ≤ n + k * as.countP p := by
  have hcount : as.countP (fun _ => true) = as.length := congrFun List.countP_true as
  rw [← hcount]
  refine exec_countP_le_of_cost (Q := fun _ => True) (fun hinv hfirst _ => ?_) hinit h fun _ _ => trivial
  obtain ⟨n', hrank, hless⟩ := hstep hinv hfirst
  exact ⟨n', hrank, hless.imp_right Or.inr⟩

/-- Where every schedule is bounded, some schedule ends in a state that has no step. -/
theorem exists_stuck {s : σ} {bound : ℕ}
    (h : ∀ as s' es, M.exec s as = some (s', es) → as.length ≤ bound) :
    ∃ as s' es, M.exec s as = some (s', es) ∧ ∀ a, M.step s' a = none := by
  by_contra hnone
  -- otherwise every schedule can be made longer
  have hlong : ∀ n, ∃ as s' es, M.exec s as = some (s', es) ∧ as.length = n := by
    intro n
    induction n with
    | zero => exact ⟨[], s, [], rfl, rfl⟩
    | succ n ih =>
      obtain ⟨as, s', es, hexec, hlength⟩ := ih
      have henabled : ∃ a, M.step s' a ≠ none := by
        by_contra hstuck
        exact hnone ⟨as, s', es, hexec, fun a => not_not.mp fun ha => hstuck ⟨a, ha⟩⟩
      obtain ⟨a, ha⟩ := henabled
      obtain ⟨⟨s'', e⟩, hstep⟩ := Option.ne_none_iff_exists'.mp ha
      refine ⟨as ++ [a], s'', es ++ e, ?_, by rw [List.length_append, hlength]; rfl⟩
      rw [exec_append, hexec]
      simp [exec, hstep]
  obtain ⟨as, s', es, hexec, hlength⟩ := hlong (bound + 1)
  have hbound := h as s' es hexec
  omega

/-- The machine without some of its actions. -/
def without (M : EventMachine σ α ε) (p : α → Bool) : EventMachine σ α ε where
  initial := M.initial
  step s a := if p a then none else M.step s a

/-- What it executes is executed without them. -/
theorem exec_of_without {p : α → Bool} {s s' : σ} {as : List α} {es : List ε}
    (h : (M.without p).exec s as = some (s', es)) : M.exec s as = some (s', es) ∧ as.countP p = 0 := by
  induction as generalizing s es with
  | nil => exact ⟨h, rfl⟩
  | cons a as ih =>
    obtain ⟨⟨s₁, e⟩, hfirst, h⟩ := Option.bind_eq_some_iff.mp h
    obtain ⟨⟨s₂, es₂⟩, hrest, h⟩ := Option.map_eq_some_iff.mp h
    obtain ⟨rfl, rfl⟩ := Prod.mk.inj h
    simp only [without] at hfirst
    split_ifs at hfirst with hp
    obtain ⟨hexec, hcount⟩ := ih hrest
    refine ⟨?_, by rw [List.countP_cons_of_neg hp, hcount]⟩
    simp only [exec, hfirst, Option.bind_some, hexec, Option.map_some]

/-- Related states execute a schedule alike, where each of its actions leads from related states to related
states. -/
theorem exec_related {R : σ → σ → Prop} {P : α → Prop}
    (hstep : ∀ {s t a}, R s t → P a → Option.Rel (fun p q => R p.1 q.1 ∧ p.2 = q.2) (M.step s a) (M.step t a))
    {s t : σ} {as : List α} (hrelated : R s t) (has : ∀ a ∈ as, P a) :
    Option.Rel (fun p q => R p.1 q.1 ∧ p.2 = q.2) (M.exec s as) (M.exec t as) := by
  induction as generalizing s t with
  | nil => exact .some ⟨hrelated, rfl⟩
  | cons a as ih =>
    have hfirst := hstep hrelated (has a List.mem_cons_self)
    simp only [exec]
    generalize M.step s a = x at hfirst ⊢
    generalize M.step t a = y at hfirst ⊢
    cases hfirst with
    | none => exact .none
    | @some p q hfirst =>
      have hrest := ih hfirst.1 fun b hb => has b (List.mem_cons_of_mem a hb)
      simp only [Option.bind_some, hfirst.2]
      generalize M.exec p.1 as = x at hrest ⊢
      generalize M.exec q.1 as = y at hrest ⊢
      cases hrest with
      | none => exact .none
      | some hrest => exact .some ⟨hrest.1, congrArg (q.2 ++ ·) hrest.2⟩

section Projection

variable {σ' α' ε' : Type*}

/-- A composed machine moves its component by component steps only, and reports them faithfully. -/
structure Projection (S : EventMachine σ α ε) (C : EventMachine σ' α' ε') where
  state : σ → σ'
  event : ε → Option ε'
  initial : ∀ s, S.initial s → C.initial (state s)
  step : ∀ {s a s' e}, S.step s a = some (s', e) →
    (state s' = state s ∧ e.filterMap event = []) ∨
      ∃ b, C.step (state s) b = some (state s', e.filterMap event)

variable {S : EventMachine σ α ε} {C : EventMachine σ' α' ε'}

/-- A run of the composed machine is a run of its component. -/
theorem Projection.run (π : Projection S C) {s s' : σ} {es : List ε} (h : S.Run s es s') :
    C.Run (π.state s) (es.filterMap π.event) (π.state s') := by
  induction h with
  | nil => exact Run.nil _
  | snoc _ hstep ih =>
    rw [List.filterMap_append]
    rcases π.step hstep with ⟨hstate, hevents⟩ | ⟨b, hb⟩
    · rw [hstate, hevents, List.append_nil]
      exact ih
    · exact ih.snoc hb

/-- Reachable composed states have reachable components. -/
theorem Projection.trace (π : Projection S C) {s : σ} {es : List ε} (h : S.Trace es s) :
    C.Trace (es.filterMap π.event) (π.state s) :=
  let ⟨s₀, h₀, hrun⟩ := h
  ⟨π.state s₀, π.initial s₀ h₀, π.run hrun⟩

end Projection

section Simulation

variable {σ' α' ε' : Type*}

/-- Every concrete step from related states is answered by an abstract run to related states. The relation
speaks of what both sides have reported. -/
structure Simulation (C : EventMachine σ α ε) (A : EventMachine σ' α' ε') where
  related : List ε → σ → List ε' → σ' → Prop
  initial : ∀ s, C.initial s → ∃ t, A.initial t ∧ related [] s [] t
  step : ∀ {es s es' t a s₁ e}, C.Trace es s → related es s es' t → C.step s a = some (s₁, e) →
    ∃ e' t₁, A.Run t e' t₁ ∧ related (es ++ e) s₁ (es' ++ e') t₁

/-- A simulation answers whole concrete traces by abstract ones. -/
theorem Simulation.trace {C : EventMachine σ α ε} {A : EventMachine σ' α' ε'} (R : Simulation C A)
    {s : σ} {es : List ε} (h : C.Trace es s) : ∃ es' t, A.Trace es' t ∧ R.related es s es' t := by
  refine h.invariant (I := fun es s => ∃ es' t, A.Trace es' t ∧ R.related es s es' t) ?_ ?_
  · intro s hs
    obtain ⟨t, ht, hr⟩ := R.initial s hs
    exact ⟨[], t, Trace.initial ht, hr⟩
  · rintro es s a s₁ e htrace ⟨es', t, ht, hr⟩ hstep
    obtain ⟨e', t₁, hrun, hr'⟩ := R.step htrace hr hstep
    exact ⟨es' ++ e', t₁, ht.run hrun, hr'⟩

end Simulation

end EventMachine

end Lib
