import Trftp.Lib.EventMachine

/-!
# Waiting on a condition variable

A machine whose waiting thread goes on as soon as a predicate holds says what a wait on a
condition variable is for. The wait itself is a loop: the thread tests the predicate, blocks,
is woken by a notification, for no reason or by its timeout, and tests again. Where the
notifying threads do not hold the mutex of the wait, a notification may fall between the test
and the blocking, and then it wakes nobody.

The machine below has this loop. It reports what the machine that it elaborates reports, so
every property of traces carries over. What a lost notification costs is time.
-/

namespace Lib

/-- Where the waiting thread is in its wait. -/
inductive WaitPos where
  /-- about to test the predicate, and wherever the thread is not waiting -/
  | test
  /-- about to block, behind a test that failed -/
  | blocking
  /-- blocked -/
  | blocked
  /-- about to test the predicate a last time, behind the timeout -/
  | lastTest
  deriving DecidableEq

/-- What the wait lets be seen beside the events of the machine. -/
inductive WaitEvent (ε : Type*) where
  | base (x : ε)
  /-- the predicate was tested and found false -/
  | tested
  /-- the thread blocked -/
  | blocked
  /-- a notification was made -/
  | notified
  deriving DecidableEq

/-- The event of the machine itself. -/
def WaitEvent.base? {ε : Type*} : WaitEvent ε → Option ε
  | .base x => some x
  | .tested | .blocked | .notified => none

/-- What happens next. -/
inductive WaitAction (α : Type*) where
  | base (a : α)
  /-- the waiting thread tests the predicate, which does not hold -/
  | test
  /-- the waiting thread blocks -/
  | block
  /-- a thread makes the notification that it owes -/
  | notify
  /-- the waiting thread wakes up for no reason -/
  | spurious
  /-- the timeout of the wait expires -/
  | expire

/-- The state of the machine and of the wait. -/
structure WaitState (σ : Type*) where
  base : σ
  pos : WaitPos
  /-- notifications that follow a change and have not been made yet -/
  owed : ℕ
  deriving DecidableEq

/-- A wait of one thread of a machine. -/
structure Wait {σ α ε : Type*} (M : EventMachine σ α ε) where
  /-- The thread is in the wait. -/
  waiting : σ → Bool
  /-- The predicate of the wait. -/
  ready : σ → Bool
  /-- The actions of the waiting thread. -/
  ofWaiter : α → Bool
  /-- By these it leaves the wait without its predicate. -/
  gaveUp : α → Bool
  /-- The other threads make a notification behind this event. -/
  notifies : ε → Bool
  /-- The machine lets the thread leave as the predicate says. -/
  ready_of_leave : ∀ {s a s' e}, M.step s a = some (s', e) → ofWaiter a = true → waiting s = true →
    ready s = !gaveUp a
  waiting_of_other : ∀ {s a s' e}, M.step s a = some (s', e) → ofWaiter a = false → waiting s' = waiting s
  notifies_of_ready : ∀ {s a s' e}, M.step s a = some (s', e) → ofWaiter a = false →
    ready s = false → ready s' = true → 0 < e.countP notifies

namespace Wait

variable {σ α ε : Type*} {M : EventMachine σ α ε} (W : Wait M)

/-- The waiting thread leaves its wait behind a test that holds, and behind the last test as that one says. -/
def free (w : WaitState σ) (a : α) : Prop :=
  W.ofWaiter a = true → W.waiting w.base = true →
    (w.pos = .test ∧ W.ready w.base = true ∧ W.gaveUp a = false) ∨
      (w.pos = .lastTest ∧ W.ready w.base = !W.gaveUp a)

instance (w : WaitState σ) (a : α) : Decidable (W.free w a) :=
  inferInstanceAs (Decidable (_ → _ → _))

/-- The state behind a step of the machine itself. -/
def after (w : WaitState σ) (a : α) (s' : σ) (e : List ε) : WaitState σ :=
  if W.ofWaiter a then { base := s', pos := .test, owed := w.owed }
  else { base := s', pos := w.pos, owed := w.owed + e.countP W.notifies }

/-- One step of the machine or of the wait. -/
def step (w : WaitState σ) : WaitAction α → Option (WaitState σ × List (WaitEvent ε))
  | .base a =>
    if W.free w a then (M.step w.base a).map fun p => (W.after w a p.1 p.2, p.2.map .base) else none
  | .test =>
    if W.waiting w.base = true ∧ w.pos = .test ∧ W.ready w.base = false then
      some ({ w with pos := .blocking }, [.tested])
    else none
  | .block => if w.pos = .blocking then some ({ w with pos := .blocked }, [.blocked]) else none
  | .notify =>
    if 0 < w.owed then
      some ({ w with pos := if w.pos = .blocked then .test else w.pos, owed := w.owed - 1 }, [.notified])
    else none
  | .spurious => if w.pos = .blocked then some ({ w with pos := .test }, []) else none
  | .expire => if w.pos = .blocked then some ({ w with pos := .lastTest }, []) else none

/-- The machine with the loop of its wait. -/
def machine : EventMachine (WaitState σ) (WaitAction α) (WaitEvent ε) where
  initial w := M.initial w.base ∧ w.pos = .test ∧ w.owed = 0
  step w a := W.step w a

variable {W} {w w' : WaitState σ} {es e : List (WaitEvent ε)}

/-- A step of the machine itself happens in the machine, where the wait allows it. -/
theorem step_base {a : α} (h : W.step w (.base a) = some (w', e)) :
    W.free w a ∧ ∃ s' x, M.step w.base a = some (s', x) ∧ w' = W.after w a s' x ∧ e = x.map .base := by
  simp only [step] at h
  by_cases hfree : W.free w a
  · rw [if_pos hfree] at h
    obtain ⟨⟨s', x⟩, hstep, heq⟩ := Option.map_eq_some_iff.mp h
    cases heq
    exact ⟨hfree, s', x, hstep, rfl, rfl⟩
  · rw [if_neg hfree] at h
    contradiction

@[simp] theorem after_base (w : WaitState σ) (a : α) (s' : σ) (x : List ε) : (W.after w a s' x).base = s' := by
  unfold after
  split <;> rfl

/-- The events of a step of the machine are those of the machine. -/
theorem filterMap_base (x : List ε) : (x.map WaitEvent.base).filterMap WaitEvent.base? = x := by
  rw [List.filterMap_map]
  exact List.filterMap_some

/-- A step of the wait leaves the machine alone and reports none of its events. -/
theorem step_wait {a : WaitAction α} (h : W.step w a = some (w', e)) (hwait : ∀ b, a ≠ .base b) :
    w'.base = w.base ∧ e.filterMap WaitEvent.base? = [] := by
  cases a with
  | base b => exact absurd rfl (hwait b)
  | test | block | notify | spurious | expire =>
    simp only [step] at h
    split at h <;> cases h
    exact ⟨rfl, rfl⟩

/-- With the loop of its wait the machine does nothing that it does not do without. -/
def projection (W : Wait M) : EventMachine.Projection W.machine M where
  state w := w.base
  event := WaitEvent.base?
  initial w h := h.1
  step {w a w' e} h := by
    change W.step w a = some (w', e) at h
    cases a with
    | base b =>
      obtain ⟨-, s', x, hstep, rfl, rfl⟩ := step_base h
      refine Or.inr ⟨b, ?_⟩
      rw [after_base, filterMap_base]
      exact hstep
    | test | block | notify | spurious | expire => exact Or.inl (step_wait h (by simp))

/-- A wait that nothing is owed to and that is at its test. -/
def idle (s : σ) : WaitState σ := { base := s, pos := .test, owed := 0 }

/-- Notifications that wake nobody. -/
theorem run_notify (s : σ) (n : ℕ) :
    W.machine.Run { base := s, pos := .test, owed := n } (List.replicate n .notified) (idle s) := by
  induction n with
  | zero => exact EventMachine.Run.nil _
  | succ n ih =>
    have hfirst : W.machine.step { base := s, pos := .test, owed := n + 1 } .notify =
        some ({ base := s, pos := .test, owed := n }, [.notified]) := by
      simp [machine, step]
    exact (EventMachine.Run.single hfirst).trans ih

/-- A wait whose predicate does not hold reaches its timeout. -/
theorem run_expire {s : σ} (hwaiting : W.waiting s = true) (hready : W.ready s = false) :
    W.machine.Run (idle s) [.tested, .blocked] { base := s, pos := .lastTest, owed := 0 } := by
  have htest : W.machine.step (idle s) .test = some ({ base := s, pos := .blocking, owed := 0 }, [.tested]) := by
    simp [machine, step, idle, hwaiting, hready]
  have hblock : W.machine.step { base := s, pos := .blocking, owed := 0 } .block =
      some ({ base := s, pos := .blocked, owed := 0 }, [.blocked]) := by
    simp [machine, step]
  have hexpire : W.machine.step { base := s, pos := .blocked, owed := 0 } .expire =
      some ({ base := s, pos := .lastTest, owed := 0 }, []) := by
    simp [machine, step]
  exact ((EventMachine.Run.single htest).trans (EventMachine.Run.single hblock)).trans
    (EventMachine.Run.single hexpire)

/-- A step of the machine that the wait allows, with the notifications behind it. -/
theorem run_base {a : α} {s' : σ} {x : List ε} (hfree : W.free w a) (howed : w.owed = 0)
    (hpos : W.ofWaiter a = false → w.pos = .test) (hstep : M.step w.base a = some (s', x)) :
    ∃ e, e.filterMap WaitEvent.base? = x ∧ W.machine.Run w e (idle s') := by
  have hfirst : W.machine.step w (.base a) = some (W.after w a s' x, x.map .base) := by
    simp [machine, step, hfree, hstep]
  have hafter : W.after w a s' x =
      { base := s', pos := .test, owed := if W.ofWaiter a then 0 else x.countP W.notifies } := by
    unfold after
    cases hwaiter : W.ofWaiter a <;> simp [howed, hpos, hwaiter]
  rw [hafter] at hfirst
  refine ⟨_, ?_, (EventMachine.Run.single hfirst).trans (run_notify s' _)⟩
  rw [List.filterMap_append, filterMap_base, List.filterMap_replicate]
  simp [WaitEvent.base?]

/-- Every step of the machine is made with the loop of its wait as well. -/
theorem run_of_step {s s' : σ} {a : α} {x : List ε} (hstep : M.step s a = some (s', x)) :
    ∃ e, e.filterMap WaitEvent.base? = x ∧ W.machine.Run (idle s) e (idle s') := by
  by_cases hfree : W.free (idle s) a
  · exact run_base hfree rfl (fun _ => rfl) hstep
  · -- the waiting thread leaves without its predicate, so it has reached its timeout
    have hstuck : W.ofWaiter a = true ∧ W.waiting s = true := by
      by_contra hother
      exact hfree fun hwaiter hwaiting => absurd ⟨hwaiter, hwaiting⟩ hother
    obtain ⟨hwaiter, hwaiting⟩ := hstuck
    have hleave := W.ready_of_leave hstep hwaiter hwaiting
    have hready : W.ready s = false := by
      by_contra hready
      rw [Bool.not_eq_false] at hready
      refine hfree fun _ _ => Or.inl ⟨rfl, hready, ?_⟩
      rw [hready] at hleave
      simpa using hleave
    have hlast : W.free { base := s, pos := .lastTest, owed := 0 } a := fun _ _ => Or.inr ⟨rfl, hleave⟩
    obtain ⟨e, hevents, hrun⟩ := run_base hlast rfl (by simp [hwaiter]) hstep
    refine ⟨_, ?_, (run_expire hwaiting hready).trans hrun⟩
    rw [List.filterMap_append, hevents]
    rfl

/-- The loop of the wait takes no behaviour away and adds none. -/
theorem trace_iff {s : σ} {x : List ε} :
    M.Trace x s ↔ ∃ es w, W.machine.Trace es w ∧ w.base = s ∧ es.filterMap WaitEvent.base? = x := by
  constructor
  · intro htrace
    suffices hidle : ∃ es, es.filterMap WaitEvent.base? = x ∧ W.machine.Trace es (idle s) by
      obtain ⟨es, hevents, hes⟩ := hidle
      exact ⟨es, idle s, hes, rfl, hevents⟩
    refine htrace.invariant
      (I := fun x s => ∃ es, es.filterMap WaitEvent.base? = x ∧ W.machine.Trace es (idle s)) ?_ ?_
    · intro s hs
      exact ⟨[], rfl, EventMachine.Trace.initial ⟨hs, rfl, rfl⟩⟩
    · intro x s a s' x' _ hidle hstep
      obtain ⟨es, hevents, hes⟩ := hidle
      obtain ⟨e, hevents', hrun⟩ := run_of_step (W := W) hstep
      exact ⟨es ++ e, by rw [List.filterMap_append, hevents, hevents'], hes.run hrun⟩
  · intro hwait
    obtain ⟨es, w, htrace, rfl, rfl⟩ := hwait
    exact W.projection.trace htrace

/-! ## Lost notifications -/

/-- In these events the waiting thread neither found its predicate false nor blocked. -/
def Quiet (es : List (WaitEvent ε)) : Prop := .tested ∉ es ∧ .blocked ∉ es

/-- The events of the machine itself are none of the wait. -/
theorem Quiet.append_base {es : List (WaitEvent ε)} (h : Quiet es) (x : List ε) : Quiet (es ++ x.map .base) := by
  unfold Quiet at *
  simpa using h

/-- A notification is none of these events either. -/
theorem Quiet.append_notified {es : List (WaitEvent ε)} (h : Quiet es) : Quiet (es ++ [.notified]) := by
  unfold Quiet at *
  simpa using h

/-- Where the predicate holds though its last test failed, a notification is owed, or one was made between the
test and the blocking. -/
structure Sound (W : Wait M) (es : List (WaitEvent ε)) (w : WaitState σ) : Prop where
  waiting : w.pos ≠ .test → W.waiting w.base = true
  blocking : w.pos = .blocking → ∃ pre mid, es = pre ++ .tested :: mid ∧ Quiet mid ∧
    (W.ready w.base = true → 0 < w.owed ∨ .notified ∈ mid)
  blocked : w.pos = .blocked → ∃ pre mid post, es = pre ++ .tested :: mid ++ .blocked :: post ∧
    Quiet mid ∧ Quiet post ∧ (W.ready w.base = true → 0 < w.owed ∨ .notified ∈ mid)

/-- Another thread that makes the predicate true owes a notification from then on. -/
theorem owed_of_ready {s s' : σ} {a : α} {x : List ε} {owed : ℕ} {P : Prop}
    (h : W.ready s = true → 0 < owed ∨ P) (hstep : M.step s a = some (s', x)) (hother : W.ofWaiter a = false)
    (hready : W.ready s' = true) : 0 < owed + x.countP W.notifies ∨ P := by
  cases hbefore : W.ready s with
  | true => exact (h hbefore).imp_left fun howed => Nat.add_pos_left howed _
  | false => exact Or.inl (Nat.add_pos_right _ (W.notifies_of_ready hstep hother hbefore hready))

/-- A step of the machine itself keeps that. -/
theorem Sound.step_base {a : α} {s' : σ} {x : List ε} (hsound : Sound W es w)
    (hstep : M.step w.base a = some (s', x)) : Sound W (es ++ x.map .base) (W.after w a s' x) := by
  unfold after
  cases hwaiter : W.ofWaiter a with
  | true => exact ⟨fun hpos => absurd rfl hpos, fun hpos => by contradiction, fun hpos => by contradiction⟩
  | false =>
    refine ⟨fun hpos => ?_, fun hpos => ?_, fun hpos => ?_⟩
    · exact (W.waiting_of_other hstep hwaiter).trans (hsound.waiting hpos)
    · obtain ⟨pre, mid, rfl, hquiet, howed⟩ := hsound.blocking hpos
      refine ⟨pre, mid ++ x.map .base, by simp, hquiet.append_base x, fun hready => ?_⟩
      exact (owed_of_ready howed hstep hwaiter hready).imp_right fun h => List.mem_append_left _ h
    · obtain ⟨pre, mid, post, rfl, hmid, hpost, howed⟩ := hsound.blocked hpos
      refine ⟨pre, mid, post ++ x.map .base, by simp, hmid, hpost.append_base x, fun hready => ?_⟩
      exact owed_of_ready howed hstep hwaiter hready

/-- Every step keeps that. -/
theorem Sound.step {a : WaitAction α} (hsound : Sound W es w) (h : W.step w a = some (w', e)) :
    Sound W (es ++ e) w' := by
  cases a with
  | base b =>
    obtain ⟨-, s', x, hstep, rfl, rfl⟩ := Wait.step_base h
    exact hsound.step_base hstep
  | test =>
    simp only [Wait.step] at h
    split at h <;> cases h
    case _ htest =>
      refine ⟨fun _ => htest.1, fun _ => ⟨es, [], rfl, ?_, fun hready => ?_⟩, fun hpos => by contradiction⟩
      · simp [Quiet]
      · rw [htest.2.2] at hready
        contradiction
  | block =>
    simp only [Wait.step] at h
    split at h <;> cases h
    case _ hpos =>
      obtain ⟨pre, mid, rfl, hquiet, howed⟩ := hsound.blocking hpos
      refine ⟨fun _ => hsound.waiting (by rw [hpos]; simp), fun hpos => by contradiction, fun _ => ?_⟩
      exact ⟨pre, mid, [], rfl, hquiet, by simp [Quiet], howed⟩
  | notify =>
    simp only [Wait.step] at h
    split at h <;> cases h
    by_cases hblocked : w.pos = .blocked
    · -- the notification reaches the thread
      rw [if_pos hblocked]
      exact ⟨fun hpos => absurd rfl hpos, fun hpos => by contradiction, fun hpos => by contradiction⟩
    · rw [if_neg hblocked]
      refine ⟨hsound.waiting, fun hpos => ?_, fun hpos => absurd hpos hblocked⟩
      obtain ⟨pre, mid, rfl, hquiet, -⟩ := hsound.blocking hpos
      exact ⟨pre, mid ++ [.notified], by simp, hquiet.append_notified, fun _ => Or.inr (by simp)⟩
  | spurious | expire =>
    simp only [Wait.step] at h
    split at h <;> cases h
    case _ hpos =>
      refine ⟨fun _ => hsound.waiting (by rw [hpos]; simp), fun hpos => by contradiction,
        fun hpos => by contradiction⟩

/-- A thread that is blocked though its predicate holds and no notification is owed has missed one, between
its last test and its blocking. -/
theorem missed_of_blocked (h : W.machine.Trace es w) (hpos : w.pos = .blocked) (hready : W.ready w.base = true)
    (howed : w.owed = 0) :
    ∃ pre mid post, es = pre ++ .tested :: mid ++ .blocked :: post ∧ Quiet mid ∧ Quiet post ∧ .notified ∈ mid := by
  have hsound : Sound W es w := by
    refine h.invariant (I := fun es w => Sound W es w) ?_ fun _ hsound hstep => hsound.step hstep
    intro w hinitial
    have htest : w.pos = .test := hinitial.2.1
    exact ⟨fun hpos => absurd htest hpos, fun hpos => by rw [htest] at hpos; contradiction,
      fun hpos => by rw [htest] at hpos; contradiction⟩
  obtain ⟨pre, mid, post, hes, hmid, hpost, hmissed⟩ := hsound.blocked hpos
  refine ⟨pre, mid, post, hes, hmid, hpost, (hmissed hready).resolve_left ?_⟩
  omega

end Wait

end Lib
