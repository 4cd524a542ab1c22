import Trftp.Lib.EventMachine
import Mathlib.Data.List.Basic

/-!
# Handing an item over

One party has an item, and another one is to get it. The other party checks that it has the item, and tells the
first one, which releases it; only then is the item handed over, and not more often than it was checked. The
first party reports at its end whether it has released the item. Checks, confirmations and hand-overs can come
again, as they do where messages are repeated; a release and a report come once.

A system that shows these events in an order that this machine allows gives both sides the same idea of what
has become of the item.
-/

namespace Lib

/-- What can be seen of the two parties. -/
inductive HandoverEvent (α : Type*) where
  /-- the other party has checked that it has this -/
  | verified (item : α)
  /-- the first party knows -/
  | confirmed
  /-- the first party allows the hand-over -/
  | released
  /-- this was handed over -/
  | handedOver (item : α)
  /-- the first party has come to its end, and reports whether it has succeeded -/
  | ended (success : Bool)
  deriving DecidableEq

/-- What has become of the item. -/
structure HandoverState where
  verified : Bool
  confirmed : Bool
  released : Bool
  /-- it was checked, and not handed over since -/
  holding : Bool
  ended : Option Bool
  deriving DecidableEq

namespace Handover

variable {α : Type*} [DecidableEq α]

/-- Nothing has happened. -/
def start : HandoverState := ⟨false, false, false, false, none⟩

/-- What may happen next, and what it changes. -/
def next (item : α) (s : HandoverState) : HandoverEvent α → Option HandoverState
  | .verified item' => if item' = item then some { s with verified := true, holding := true } else none
  | .confirmed => if s.verified then some { s with confirmed := true } else none
  | .released => if s.confirmed ∧ ¬s.released ∧ s.ended = none then some { s with released := true } else none
  | .handedOver item' => if s.released ∧ s.holding ∧ item' = item then some { s with holding := false } else none
  | .ended success =>
    if s.ended = none ∧ success = s.released then some { s with ended := some success } else none

/-- The hand-over of one item. -/
def machine (item : α) : EventMachine HandoverState (HandoverEvent α) (HandoverEvent α) where
  initial s := s = start
  step s x := (next item s x).map fun s' => (s', [x])

/-- It was handed over. -/
def isHandedOver : HandoverEvent α → Bool
  | .handedOver _ => true
  | .verified _ | .confirmed | .released | .ended _ => false

/-- It was checked. -/
def isVerified : HandoverEvent α → Bool
  | .verified _ => true
  | .handedOver _ | .confirmed | .released | .ended _ => false

variable {item : α} {es : List (HandoverEvent α)} {s s' : HandoverState} {x : HandoverEvent α}

/-- What may happen is a step. -/
theorem run_of_next (h : next item s x = some s') : (machine item).Run s [x] s' :=
  EventMachine.Run.single (a := x) (by simp only [machine, h, Option.map_some])

/-- What the state says about the past. -/
structure Inv (es : List (HandoverEvent α)) (s : HandoverState) : Prop where
  count : es.countP isHandedOver + (if s.holding then 1 else 0) ≤ es.countP isVerified
  released : .released ∈ es ↔ s.released = true
  handedOver : ∀ item', .handedOver item' ∈ es → s.released = true
  ended : ∀ success, .ended success ∈ es ↔ s.ended = some success
  agreed : ∀ success, s.ended = some success → success = s.released

/-- Every step keeps it. -/
theorem Inv.step (h : Inv es s) (hnext : next item s x = some s') : Inv (es ++ [x]) s' := by
  cases x with
  | verified item' =>
    rw [next] at hnext
    split_ifs at hnext
    cases hnext
    refine ⟨?_, by simp [h.released], fun item' hmem => ?_, fun success => by simp [h.ended], h.agreed⟩
    · have hcount := h.count
      rw [List.countP_append, List.countP_append]
      simp only [List.countP_cons, List.countP_nil, isHandedOver, isVerified, if_true, Bool.false_eq_true, if_false]
      omega
    · exact h.handedOver item' (by simpa using hmem)
  | confirmed =>
    rw [next] at hnext
    split_ifs at hnext
    cases hnext
    refine ⟨?_, by simp [h.released], fun item' hmem => ?_, fun success => by simp [h.ended], h.agreed⟩
    · simpa [isHandedOver, isVerified] using h.count
    · exact h.handedOver item' (by simpa using hmem)
  | released =>
    rw [next] at hnext
    split_ifs at hnext with hguard
    cases hnext
    refine ⟨?_, by simp, fun _ _ => rfl, fun success => by simp [h.ended], fun success hended => ?_⟩
    · simpa [isHandedOver, isVerified] using h.count
    · rw [hguard.2.2] at hended
      contradiction
  | handedOver item' =>
    rw [next] at hnext
    split_ifs at hnext with hguard
    cases hnext
    refine ⟨?_, by simp [h.released], fun _ _ => hguard.1, fun success => by simp [h.ended], h.agreed⟩
    have hcount := h.count
    rw [if_pos hguard.2.1] at hcount
    rw [List.countP_append, List.countP_append]
    simp only [List.countP_cons, List.countP_nil, isHandedOver, isVerified, if_true, Bool.false_eq_true, if_false]
    omega
  | ended success =>
    rw [next] at hnext
    split_ifs at hnext with hguard
    cases hnext
    refine ⟨?_, by simp [h.released], fun item' hmem => ?_, fun success' => ?_, fun success' hended => ?_⟩
    · simpa [isHandedOver, isVerified] using h.count
    · exact h.handedOver item' (by simpa using hmem)
    · have hnone := h.ended success'
      rw [hguard.1] at hnone
      simp [hnone, eq_comm]
    · cases hended
      exact hguard.2

/-- It holds after every run. -/
theorem inv_of_trace (h : (machine item).Trace es s) : Inv es s := by
  refine h.invariant (fun s hstart => ?_) fun {es s x s' e} _ hinv hstep => ?_
  · cases hstart
    exact ⟨Nat.le_refl 0, by simp [start], by simp, by simp [start], by simp [start]⟩
  · obtain ⟨s₁, hnext, heq⟩ := Option.map_eq_some_iff.mp hstep
    cases heq
    exact hinv.step hnext

/-- Nothing is handed over that was not checked before. -/
theorem handedOver_le (h : (machine item).Trace es s) : es.countP isHandedOver ≤ es.countP isVerified :=
  Nat.le_trans (Nat.le_add_right _ _) (inv_of_trace h).count

/-- What was handed over is not reported as a failure, before or behind. -/
theorem ended_of_handedOver (h : (machine item).Trace es s) {item' : α} {success : Bool}
    (hmem : .handedOver item' ∈ es) (hended : .ended success ∈ es) : success = true := by
  have hinv := inv_of_trace h
  rw [hinv.agreed success ((hinv.ended success).mp hended)]
  exact hinv.handedOver item' hmem

end Handover

end Lib
