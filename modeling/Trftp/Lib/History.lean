import Mathlib.Data.List.Forall2
import Mathlib.Data.List.Infix

/-!
# Statements about the past

A trace is a list of events, oldest first. Two kinds of statements come up: that certain
events occurred in a certain order, and that every event of a kind was preceded by what it
needs. Both are kept while the trace grows.
-/

namespace Lib

/-- Events satisfying the given predicates occur in a trace in the given order. -/
def InOrder {ε : Type*} (ps : List (ε → Prop)) (es : List ε) : Prop :=
  ∃ xs, xs.Sublist es ∧ List.Forall₂ (fun p x => p x) ps xs

/-- Nothing is asked of an empty order. -/
theorem InOrder.nil {ε : Type*} (es : List ε) : InOrder [] es := ⟨[], List.nil_sublist es, .nil⟩

/-- What occurred is an order of one. -/
theorem InOrder.single {ε : Type*} {es : List ε} {p : ε → Prop} {x : ε} (hmem : x ∈ es) (hx : p x) :
    InOrder [p] es := ⟨[x], List.singleton_sublist.mpr hmem, .cons hx .nil⟩

/-- What occurred in order stays so as the trace grows. -/
theorem InOrder.append {ε : Type*} {ps : List (ε → Prop)} {es : List ε} (h : InOrder ps es)
    (es' : List ε) : InOrder ps (es ++ es') :=
  let ⟨xs, hsub, hall⟩ := h
  ⟨xs, hsub.trans (List.sublist_append_left es es'), hall⟩

/-- A new event extends the order by one. -/
theorem InOrder.snoc {ε : Type*} {ps : List (ε → Prop)} {es : List ε} (h : InOrder ps es)
    {p : ε → Prop} {x : ε} (hx : p x) : InOrder (ps ++ [p]) (es ++ [x]) :=
  let ⟨xs, hsub, hall⟩ := h
  ⟨xs ++ [x], hsub.append (List.Sublist.refl [x]), List.rel_append hall (.cons hx .nil)⟩

/-- An order holds behind the events that cannot be its first one. -/
theorem InOrder.skip {ε : Type*} {p : ε → Prop} {ps : List (ε → Prop)} {es es' : List ε}
    (h : InOrder (p :: ps) (es ++ es')) (hnone : ∀ x ∈ es, ¬p x) : InOrder (p :: ps) es' := by
  obtain ⟨xs, hsub, hall⟩ := h
  obtain ⟨front, back, rfl, hfront, hback⟩ := List.sublist_append_iff.mp hsub
  cases front with
  | nil => exact ⟨back, hback, hall⟩
  | cons x front =>
    cases hall with
    | cons hx _ => exact absurd hx (hnone x (hfront.subset List.mem_cons_self))

/-- Whatever is in an order has occurred. -/
theorem InOrder.exists_mem {ε : Type*} {ps : List (ε → Prop)} {es : List ε} (h : InOrder ps es)
    {p : ε → Prop} (hp : p ∈ ps) : ∃ x ∈ es, p x := by
  obtain ⟨xs, hsub, hall⟩ := h
  obtain ⟨x, hx, hpx⟩ : ∃ x ∈ xs, p x := by
    clear hsub
    induction hall with
    | nil => cases hp
    | @cons q y ps xs hy _ ih =>
      rcases List.mem_cons.mp hp with rfl | hmem
      · exact ⟨y, List.mem_cons_self, hy⟩
      · obtain ⟨x, hx, hpx⟩ := ih hmem
        exact ⟨x, List.mem_cons_of_mem y hx, hpx⟩
  exact ⟨x, hsub.subset hx, hpx⟩

/-- Every event of a trace stands in the given relation to the events before it. -/
def EachWithPast {ε : Type*} (P : List ε → ε → Prop) (es : List ε) : Prop :=
  ∀ pre x post, es = pre ++ x :: post → P pre x

namespace EachWithPast

variable {ε : Type*} {P : List ε → ε → Prop} {es e : List ε}

/-- An empty trace has no event. -/
theorem nil : EachWithPast P [] := fun pre x post h => by simp at h

/-- The first event has no past; the others have it in their past. -/
theorem cons {x : ε} (hx : P [] x) (h : EachWithPast (fun pre y => P (x :: pre) y) es) :
    EachWithPast P (x :: es) := by
  rintro (_ | ⟨z, pre⟩) y post heq
  · simp only [List.nil_append, List.cons.injEq] at heq
    exact heq.1 ▸ hx
  · simp only [List.cons_append, List.cons.injEq] at heq
    exact heq.1 ▸ h pre y post heq.2

/-- A trace that grows: the new events have the old ones in their past. -/
theorem append (h : EachWithPast P es) (h' : EachWithPast (fun pre x => P (es ++ pre) x) e) :
    EachWithPast P (es ++ e) := by
  intro pre x post heq
  rcases List.append_eq_append_iff.mp heq with ⟨mid, rfl, hrest⟩ | ⟨mid, rfl, hrest⟩
  · exact h' mid x post hrest
  · cases mid with
    | nil =>
      simp only [List.nil_append] at hrest
      simpa using h' [] x post hrest.symm
    | cons y mid =>
      simp only [List.cons_append, List.cons.injEq] at hrest
      obtain ⟨rfl, rfl⟩ := hrest
      exact h pre x mid rfl

/-- A trace that grows by one event. -/
theorem snoc (h : EachWithPast P es) {x : ε} (hx : P es x) : EachWithPast P (es ++ [x]) :=
  h.append (cons (by simpa using hx) nil)

/-- Events of which nothing is asked. -/
theorem of_forall (h : ∀ pre, ∀ x ∈ es, P pre x) : EachWithPast P es := by
  rintro pre x post rfl
  exact h pre x (by simp)

end EachWithPast

end Lib
