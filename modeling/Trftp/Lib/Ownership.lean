import Mathlib.Logic.Function.Basic

/-!
# Resources and their owners

A resource is in use or not, and an owner holds one or none. The names of resources are used again: one that
was given back may be handed out to somebody else. What makes that safe is that the resources in use are
exactly those that are held, each by one owner: an owner that uses or gives back what it holds never meets
the resource of another one.
-/

namespace Lib

/-- The resources in use are those that are held, and each has one owner. -/
structure Owned {ρ o : Type*} (used : ρ → Bool) (holds : o → Option ρ) : Prop where
  used_iff : ∀ r, used r = true ↔ ∃ i, holds i = some r
  unique : ∀ {i j r}, holds i = some r → holds j = some r → i = j

namespace Owned

variable {ρ o : Type*} {used : ρ → Bool} {holds : o → Option ρ}

/-- Nothing is in use, and nothing is held. -/
theorem none : Owned (fun _ : ρ => false) (fun _ : o => .none) := by
  constructor
  · intro r
    simp
  · intro i j r hi
    contradiction

/-- What is held is in use. -/
theorem used_of_holds (h : Owned used holds) {i : o} {r : ρ} (hi : holds i = some r) : used r = true :=
  (h.used_iff r).mpr ⟨i, hi⟩

/-- Each resource in use has exactly one owner. -/
theorem existsUnique (h : Owned used holds) (r : ρ) : used r = true ↔ ∃! i, holds i = some r := by
  rw [h.used_iff]
  constructor
  · intro hheld
    obtain ⟨i, hi⟩ := hheld
    exact ⟨i, hi, fun j hj => h.unique hj hi⟩
  · exact fun hheld => hheld.exists

variable [DecidableEq ρ] [DecidableEq o]

/-- An owner that holds nothing gets a resource that is not in use. -/
theorem acquire (h : Owned used holds) {i : o} {r : ρ} (hfree : used r = false) (hnone : holds i = .none) :
    Owned (Function.update used r true) (Function.update holds i (some r)) := by
  have hnobody (j : o) : holds j ≠ some r := by
    intro hj
    rw [h.used_of_holds hj] at hfree
    contradiction
  constructor
  · intro r'
    by_cases hr : r' = r
    · subst hr
      rw [Function.update_self]
      exact ⟨fun _ => ⟨i, Function.update_self ..⟩, fun _ => rfl⟩
    · rw [Function.update_of_ne hr, h.used_iff]
      constructor
      · intro hheld
        obtain ⟨j, hj⟩ := hheld
        refine ⟨j, ?_⟩
        rw [Function.update_of_ne, hj]
        intro hsame
        rw [hsame, hnone] at hj
        contradiction
      · intro hheld
        obtain ⟨j, hj⟩ := hheld
        by_cases hsame : j = i
        · rw [hsame, Function.update_self, Option.some.injEq] at hj
          exact absurd hj.symm hr
        · rw [Function.update_of_ne hsame] at hj
          exact ⟨j, hj⟩
  · intro j k r' hj hk
    by_cases hji : j = i <;> by_cases hki : k = i
    · rw [hji, hki]
    · rw [hji, Function.update_self] at hj
      rw [Function.update_of_ne hki, ← hj] at hk
      exact absurd hk (hnobody k)
    · rw [hki, Function.update_self] at hk
      rw [Function.update_of_ne hji, ← hk] at hj
      exact absurd hj (hnobody j)
    · rw [Function.update_of_ne hji] at hj
      rw [Function.update_of_ne hki] at hk
      exact h.unique hj hk

/-- An owner gives back what it holds. -/
theorem release (h : Owned used holds) {i : o} {r : ρ} (hi : holds i = some r) :
    Owned (Function.update used r false) (Function.update holds i .none) := by
  constructor
  · intro r'
    by_cases hr : r' = r
    · subst hr
      rw [Function.update_self]
      refine ⟨fun hfalse => by contradiction, fun hheld => ?_⟩
      obtain ⟨j, hj⟩ := hheld
      by_cases hsame : j = i
      · rw [hsame, Function.update_self] at hj
        contradiction
      · rw [Function.update_of_ne hsame] at hj
        exact absurd (h.unique hj hi) hsame
    · rw [Function.update_of_ne hr, h.used_iff]
      constructor
      · intro hheld
        obtain ⟨j, hj⟩ := hheld
        refine ⟨j, ?_⟩
        rw [Function.update_of_ne, hj]
        intro hsame
        rw [hsame, hi, Option.some.injEq] at hj
        exact hr hj.symm
      · intro hheld
        obtain ⟨j, hj⟩ := hheld
        by_cases hsame : j = i
        · rw [hsame, Function.update_self] at hj
          contradiction
        · rw [Function.update_of_ne hsame] at hj
          exact ⟨j, hj⟩
  · intro j k r' hj hk
    by_cases hji : j = i
    · rw [hji, Function.update_self] at hj
      contradiction
    · by_cases hki : k = i
      · rw [hki, Function.update_self] at hk
        contradiction
      · rw [Function.update_of_ne hji] at hj
        rw [Function.update_of_ne hki] at hk
        exact h.unique hj hk

end Owned

end Lib
