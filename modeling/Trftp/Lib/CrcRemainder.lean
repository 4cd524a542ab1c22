import Trftp.Lib.Crc
import Mathlib

/-!
# A cyclic redundancy check is a remainder

Bits are the coefficients of a polynomial over the field of two elements. In the reflected form the
low end of the register holds the highest coefficient. A clock multiplies by `X` and subtracts the
generator if its leading term has appeared, so the register holds the remainder of the message,
moved up by the width of the register, and of what the register held before.
-/

namespace Lib

namespace Crc

open Polynomial

variable {w : ℕ}

/-- The polynomial in a register. -/
noncomputable def poly (s : BitVec w) : (ZMod 2)[X] :=
  ∑ i ∈ Finset.range w, if s.getLsbD i then X ^ (w - 1 - i) else 0

/-- The generator with its leading term. -/
noncomputable def generatorPoly (generator : BitVec w) : (ZMod 2)[X] := X ^ w + poly generator

/-- The polynomial of a message, whose first bit is the highest coefficient. -/
noncomputable def message : List Bool → (ZMod 2)[X]
  | [] => 0
  | bit :: bits => (if bit then X ^ bits.length else 0) + message bits

/-- Over two elements, what is added twice vanishes. -/
theorem add_add_self (p q : (ZMod 2)[X]) : p + q + q = p := by
  rw [add_assoc, CharTwo.add_self_eq_zero, add_zero]

/-- Registers are added bit by bit. -/
theorem poly_xor (s s' : BitVec w) : poly (s ^^^ s') = poly s + poly s' := by
  unfold poly
  rw [← Finset.sum_add_distrib]
  apply Finset.sum_congr rfl
  intro i _
  rw [BitVec.getLsbD_xor]
  cases s.getLsbD i <;> cases s'.getLsbD i <;> simp [CharTwo.add_self_eq_zero]

/-- A register holds a polynomial of lower degree than its width. -/
theorem degree_poly_lt (s : BitVec w) : (poly s).degree < w := by
  rw [← mem_degreeLT]
  apply Submodule.sum_mem
  intro i hi
  rw [mem_degreeLT]
  split_ifs
  · rw [degree_X_pow]
    have hlt := Finset.mem_range.mp hi
    exact_mod_cast (show w - 1 - i < w by omega)
  · rw [degree_zero]
    exact WithBot.bot_lt_coe w

/-- The generator is monic. -/
theorem monic_generatorPoly (generator : BitVec w) : (generatorPoly generator).Monic :=
  monic_X_pow_add (degree_poly_lt generator)

/-- Its degree is the width of the register. -/
theorem degree_generatorPoly (generator : BitVec w) : (generatorPoly generator).degree = w := by
  have hlt : (poly generator).degree < (X ^ w : (ZMod 2)[X]).degree := by
    rw [degree_X_pow]
    exact degree_poly_lt generator
  rw [generatorPoly, degree_add_eq_left_of_degree_lt hlt, degree_X_pow]

/-- An input bit is the highest coefficient. -/
theorem poly_lowBit (hw : 0 < w) (bit : Bool) : poly (lowBit w bit) = if bit then X ^ (w - 1) else 0 := by
  unfold poly
  rw [Finset.sum_eq_single_of_mem 0 (Finset.mem_range.mpr hw)]
  · rw [getLsbD_lowBit]
    simp [hw]
  · intro i _ hne
    rw [getLsbD_lowBit]
    simp [hne]

/-- Moving down is multiplying by `X`, up to the term that leaves the register. -/
theorem poly_shiftRight (s : BitVec w) :
    poly (s >>> 1) + (if s.getLsbD 0 then X ^ w else 0) = X * poly s := by
  cases w with
  | zero => simp [poly]
  | succ n =>
    unfold poly
    rw [Finset.sum_range_succ, Finset.mul_sum, Finset.sum_range_succ']
    have hlast : (s >>> 1).getLsbD n = false := by simp
    have hfirst : X * (if s.getLsbD 0 = true then X ^ (n + 1 - 1 - 0) else 0) =
        if s.getLsbD 0 = true then (X : (ZMod 2)[X]) ^ (n + 1) else 0 := by
      rw [mul_ite, mul_zero, Nat.add_sub_cancel, Nat.sub_zero, pow_succ']
    rw [hlast, hfirst, if_neg (by simp), add_zero]
    congr 1
    apply Finset.sum_congr rfl
    intro i hi
    have hlt := Finset.mem_range.mp hi
    rw [BitVec.getLsbD_ushiftRight, Nat.add_comm 1 i, mul_ite, mul_zero, ← pow_succ',
      show n + 1 - 1 - (i + 1) + 1 = n + 1 - 1 - i by omega]

/-- A clock multiplies by `X` and subtracts the generator if its leading term has appeared. -/
theorem poly_shift (generator s : BitVec w) :
    poly (shift generator s) = X * poly s + if s.getLsbD 0 then generatorPoly generator else 0 := by
  have hmoved := poly_shiftRight s
  unfold shift
  by_cases hlow : s.getLsbD 0 = true
  · rw [if_pos hlow] at hmoved ⊢
    rw [if_pos hlow, poly_xor, ← hmoved, generatorPoly, ← add_assoc, add_add_self]
  · rw [if_neg hlow] at hmoved ⊢
    rw [if_neg hlow, ← hmoved]
    rw [add_zero, add_zero]

/-- The register differs from the message and its own first contents by a multiple of the generator. -/
theorem poly_run (hw : 0 < w) (generator s : BitVec w) (bits : List Bool) :
    ∃ q, poly (run generator s bits) + generatorPoly generator * q =
      X ^ bits.length * poly s + X ^ w * message bits := by
  induction bits generalizing s with
  | nil => exact ⟨0, by simp [run, message]⟩
  | cons bit bits ih =>
    obtain ⟨q, hq⟩ := ih (feed generator s bit)
    have hfed : X * (if bit = true then (X : (ZMod 2)[X]) ^ (w - 1) else 0) = if bit = true then X ^ w else 0 := by
      rw [mul_ite, mul_zero, ← pow_succ', Nat.sub_add_cancel hw]
    have hclock : ∃ d, poly (feed generator s bit) =
        X * poly s + (if bit = true then X ^ w else 0) + generatorPoly generator * d := by
      rw [feed, poly_shift, poly_xor, poly_lowBit hw, mul_add, hfed]
      by_cases hlow : (s ^^^ lowBit w bit).getLsbD 0 = true
      · exact ⟨1, by rw [if_pos hlow, mul_one]⟩
      · exact ⟨0, by rw [if_neg hlow, mul_zero]⟩
    obtain ⟨d, hd⟩ := hclock
    rw [hd] at hq
    have hplace : (X : (ZMod 2)[X]) ^ bits.length * (if bit = true then X ^ w else 0) =
        X ^ w * if bit = true then X ^ bits.length else 0 := by
      rw [mul_ite, mul_ite, mul_zero, mul_zero, mul_comm]
    refine ⟨q + X ^ bits.length * d, ?_⟩
    calc poly (run generator s (bit :: bits)) + generatorPoly generator * (q + X ^ bits.length * d)
        = (poly (run generator (feed generator s bit) bits) + generatorPoly generator * q) +
            X ^ bits.length * generatorPoly generator * d := by
          rw [run, List.foldl_cons, ← run]
          ring
      _ = X ^ (bits.length + 1) * poly s + X ^ bits.length * (if bit = true then X ^ w else 0) +
            X ^ w * message bits + X ^ bits.length * generatorPoly generator * d +
            X ^ bits.length * generatorPoly generator * d := by
          rw [hq]
          ring
      _ = X ^ (bits.length + 1) * poly s + X ^ w * message (bit :: bits) := by
          rw [add_add_self, hplace, message]
          ring

/-- The register holds a remainder. -/
theorem poly_run_eq_modByMonic (hw : 0 < w) (generator s : BitVec w) (bits : List Bool) :
    poly (run generator s bits) =
      (X ^ bits.length * poly s + X ^ w * message bits) %ₘ generatorPoly generator := by
  obtain ⟨q, hq⟩ := poly_run hw generator s bits
  have hdegree : (poly (run generator s bits)).degree < (generatorPoly generator).degree := by
    rw [degree_generatorPoly]
    exact degree_poly_lt _
  exact ((div_modByMonic_unique q _ (monic_generatorPoly generator) ⟨hq, hdegree⟩).2).symm

end Crc

end Lib
