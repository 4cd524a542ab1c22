import Trftp.Lib.Crc

/-!
# Single bits in a shift register

The register is linear, so whether it tells two messages of one length apart depends only on the bits
in which they differ. One such bit is never lost. Two of them cancel only if the clocks between them
bring the register with a single low bit back to itself, so a generator whose first return comes later
than a message is long detects every error of one or two bits in it.
-/

namespace Lib

namespace Crc

variable {w : ℕ}

/-- The bits in which two messages differ. -/
def difference (bits bits' : List Bool) : List Bool := List.zipWith xor bits bits'

/-- In how many bits two messages differ. -/
def flips (bits bits' : List Bool) : ℕ := (difference bits bits').count true

/-- Messages one behind the other differ where their parts do. -/
theorem flips_append {front front' back back' : List Bool} (hlen : front.length = front'.length) :
    flips (front ++ back) (front' ++ back') = flips front front' + flips back back' := by
  unfold flips difference
  rw [List.zipWith_append hlen, List.count_append]

/-- A message does not differ from itself. -/
@[simp] theorem flips_self (bits : List Bool) : flips bits bits = 0 := by
  have hsame : difference bits bits = List.replicate bits.length false := by
    rw [difference, List.zipWith_self, ← List.map_const']
    simp
  rw [flips, hsame, List.count_replicate]
  rfl

/-- Messages of one length that differ in no bit are the same. -/
theorem eq_of_flips_eq_zero {bits bits' : List Bool} (hlen : bits.length = bits'.length)
    (h : flips bits bits' = 0) : bits = bits' := by
  induction bits generalizing bits' with
  | nil => exact (List.length_eq_zero_iff.mp hlen.symm).symm
  | cons bit bits ih =>
    cases bits' with
    | nil => simp at hlen
    | cons bit' bits' =>
      have hlone : [bit].length = [bit'].length := rfl
      have hcount : flips [bit] [bit'] + flips bits bits' = 0 := (flips_append hlone).symm.trans h
      have hrest := ih (Nat.succ.inj hlen) (Nat.eq_zero_of_add_eq_zero_left hcount)
      have hbit : flips [bit] [bit'] = 0 := Nat.eq_zero_of_add_eq_zero_right hcount
      rw [hrest]
      cases bit <;> cases bit' <;> simp_all [flips, difference]

/-- A clock with input is linear. -/
theorem feed_xor (generator s s' : BitVec w) (bit bit' : Bool) :
    feed generator (s ^^^ s') (xor bit bit') = feed generator s bit ^^^ feed generator s' bit' := by
  have hbit : lowBit w (xor bit bit') = lowBit w bit ^^^ lowBit w bit' := by
    apply BitVec.eq_of_getLsbD_eq
    intro i _
    simp only [BitVec.getLsbD_xor, getLsbD_lowBit]
    cases bit <;> cases bit' <;> simp
  unfold feed
  rw [← shift_xor, hbit]
  congr 1
  ac_rfl

/-- The register is linear in its contents and the message. -/
theorem run_xor (generator s s' : BitVec w) {bits bits' : List Bool} (hlen : bits.length = bits'.length) :
    run generator (s ^^^ s') (difference bits bits') = run generator s bits ^^^ run generator s' bits' := by
  induction bits generalizing s s' bits' with
  | nil =>
    cases bits' with
    | nil => rfl
    | cons => simp at hlen
  | cons bit bits ih =>
    cases bits' with
    | nil => simp at hlen
    | cons bit' bits' =>
      have hrest := ih (feed generator s bit) (feed generator s' bit') (Nat.succ.inj hlen)
      rw [← feed_xor] at hrest
      exact hrest

/-- Without input the register only clocks. -/
theorem run_replicate (generator s : BitVec w) (n : ℕ) :
    run generator s (List.replicate n false) = (shift generator)^[n] s := by
  induction n generalizing s with
  | zero => rfl
  | succ n ih =>
    have hfeed : feed generator s false = shift generator s := by
      have hzero : lowBit w false = 0 := BitVec.eq_of_getLsbD_eq fun i _ => by simp
      rw [feed, hzero]
      exact congrArg (shift generator) BitVec.xor_zero
    rw [List.replicate_succ, Function.iterate_succ_apply, ← ih, ← hfeed]
    rfl

/-- An empty register stays empty. -/
theorem iterate_shift_zero (generator : BitVec w) (n : ℕ) : (shift generator)^[n] 0 = 0 := by
  have hdouble := iterate_shift_xor generator 0 0 n
  rw [BitVec.xor_self, BitVec.xor_self] at hdouble
  exact hdouble

/-- The place of the first bit that is set. -/
theorem exists_first {bits : List Bool} {n : ℕ} (h : bits.count true = n + 1) :
    ∃ k rest, bits = List.replicate k false ++ true :: rest ∧ rest.count true = n := by
  induction bits with
  | nil => simp at h
  | cons bit bits ih =>
    cases bit with
    | true => exact ⟨0, bits, rfl, by simpa using h⟩
    | false =>
      obtain ⟨k, rest, rfl, hrest⟩ := ih (by simpa using h)
      exact ⟨k + 1, rest, rfl, hrest⟩

/-- Bits none of which is set. -/
theorem eq_replicate_of_count {bits : List Bool} (h : bits.count true = 0) :
    bits = List.replicate bits.length false := by
  rw [List.eq_replicate_iff]
  refine ⟨rfl, fun bit hbit => ?_⟩
  rw [List.count_eq_zero] at h
  cases bit with
  | false => rfl
  | true => exact absurd hbit h

/-- The single low bit does not come back to itself within this many clocks. -/
def Apart (generator : BitVec w) (n : ℕ) : Prop :=
  ∀ k, 0 < k → k < n → (shift generator)^[k] (lowBit w true) ≠ lowBit w true

/-- One or two bits leave something in the register. -/
theorem run_ne_zero {generator : BitVec w} (hw : 0 < w) (hhigh : generator.getLsbD (w - 1) = true)
    {bits : List Bool} (hapart : Apart generator bits.length) (hsome : 0 < bits.count true)
    (htwo : bits.count true ≤ 2) : run generator 0 bits ≠ 0 := by
  have hkeep : ∀ (n : ℕ) (s : BitVec w), s ≠ 0 → (shift generator)^[n] s ≠ 0 := by
    intro n s hs hzero
    exact hs ((shift_injective hhigh).iterate n (hzero.trans (iterate_shift_zero generator n).symm))
  have hlow : lowBit w true ≠ 0 := by
    intro hzero
    have hbit : (lowBit w true).getLsbD 0 = (0 : BitVec w).getLsbD 0 := by rw [hzero]
    rw [getLsbD_lowBit] at hbit
    simp [hw] at hbit
  -- the first bit is taken in, with nothing in the register before it
  obtain ⟨n, hn⟩ : ∃ n, bits.count true = n + 1 := ⟨bits.count true - 1, by omega⟩
  obtain ⟨k, rest, rfl, hrest⟩ := exists_first hn
  have hfirst : run generator 0 (List.replicate k false ++ true :: rest) =
      run generator (shift generator (lowBit w true)) rest := by
    have hfeed : feed generator 0 true = shift generator (lowBit w true) :=
      congrArg (shift generator) BitVec.zero_xor
    rw [run_append, run_replicate, iterate_shift_zero, run, List.foldl_cons, ← run, hfeed]
  rw [hfirst]
  cases n with
  | zero =>
    rw [eq_replicate_of_count hrest, run_replicate, ← Function.iterate_succ_apply]
    exact hkeep _ _ hlow
  | succ m =>
    obtain ⟨k', rest', rfl, hrest'⟩ := exists_first hrest
    have hnone : rest'.count true = 0 := by omega
    have hsecond : run generator (shift generator (lowBit w true)) (List.replicate k' false ++ true :: rest') =
        (shift generator)^[rest'.length] (shift generator
          ((shift generator)^[k' + 1] (lowBit w true) ^^^ lowBit w true)) := by
      rw [run_append, run_replicate, run, List.foldl_cons, ← run, eq_replicate_of_count hnone, run_replicate,
        ← Function.iterate_succ_apply, List.length_replicate, feed]
    rw [hsecond, ← Function.iterate_succ_apply]
    refine hkeep _ _ fun hcancel => hapart (k' + 1) (Nat.succ_pos k') ?_ (BitVec.xor_eq_zero_iff.mp hcancel)
    simp only [List.length_append, List.length_replicate, List.length_cons]
    omega

/-- Messages that differ in one or two bits leave different registers. -/
theorem run_of_flips {generator : BitVec w} (hw : 0 < w) (hhigh : generator.getLsbD (w - 1) = true) (s : BitVec w)
    {bits bits' : List Bool} (hlen : bits.length = bits'.length) (hapart : Apart generator bits.length)
    (htwo : flips bits bits' ≤ 2) (h : run generator s bits = run generator s bits') : bits = bits' := by
  apply eq_of_flips_eq_zero hlen
  by_contra hsome
  have hdifference : (difference bits bits').length = bits.length := by
    rw [difference, List.length_zipWith, ← hlen, Nat.min_self]
  refine run_ne_zero hw hhigh (hdifference.symm ▸ hapart) (Nat.pos_of_ne_zero hsome) htwo ?_
  have hrun := run_xor generator s s hlen
  rw [BitVec.xor_self, h, BitVec.xor_self] at hrun
  exact hrun

/-- Clock the register and compare, this many times. -/
def staysApart (generator : BitVec w) : ℕ → BitVec w → Bool
  | 0, _ => true
  | n + 1, s =>
    forced BitVec.toNat (BitVec.ofNat w) (shift generator s) fun s =>
      !decide (s = lowBit w true) && staysApart generator n s

/-- The comparisons decide when the low bit comes back. -/
theorem staysApart_iff (generator s : BitVec w) (n : ℕ) :
    staysApart generator n s = true ↔ ∀ k, 0 < k → k ≤ n → (shift generator)^[k] s ≠ lowBit w true := by
  induction n generalizing s with
  | zero => exact ⟨fun _ k hpos hle => by omega, fun _ => rfl⟩
  | succ n ih =>
    have hback : ∀ value : BitVec w, BitVec.ofNat w value.toNat = value := fun _ => by simp
    simp only [staysApart, forced_eq hback, Bool.and_eq_true, Bool.not_eq_true', decide_eq_false_iff_not, ih]
    constructor
    · intro h k hpos hle
      obtain ⟨j, rfl⟩ : ∃ j, k = j + 1 := ⟨k - 1, by omega⟩
      rw [Function.iterate_succ_apply]
      by_cases hj : j = 0
      · rw [hj]
        exact h.1
      · exact h.2 j (by omega) (by omega)
    · intro h
      refine ⟨h 1 Nat.one_pos (by omega), fun k hpos hle => ?_⟩
      rw [← Function.iterate_succ_apply]
      exact h (k + 1) (by omega) (by omega)

end Crc

end Lib
