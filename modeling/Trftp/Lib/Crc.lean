import Mathlib.Data.List.Induction
import Mathlib.Logic.Function.Iterate

/-!
# Cyclic redundancy checks by a shift register

The register takes the bits of a message one by one, each at its low end, and moves down by one
place per bit; a bit that leaves the register feeds back the generator. This is the reflected
form, in which the low bit of a byte comes first.

A clock of the register is linear, and injective as soon as the generator has its highest bit. A
block that is not longer than the register can therefore be taken in before the clocks, and
messages that differ only within such a block leave different registers.
-/

namespace Lib

/-- Go on with a value that has been computed. It is `k value`; the match makes the evaluation of many steps
keep one number and not the steps that lead to it. -/
def forced {α β : Type*} (toNat : β → ℕ) (ofNat : ℕ → β) (value : β) (k : β → α) : α :=
  match toNat value with
  | 0 => k (ofNat 0)
  | n + 1 => k (ofNat (n + 1))

/-- Computing a value first changes nothing. -/
theorem forced_eq {α β : Type*} {toNat : β → ℕ} {ofNat : ℕ → β} (h : ∀ value, ofNat (toNat value) = value)
    (value : β) (k : β → α) : forced toNat ofNat value k = k value := by
  unfold forced
  split
  · rename_i hzero
    rw [← hzero, h]
  · rename_i n hsucc
    rw [← Nat.succ_eq_add_one, ← hsucc, h]

namespace Crc

variable {w : ℕ}

/-- One clock of the register without input. The generator is given without its leading term. -/
def shift (generator s : BitVec w) : BitVec w :=
  if s.getLsbD 0 then (s >>> 1) ^^^ generator else s >>> 1

/-- A bit at the low end. -/
def lowBit (w : ℕ) (bit : Bool) : BitVec w := (BitVec.ofBool bit).setWidth w

/-- One clock of the register with an input bit. -/
def feed (generator s : BitVec w) (bit : Bool) : BitVec w := shift generator (s ^^^ lowBit w bit)

/-- The register after a message. -/
def run (generator s : BitVec w) (bits : List Bool) : BitVec w := bits.foldl (feed generator) s

/-- A block of bits as the contents of a register, the first one at the low end. -/
def pack (w : ℕ) (bits : List Bool) : BitVec w := (BitVec.ofBoolListLE bits).setWidth w

@[simp] theorem getLsbD_lowBit (bit : Bool) (i : ℕ) :
    (lowBit w bit).getLsbD i = (decide (i < w) && decide (i = 0) && bit) := by
  simp [lowBit, BitVec.getLsbD_ofBool, Bool.and_assoc]

@[simp] theorem getLsbD_pack (bits : List Bool) (i : ℕ) :
    (pack w bits).getLsbD i = (decide (i < w) && bits.getD i false) := by
  simp [pack]

/-- Which bits a clock leaves behind. -/
theorem getLsbD_shift (generator s : BitVec w) (i : ℕ) :
    (shift generator s).getLsbD i = (s.getLsbD (i + 1) ^^ (s.getLsbD 0 && generator.getLsbD i)) := by
  unfold shift
  cases s.getLsbD 0 <;> simp [Nat.add_comm 1 i]

/-- A clock is linear. -/
theorem shift_xor (generator s s' : BitVec w) :
    shift generator (s ^^^ s') = shift generator s ^^^ shift generator s' := by
  apply BitVec.eq_of_getLsbD_eq
  intro i _
  simp only [getLsbD_shift, BitVec.getLsbD_xor]
  cases s.getLsbD 0 <;> cases s'.getLsbD 0 <;> simp [Bool.xor_comm, Bool.xor_left_comm]

/-- A clock loses nothing if the generator has its highest bit: that bit shows what fed it back. -/
theorem shift_injective {generator : BitVec w} (hhigh : generator.getLsbD (w - 1) = true) :
    Function.Injective (shift generator) := by
  intro s s' heq
  have hbit (i : ℕ) : (s.getLsbD (i + 1) ^^ (s.getLsbD 0 && generator.getLsbD i)) =
      (s'.getLsbD (i + 1) ^^ (s'.getLsbD 0 && generator.getLsbD i)) := by
    rw [← getLsbD_shift, ← getLsbD_shift, heq]
  have hlow : s.getLsbD 0 = s'.getLsbD 0 := by
    have htop := hbit (w - 1)
    have hge : w ≤ w - 1 + 1 := by omega
    rw [BitVec.getLsbD_of_ge s _ hge, BitVec.getLsbD_of_ge s' _ hge, hhigh] at htop
    simpa using htop
  apply BitVec.eq_of_getLsbD_eq
  intro i _
  cases i with
  | zero => exact hlow
  | succ i =>
    have hnext := hbit i
    rw [hlow] at hnext
    exact Bool.xor_left_inj.mp hnext

/-- Clocks are linear. -/
theorem iterate_shift_xor (generator s s' : BitVec w) (n : ℕ) :
    (shift generator)^[n] (s ^^^ s') = (shift generator)^[n] s ^^^ (shift generator)^[n] s' := by
  induction n with
  | zero => rfl
  | succ n ih => rw [Function.iterate_succ_apply', Function.iterate_succ_apply',
      Function.iterate_succ_apply', ih, shift_xor]

/-- What does not reach the low end only moves down. -/
theorem iterate_shift_of_low (generator s : BitVec w) (n : ℕ) (hclear : ∀ i < n, s.getLsbD i = false) :
    (shift generator)^[n] s = s >>> n := by
  induction n with
  | zero => simp
  | succ n ih =>
    have hmoved := ih fun i hi => hclear i (by omega)
    have hlow : (s >>> n).getLsbD 0 = false := by simpa using hclear n (by omega)
    rw [Function.iterate_succ_apply', hmoved, shift, hlow, BitVec.shiftRight_add]
    rfl

/-- A message goes in piece by piece. -/
theorem run_append (generator s : BitVec w) (front back : List Bool) :
    run generator s (front ++ back) = run generator (run generator s front) back := List.foldl_append

/-- A block that is not longer than the register can be taken in at once. -/
theorem run_eq_iterate (generator s : BitVec w) {bits : List Bool} (hlen : bits.length ≤ w) :
    run generator s bits = (shift generator)^[bits.length] (s ^^^ pack w bits) := by
  induction bits using List.reverseRecOn with
  | nil =>
    have hzero : pack w [] = 0 := BitVec.eq_of_getLsbD_eq fun i _ => by simp
    simp [run, hzero]
  | append_singleton bits bit ih =>
    rw [List.length_append, List.length_singleton] at hlen ⊢
    have hroom : bits.length < w := by omega
    -- the last bit is put at its place above the block, and the clocks bring it down
    have hplace : pack w (bits ++ [bit]) = pack w bits ^^^ lowBit w bit <<< bits.length := by
      apply BitVec.eq_of_getLsbD_eq
      intro i hi
      rw [BitVec.getLsbD_xor, BitVec.getLsbD_shiftLeft, getLsbD_pack, getLsbD_pack, getLsbD_lowBit]
      rcases Nat.lt_trichotomy i bits.length with hbelow | rfl | habove
      · simp [hi, hbelow, List.getElem?_append_left hbelow]
      · simp [hi, show 0 < w by omega]
      · simp [hi, show ¬i < bits.length by omega, show i - bits.length ≠ 0 by omega, List.getElem?_append]
    have hdown : (shift generator)^[bits.length] (lowBit w bit <<< bits.length) = lowBit w bit := by
      rw [iterate_shift_of_low]
      · apply BitVec.eq_of_getLsbD_eq
        intro i hi
        rw [BitVec.getLsbD_ushiftRight, BitVec.getLsbD_shiftLeft, Nat.add_sub_cancel_left, getLsbD_lowBit]
        by_cases hzero : i = 0
        · simp [hzero, hroom]
        · simp [hzero]
      · intro i hi
        simp [hi]
    rw [run_append, ih (by omega), Function.iterate_succ_apply', hplace, ← BitVec.xor_assoc,
      iterate_shift_xor _ (s ^^^ pack w bits), hdown]
    rfl

/-- The register keeps what it had taken in before, if the generator has its highest bit. -/
theorem run_injective {generator : BitVec w} (hhigh : generator.getLsbD (w - 1) = true) (bits : List Bool) :
    Function.Injective (run generator · bits) := by
  induction bits with
  | nil => exact fun _ _ h => h
  | cons bit bits ih =>
    intro s s' heq
    have hfirst : feed generator s bit = feed generator s' bit := ih heq
    exact (BitVec.xor_left_inj _).mp (shift_injective hhigh hfirst)

/-- Different blocks that are not longer than the register have different contents. -/
theorem pack_injective {bits bits' : List Bool} (hlen : bits.length = bits'.length) (hle : bits.length ≤ w)
    (h : pack w bits = pack w bits') : bits = bits' := by
  apply List.ext_getElem hlen
  intro i hi hi'
  have hbit : (pack w bits).getLsbD i = (pack w bits').getLsbD i := by rw [h]
  rw [getLsbD_pack, getLsbD_pack] at hbit
  simpa [show i < w by omega, hi, hi'] using hbit

/-- Messages that differ only within a block not longer than the register leave different registers. -/
theorem run_burst {generator : BitVec w} (hhigh : generator.getLsbD (w - 1) = true) (s : BitVec w)
    {front block block' back : List Bool} (hlen : block.length = block'.length) (hle : block.length ≤ w)
    (h : run generator s (front ++ (block ++ back)) = run generator s (front ++ (block' ++ back))) :
    block = block' := by
  rw [run_append, run_append, run_append, run_append] at h
  have hblock := run_injective hhigh back h
  generalize run generator s front = s at hblock
  have hle' : block'.length ≤ w := by omega
  have hclocks : (shift generator)^[block.length] (s ^^^ pack w block) =
      (shift generator)^[block.length] (s ^^^ pack w block') := by
    rw [← run_eq_iterate generator s hle, hblock, run_eq_iterate generator s hle', hlen]
  have hpack := (shift_injective hhigh).iterate block.length hclocks
  exact pack_injective hlen hle ((BitVec.xor_right_inj _).mp hpack)

end Crc

end Lib
