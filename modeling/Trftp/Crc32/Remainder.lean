import Trftp.Crc32
import Trftp.Lib.CrcRemainder

/-!
# The checksum is CRC-32

The table holds eight clocks of the shift register for each byte. The register is linear, so a
lookup and a shift by eight do the same for the whole register, and the loop over the bytes is
the loop over their bits. What is left in the register is a remainder modulo the polynomial of
IEEE 802.3.
-/

namespace Trftp

open Lib.Crc Polynomial

/-- The generator of CRC-32, without its leading term and with the low coefficient on top. -/
def crc32Generator : BitVec 32 := 0xEDB88320

/-- The bits of a byte in the order in which they go into the register. -/
def byteBits (byte : UInt8) : List Bool := List.ofFn fun i : Fin 8 => byte.toBitVec.getLsbD i

/-- The bits of a buffer in this order. -/
def bufferBits (buf : List UInt8) : List Bool := buf.flatMap byteBits

/-- The CRC-32 of a buffer, bit by bit: the register starts with the complement of the seed and is
complemented at the end. -/
def bitwiseCrc32 (buf : List UInt8) (seed : UInt32) : UInt32 :=
  ~~~UInt32.ofBitVec (run crc32Generator (~~~seed).toBitVec (bufferBits buf))

@[simp] theorem length_byteBits (byte : UInt8) : (byteBits byte).length = 8 := List.length_ofFn

/-- A buffer has eight bits for each byte. -/
@[simp] theorem length_bufferBits (buf : List UInt8) : (bufferBits buf).length = 8 * buf.length := by
  induction buf with
  | nil => rfl
  | cons byte buf ih =>
    rw [bufferBits, List.flatMap_cons, ← bufferBits, List.length_append, ih, length_byteBits, List.length_cons]
    omega

/-- The bits of buffers one behind the other. -/
theorem bufferBits_append (front back : List UInt8) :
    bufferBits (front ++ back) = bufferBits front ++ bufferBits back := List.flatMap_append

/-- The constants of the table are eight clocks each. -/
theorem crc32Table_eq : crc32Table =
    (List.range 256).map fun index => UInt32.ofBitVec ((shift crc32Generator)^[8] (BitVec.ofNat 32 index)) := by
  decide +kernel

/-- The bits of a byte make up the byte. -/
theorem pack_byteBits (byte : UInt8) : pack 32 (byteBits byte) = byte.toUInt32.toBitVec := by
  apply BitVec.eq_of_getLsbD_eq
  intro i hi
  rw [getLsbD_pack, UInt8.toBitVec_toUInt32, BitVec.getLsbD_setWidth, byteBits, List.getD_eq_getElem?_getD,
    List.getElem?_ofFn]
  by_cases hbyte : i < 8
  · simp [hbyte]
  · simp [hbyte, BitVec.getLsbD_of_ge byte.toBitVec i (by omega)]

/-- The mask of the low byte. -/
theorem getLsbD_mask (i : ℕ) : (0xff : BitVec 32).getLsbD i = decide (i < 8) := by
  have hbit : (0xff : BitVec 32).getLsbD i = (decide (i < 32) && (2 ^ 8 - 1).testBit i) :=
    BitVec.getLsbD_ofNat 32 _ i
  rw [hbit, Nat.testBit_two_pow_sub_one]
  by_cases hlow : i < 8
  · simp [hlow, show i < 32 by omega]
  · simp [hlow]

/-- A register is its low byte and what stands above. -/
theorem split_low (s : BitVec 32) : s = (s &&& 0xff) ^^^ (s &&& ~~~0xff) := by
  apply BitVec.eq_of_getLsbD_eq
  intro i hi
  rw [BitVec.getLsbD_xor, BitVec.getLsbD_and, BitVec.getLsbD_and, BitVec.getLsbD_not, getLsbD_mask]
  by_cases hlow : i < 8 <;> simp [hlow, hi]

/-- Eight clocks are those of the low byte; the rest moves down. -/
theorem iterate_shift_eight (s : BitVec 32) :
    (shift crc32Generator)^[8] s = (shift crc32Generator)^[8] (s &&& 0xff) ^^^ (s >>> 8) := by
  have hhigh : (s &&& ~~~0xff) >>> 8 = s >>> 8 := by
    apply BitVec.eq_of_getLsbD_eq
    intro i _
    rw [BitVec.getLsbD_ushiftRight, BitVec.getLsbD_ushiftRight, BitVec.getLsbD_and, BitVec.getLsbD_not,
      getLsbD_mask]
    by_cases hwidth : 8 + i < 32
    · simp [hwidth]
    · simp [BitVec.getLsbD_of_ge s (8 + i) (by omega)]
  have hclear (i : ℕ) (hi : i < 8) : (s &&& ~~~0xff).getLsbD i = false := by
    rw [BitVec.getLsbD_and, BitVec.getLsbD_not, getLsbD_mask]
    simp [hi]
  calc (shift crc32Generator)^[8] s
      = (shift crc32Generator)^[8] ((s &&& 0xff) ^^^ (s &&& ~~~0xff)) := by rw [← split_low]
    _ = (shift crc32Generator)^[8] (s &&& 0xff) ^^^ (s >>> 8) := by
      rw [iterate_shift_xor, iterate_shift_of_low _ (s &&& ~~~0xff) 8 hclear, hhigh]

/-- A lookup is eight clocks of the index. -/
theorem crc32Table_getD {index : UInt32} (h : index.toNat < 256) :
    (crc32Table.getD index.toNat 0).toBitVec = (shift crc32Generator)^[8] index.toBitVec := by
  rw [crc32Table_eq, List.getD_eq_getElem?_getD, List.getElem?_map, List.getElem?_range h]
  simp

/-- A step of the loop takes in the eight bits of its byte. -/
theorem crc32Step_toBitVec (crc32 : UInt32) (byte : UInt8) :
    (crc32Step crc32 byte).toBitVec = run crc32Generator crc32.toBitVec (byteBits byte) := by
  have hindex : ((crc32 ^^^ byte.toUInt32) &&& 0xff).toNat < 256 := by
    rw [UInt32.toNat_and]
    exact Nat.lt_of_le_of_lt Nat.and_le_right (by decide)
  have hbyte : byte.toUInt32.toBitVec >>> 8 = 0 := by
    apply BitVec.eq_of_getLsbD_eq
    intro i _
    rw [BitVec.getLsbD_ushiftRight, UInt8.toBitVec_toUInt32, BitVec.getLsbD_setWidth,
      BitVec.getLsbD_of_ge byte.toBitVec (8 + i) (by omega)]
    simp
  rw [run_eq_iterate _ _ (by simp), length_byteBits, pack_byteBits, iterate_shift_eight,
    BitVec.ushiftRight_xor_distrib, hbyte, crc32Step, UInt32.toBitVec_xor, crc32Table_getD hindex]
  simp

/-- The loop takes in the bits of the buffer. -/
theorem crc32Loop_toBitVec (buf : List UInt8) (crc32 : UInt32) :
    (crc32Loop buf crc32).toBitVec = run crc32Generator crc32.toBitVec (bufferBits buf) := by
  rw [crc32Loop_eq_foldl]
  induction buf generalizing crc32 with
  | nil => rfl
  | cons byte buf ih =>
    rw [List.foldl_cons, ih, crc32Step_toBitVec, ← run_append]
    rfl

/-- The polynomial of IEEE 802.3. -/
theorem generatorPoly_crc32 : generatorPoly crc32Generator =
    X ^ 32 + X ^ 26 + X ^ 23 + X ^ 22 + X ^ 16 + X ^ 12 + X ^ 11 + X ^ 10 + X ^ 8 + X ^ 7 + X ^ 5 + X ^ 4 +
      X ^ 2 + X + 1 := by
  have hset : ((Finset.range 32).filter fun i => crc32Generator.getLsbD i = true) =
      {5, 8, 9, 15, 19, 20, 21, 23, 24, 26, 27, 29, 30, 31} := by decide +kernel
  rw [generatorPoly, poly, ← Finset.sum_filter, hset]
  simp only [Finset.sum_insert, Finset.sum_singleton, Finset.mem_insert, Finset.mem_singleton, Nat.reduceEqDiff,
    or_self, not_false_eq_true, Nat.reduceSub, pow_zero, pow_one]
  ring

/-- `CalculateCrc32` is CRC-32.

For every buffer and every seed it is the bit-by-bit checksum. With the seed zero the complement of
the result is the remainder that IEEE 802.3 defines: of the bits of the buffer as a polynomial,
moved up by 32, with ones in the place of the 32 bits before it. -/
theorem calculateCrc32_eq_bitwise (buf : List UInt8) :
    (∀ seed, calculateCrc32 buf seed = bitwiseCrc32 buf seed) ∧
      poly (~~~calculateCrc32 buf 0).toBitVec =
        (X ^ (8 * buf.length) * poly (BitVec.allOnes 32) + X ^ 32 * message (bufferBits buf)) %ₘ
          (X ^ 32 + X ^ 26 + X ^ 23 + X ^ 22 + X ^ 16 + X ^ 12 + X ^ 11 + X ^ 10 + X ^ 8 + X ^ 7 + X ^ 5 +
            X ^ 4 + X ^ 2 + X + 1) := by
  have hloop (seed : UInt32) : (crc32Loop buf (~~~seed)).toBitVec =
      run crc32Generator (~~~seed).toBitVec (bufferBits buf) := crc32Loop_toBitVec buf (~~~seed)
  constructor
  · intro seed
    rw [calculateCrc32, bitwiseCrc32, ← hloop, UInt32.ofBitVec_toBitVec]
  · rw [calculateCrc32, UInt32.not_not, hloop, poly_run_eq_modByMonic (by decide), generatorPoly_crc32,
      length_bufferBits]
    rfl

end Trftp
