import Trftp.Lib.CrcDistance
import Trftp.System.Corruption

/-!
# One or two wrong bits are noticed anywhere

The checksum field is complemented as it is stored. Taken in behind the bytes that it is
computed over, it leaves the same register for every intact message, so two intact messages of one
length are two inputs with one result. A datagram is shorter than the clocks after which the register
first repeats, so such inputs differ in no bit or in more than two, wherever the bits are: in the
bytes, in the field, or one here and one there.
-/

namespace Trftp

open Lib.Crc

/-- Within the clocks of a datagram and its checksum the register does not repeat. -/
theorem crc32_apart {n : ℕ} (hle : n ≤ 8 * sizeofMessage + 32) : Apart crc32Generator n := by
  have hclocks : staysApart crc32Generator 11551 (lowBit 32 true) = true := by decide +kernel
  intro k hpos hlt
  refine (staysApart_iff _ _ _).mp hclocks k hpos ?_
  unfold sizeofMessage sizeofHeader sizeofPayload at hle
  omega

/-- The bits of a number that is written byte by byte. -/
theorem getD_bufferBits_write {width value i : ℕ} (hi : i < 8 * width) :
    (bufferBits (Lib.LittleEndian.write width value)).getD i false = value.testBit i := by
  induction width generalizing value i with
  | zero => omega
  | succ width ih =>
    have hcons : bufferBits (Lib.LittleEndian.write (width + 1) value) =
        byteBits (UInt8.ofNat value) ++ bufferBits (Lib.LittleEndian.write width (value / 256)) := by
      rw [Lib.LittleEndian.write, bufferBits, List.flatMap_cons, ← bufferBits]
    rw [hcons, List.getD_eq_getElem?_getD]
    by_cases hlow : i < 8
    · rw [List.getElem?_append_left (by rwa [length_byteBits]), byteBits, List.getElem?_ofFn]
      simp only [hlow, ↓reduceDIte, Option.getD_some]
      rw [UInt8.toBitVec_ofNat', BitVec.getLsbD_ofNat]
      simp [hlow]
    · rw [List.getElem?_append_right (by rw [length_byteBits]; omega), length_byteBits,
        ← List.getD_eq_getElem?_getD, ih (by omega), show (256 : ℕ) = 2 ^ 8 by rfl, Nat.testBit_div_two_pow]
      congr 1
      omega

/-- The bits of a word make up the word. -/
theorem pack_wordBytes (value : UInt32) : pack 32 (bufferBits (wordBytes value)) = value.toBitVec := by
  apply BitVec.eq_of_getLsbD_eq
  intro i hi
  have hbit : value.toNat.testBit i = value.toBitVec.getLsbD i := rfl
  rw [getLsbD_pack, wordBytes, getD_bufferBits_write hi, hbit, decide_eq_true hi, Bool.true_and]

/-- A message with its checksum behind it. -/
def codeword (buf : List UInt8) : List Bool := bufferBits (zeroed buf) ++ bufferBits (crc32Bytes buf)

/-- The checksum field is moved to the end, which changes the number of differing bits of no two messages. -/
theorem flips_codeword {buf buf' : List UInt8} (h : crc32Offset + 4 ≤ buf.length)
    (hlen : buf.length = buf'.length) :
    flips (codeword buf) (codeword buf') = flips (bufferBits buf) (bufferBits buf') := by
  have hsplit (b : List UInt8) : b = b.take crc32Offset ++ (crc32Bytes b ++ b.drop (crc32Offset + 4)) := by
    rw [crc32Bytes, ← List.drop_drop, List.take_append_drop, List.take_append_drop]
  have hfront : (bufferBits (buf.take crc32Offset)).length = (bufferBits (buf'.take crc32Offset)).length := by
    rw [length_bufferBits, length_bufferBits, List.length_take, List.length_take, hlen]
  have hfield : (bufferBits (crc32Bytes buf)).length = (bufferBits (crc32Bytes buf')).length := by
    simp only [crc32Bytes, length_bufferBits, List.length_take, List.length_drop, hlen]
  have hzeroed : (bufferBits (zeroed buf)).length = (bufferBits (zeroed buf')).length := by
    rw [length_bufferBits, length_bufferBits, length_zeroed h, length_zeroed (hlen ▸ h), hlen]
  conv_rhs => rw [hsplit buf, hsplit buf']
  rw [codeword, codeword, flips_append hzeroed, zeroed, zeroed]
  simp only [bufferBits_append]
  rw [flips_append hfront, flips_append rfl, flips_append hfront, flips_append hfield, flips_self]
  omega

/-- The register behind the codeword of an intact message is the same for all of them. -/
theorem run_codeword {msg : TrftpMessage} {len : ℕ} (hle : len ≤ sizeofMessage) (h : msg.intact len = true) :
    run crc32Generator (BitVec.allOnes 32) (codeword (msg.toBytes.take len)) =
      (shift crc32Generator)^[32] (BitVec.allOnes 32) := by
  have hfield : crc32Offset + 4 ≤ len := le_trans (by decide) (TrftpMessage.le_of_intact h)
  have hsum : calculateCrc32 (zeroed (msg.toBytes.take len)) 0 = msg.header.crc32 := by
    rw [← TrftpMessage.checksum_eq hfield hle]
    exact ((msg.intact_iff len).mp h).1
  have hloop : run crc32Generator (BitVec.allOnes 32) (bufferBits (zeroed (msg.toBytes.take len))) =
      ~~~msg.header.crc32.toBitVec := by
    have hones : (~~~(0 : UInt32)).toBitVec = BitVec.allOnes 32 := by decide
    rw [← hones, ← crc32Loop_toBitVec, ← hsum, calculateCrc32, ← UInt32.toBitVec_not, UInt32.not_not]
  rw [codeword, run_append, hloop, TrftpMessage.crc32Bytes_take hfield, run_eq_iterate _ _ (by simp),
    length_bufferBits, length_wordBytes, pack_wordBytes, BitVec.xor_comm]
  congr 1
  apply BitVec.eq_of_getLsbD_eq
  intro i hi
  rw [BitVec.getLsbD_xor, BitVec.getLsbD_not, BitVec.getLsbD_allOnes]
  simp [hi]

/-- Intact messages of one length that differ in one or two bits are the same. -/
theorem take_eq_of_flips {msg msg' : TrftpMessage} {len : ℕ} (hle : len ≤ sizeofMessage)
    (htwo : flips (bufferBits (msg.toBytes.take len)) (bufferBits (msg'.toBytes.take len)) ≤ 2)
    (h : msg.intact len = true) (h' : msg'.intact len = true) : msg.toBytes.take len = msg'.toBytes.take len := by
  have hlen (m : TrftpMessage) : (m.toBytes.take len).length = len := by
    rw [List.length_take, TrftpMessage.length_toBytes, Nat.min_eq_left hle]
  have hfield : crc32Offset + 4 ≤ len := le_trans (by decide) (TrftpMessage.le_of_intact h)
  have hcode (m : TrftpMessage) : (codeword (m.toBytes.take len)).length = 8 * len + 32 := by
    rw [codeword, List.length_append, length_bufferBits, length_bufferBits, length_zeroed (by rw [hlen]; exact hfield),
      hlen, TrftpMessage.crc32Bytes_take hfield, length_wordBytes]
  have hflips : flips (codeword (msg.toBytes.take len)) (codeword (msg'.toBytes.take len)) =
      flips (bufferBits (msg.toBytes.take len)) (bufferBits (msg'.toBytes.take len)) :=
    flips_codeword (by rw [hlen]; exact hfield) (by rw [hlen, hlen])
  have hsame : codeword (msg.toBytes.take len) = codeword (msg'.toBytes.take len) := by
    have hhigh : crc32Generator.getLsbD (32 - 1) = true := by decide
    refine run_of_flips (by decide) hhigh (BitVec.allOnes 32) ?_ ?_ ?_ ?_
    · rw [hcode, hcode]
    · rw [hcode]
      exact crc32_apart (by omega)
    · rw [hflips]
      exact htwo
    · rw [run_codeword hle h, run_codeword hle h']
  have hnone : flips (bufferBits (msg.toBytes.take len)) (bufferBits (msg'.toBytes.take len)) = 0 := by
    rw [← hflips, hsame, flips_self]
  have hbits := eq_of_flips_eq_zero (by simp [hlen]) hnone
  exact bufferBits_injective (by rw [hlen, hlen]) hbits

/-- One or two wrong bits are detected.

One of the parties accepts the integrity of what it received, and the first bytes of another buffer,
as many as were received, differ from it in one bit or in two, wherever they are: both parties reject the
other one. -/
theorem bit_errors_detected {r r' : Received} (hlen : r'.len = r.len)
    (hsome : 0 < flips (bufferBits (r.msg.toBytes.take r.len)) (bufferBits (r'.msg.toBytes.take r'.len)))
    (htwo : flips (bufferBits (r.msg.toBytes.take r.len)) (bufferBits (r'.msg.toBytes.take r'.len)) ≤ 2)
    (haccepted : ServerTransaction.validateMessageIntegrity r.msg r.len = true ∨
      ClientTransaction.validateMessageIntegrity r.msg r.len = true) :
    ServerTransaction.validateMessageIntegrity r'.msg r'.len = false ∧
      ClientTransaction.validateMessageIntegrity r'.msg r'.len = false := by
  have hintact : r.msg.intact r.len = true := haccepted.elim id id
  rw [hlen] at hsome htwo ⊢
  have hrejected : r'.msg.intact r.len = false := by
    rw [← Bool.not_eq_true]
    intro hintact'
    rw [take_eq_of_flips r.len_le htwo hintact hintact', flips_self] at hsome
    exact absurd hsome (Nat.lt_irrefl 0)
  exact ⟨hrejected, hrejected⟩

/-- An NTF with one wrong bit in its checksum and one in its version. -/
def twoBitsNtf : Received :=
  .ofMessage oneByte.udpSocket
    { oneByte.message .ntf with
      header := { (oneByte.message .ntf).header with crc32 := (oneByte.message .ntf).header.crc32 ^^^ 1 }
      payload := TrftpMessage.blank.payload.storeWords [oneByte.newFileVersion ^^^ 1] } 4 (oneByte.payloadLen_le .ntf)

/-- Both wrong bits together are noticed. -/
theorem bit_errors_detected_ntf :
    ServerTransaction.validateMessageIntegrity twoBitsNtf.msg twoBitsNtf.len = false ∧
      ClientTransaction.validateMessageIntegrity twoBitsNtf.msg twoBitsNtf.len = false := by
  have hflips : flips (bufferBits ((oneByte.received .ntf).msg.toBytes.take (oneByte.received .ntf).len))
      (bufferBits (twoBitsNtf.msg.toBytes.take twoBitsNtf.len)) = 2 := by decide +kernel
  exact bit_errors_detected (r := oneByte.received .ntf) rfl (by rw [hflips]; decide) hflips.le
    (Or.inl (by decide +kernel))

end Trftp
