import Trftp.Crc32.Remainder
import Trftp.Messages

/-!
# Corrupted datagrams are rejected

The checksum is computed over the bytes that were received, with the checksum field set to zero. Up
to four consecutive bytes are not longer than the register, so messages that differ only there
have different checksums; and if they differ in the field itself, the checksum is the same and
the field is not.
-/

namespace Trftp

open Lib.Crc

/-- Different buffers of one length have different bits. -/
theorem bufferBits_injective {buf buf' : List UInt8} (hlen : buf.length = buf'.length)
    (h : bufferBits buf = bufferBits buf') : buf = buf' := by
  induction buf generalizing buf' with
  | nil => exact (List.length_eq_zero_iff.mp hlen.symm).symm
  | cons byte buf ih =>
    cases buf' with
    | nil => simp at hlen
    | cons byte' buf' =>
      obtain ⟨hbits, hrest⟩ := List.append_inj h (by simp)
      have hword : byte.toUInt32.toBitVec = byte'.toUInt32.toBitVec := by
        rw [← pack_byteBits, ← pack_byteBits, hbits]
      have hbyte : byte = byte' := UInt8.toUInt32_inj.mp (UInt32.toBitVec_inj.mp hword)
      rw [hbyte, ih (Nat.succ.inj hlen) hrest]

/-- A checksum determines up to four consecutive bytes. -/
theorem calculateCrc32_burst {front block block' back : List UInt8} (hlen : block.length = block'.length)
    (hle : block.length ≤ 4)
    (h : calculateCrc32 (front ++ (block ++ back)) 0 = calculateCrc32 (front ++ (block' ++ back)) 0) :
    block = block' := by
  have hloop := congrArg UInt32.toBitVec (UInt32.not_inj.mp h)
  rw [crc32Loop_toBitVec, crc32Loop_toBitVec] at hloop
  simp only [bufferBits_append] at hloop
  have hhigh : crc32Generator.getLsbD (32 - 1) = true := by decide
  apply bufferBits_injective hlen
  refine run_burst hhigh _ ?_ ?_ hloop
  · simp [hlen]
  · rw [length_bufferBits]
    omega

/-- Two buffers agree outside a window. -/
def AgreeOutside (start size : ℕ) (buf buf' : List UInt8) : Prop :=
  ∀ i, i < start ∨ start + size ≤ i → buf[i]? = buf'[i]?

/-- Buffers with one checksum that agree outside a window of four bytes are the same. -/
theorem eq_of_calculateCrc32_eq {start size : ℕ} {buf buf' : List UInt8} (hsize : size ≤ 4)
    (hlen : buf.length = buf'.length) (hagree : AgreeOutside start size buf buf')
    (h : calculateCrc32 buf 0 = calculateCrc32 buf' 0) : buf = buf' := by
  have hfront : buf.take start = buf'.take start := by
    apply List.ext_getElem?
    intro i
    rw [List.getElem?_take, List.getElem?_take]
    split_ifs with hi
    · exact hagree i (Or.inl hi)
    · rfl
  have hback : buf.drop (start + size) = buf'.drop (start + size) := by
    apply List.ext_getElem?
    intro i
    rw [List.getElem?_drop, List.getElem?_drop]
    exact hagree _ (Or.inr (Nat.le_add_right _ _))
  have hsplit (b : List UInt8) : b = b.take start ++ ((b.drop start).take size ++ b.drop (start + size)) := by
    rw [← List.drop_drop, List.take_append_drop, List.take_append_drop]
  have hblock : (buf.drop start).take size = (buf'.drop start).take size := by
    rw [hsplit buf, hsplit buf', hfront, hback] at h
    refine calculateCrc32_burst ?_ ?_ h
    · simp [hlen]
    · exact (List.length_take_le _ _).trans hsize
  rw [hsplit buf, hsplit buf', hfront, hback, hblock]

/-! ## The checksum field -/

/-- The place of `crc32` in the packed header. -/
def crc32Offset : ℕ := 20

/-- The bytes of a message with the checksum field set to zero. -/
def zeroed (buf : List UInt8) : List UInt8 :=
  buf.take crc32Offset ++ (wordBytes 0 ++ buf.drop (crc32Offset + 4))

/-- The bytes of the checksum field. -/
def crc32Bytes (buf : List UInt8) : List UInt8 := (buf.drop crc32Offset).take 4

theorem length_zeroed {buf : List UInt8} (h : crc32Offset + 4 ≤ buf.length) :
    (zeroed buf).length = buf.length := by
  simp only [zeroed, List.length_append, List.length_take, length_wordBytes, List.length_drop]
  omega

/-- Only the field differs. -/
theorem getElem?_zeroed {buf : List UInt8} (h : crc32Offset + 4 ≤ buf.length) (i : ℕ) :
    (zeroed buf)[i]? = if crc32Offset ≤ i ∧ i < crc32Offset + 4 then some 0 else buf[i]? := by
  unfold zeroed
  have htake : (buf.take crc32Offset).length = crc32Offset := by
    rw [List.length_take]
    omega
  rcases Nat.lt_or_ge i crc32Offset with hfront | hfield
  · rw [List.getElem?_append_left (by omega), List.getElem?_take, if_pos hfront, if_neg (by omega)]
  · rw [List.getElem?_append_right (by omega), htake]
    rcases Nat.lt_or_ge i (crc32Offset + 4) with hinside | hback
    · rw [List.getElem?_append_left (by rw [length_wordBytes]; omega), if_pos ⟨hfield, hinside⟩]
      have hzero : wordBytes 0 = List.replicate 4 0 := by decide
      rw [hzero, List.getElem?_replicate, if_pos (by omega)]
    · rw [List.getElem?_append_right (by rw [length_wordBytes]; omega), length_wordBytes, List.getElem?_drop,
        if_neg (by omega)]
      congr 1
      omega

/-- The field and the rest make up the buffer. -/
theorem eq_of_zeroed_eq {buf buf' : List UInt8} (h : crc32Offset + 4 ≤ buf.length)
    (hlen : buf.length = buf'.length) (hzeroed : zeroed buf = zeroed buf')
    (hfield : crc32Bytes buf = crc32Bytes buf') : buf = buf' := by
  apply List.ext_getElem?
  intro i
  by_cases hinside : crc32Offset ≤ i ∧ i < crc32Offset + 4
  · have hbyte : (crc32Bytes buf)[i - crc32Offset]? = (crc32Bytes buf')[i - crc32Offset]? := by rw [hfield]
    unfold crc32Bytes at hbyte
    rw [List.getElem?_take, List.getElem?_take, if_pos (by omega), if_pos (by omega), List.getElem?_drop,
      List.getElem?_drop, Nat.add_sub_cancel' hinside.1] at hbyte
    exact hbyte
  · have hbyte : (zeroed buf)[i]? = (zeroed buf')[i]? := by rw [hzeroed]
    rw [getElem?_zeroed h, getElem?_zeroed (hlen ▸ h), if_neg hinside, if_neg hinside] at hbyte
    exact hbyte

namespace TrftpMessage

variable {msg msg' : TrftpMessage} {len : ℕ}

/-- Overwriting the field overwrites its bytes. -/
theorem toBytes_withCrc32_zero (msg : TrftpMessage) : (msg.withCrc32 0).toBytes = zeroed msg.toBytes := by
  have hfront (crc32 : UInt32) : (msg.withCrc32 crc32).toBytes =
      (wordBytes msg.header.magic ++ (halfBytes msg.header.spid ++ (halfBytes msg.header.dpid ++
        (wordBytes msg.header.tpn ++ (wordBytes msg.header.tpl ++ wordBytes msg.header.xid))))) ++
      (wordBytes crc32 ++ (wordBytes msg.header.psn ++ (wordBytes msg.header.pl ++ msg.payload.bytes))) := by
    simp [toBytes, withCrc32, TrftpHeader.toBytes]
  have hsame : msg.toBytes = (msg.withCrc32 msg.header.crc32).toBytes := rfl
  rw [zeroed, hsame, hfront 0, hfront msg.header.crc32, ← List.drop_drop, List.take_left' (by simp [crc32Offset]),
    List.drop_left' (by simp [crc32Offset]), List.drop_left' (by simp)]

/-- The checksum is computed over the bytes with the field set to zero. -/
theorem checksum_eq (hlen : crc32Offset + 4 ≤ len) (hle : len ≤ sizeofMessage) :
    msg.checksum len = calculateCrc32 (zeroed (msg.toBytes.take len)) 0 := by
  have hfull : crc32Offset + 4 ≤ msg.toBytes.length := by
    rw [length_toBytes]
    omega
  have hcut : crc32Offset + 4 ≤ (msg.toBytes.take len).length := by
    rw [List.length_take, length_toBytes]
    omega
  rw [checksum, toBytes_withCrc32_zero]
  congr 1
  apply List.ext_getElem?
  intro i
  rw [List.getElem?_take, getElem?_zeroed hfull, getElem?_zeroed hcut, List.getElem?_take]
  split_ifs with hi hinside hinside
  · rfl
  · rfl
  · omega
  · rfl

/-- The field is read from its bytes. -/
theorem wordBytes_crc32 (msg : TrftpMessage) : wordBytes msg.header.crc32 = crc32Bytes msg.toBytes := by
  have hsplit : msg.toBytes =
      (wordBytes msg.header.magic ++ (halfBytes msg.header.spid ++ (halfBytes msg.header.dpid ++
        (wordBytes msg.header.tpn ++ (wordBytes msg.header.tpl ++ wordBytes msg.header.xid))))) ++
      (wordBytes msg.header.crc32 ++
        (wordBytes msg.header.psn ++ (wordBytes msg.header.pl ++ msg.payload.bytes))) := by
    simp [toBytes, TrftpHeader.toBytes]
  rw [crc32Bytes, hsplit, List.drop_left' (by simp [crc32Offset]), List.take_left' (by simp)]

/-- Received bytes that reach behind the field contain it. -/
theorem crc32Bytes_take (hlen : crc32Offset + 4 ≤ len) :
    crc32Bytes (msg.toBytes.take len) = wordBytes msg.header.crc32 := by
  rw [wordBytes_crc32, crc32Bytes, crc32Bytes, List.drop_take, List.take_take, Nat.min_eq_left (by omega)]

/-- An intact message is as long as its header at least. -/
theorem le_of_intact (h : msg.intact len = true) : sizeofHeader ≤ len := by
  have hlen := ((msg.intact_iff len).mp h).2.2.1
  omega

/-- Intact messages that agree outside a window of four bytes, which is in the checksum field or avoids
it, have the same bytes. -/
theorem take_eq_of_intact {start size : ℕ} (hle : len ≤ sizeofMessage) (hsize : size ≤ 4)
    (hplace : crc32Offset ≤ start ∧ start + size ≤ crc32Offset + 4 ∨
      start + size ≤ crc32Offset ∨ crc32Offset + 4 ≤ start)
    (hagree : AgreeOutside start size (msg.toBytes.take len) (msg'.toBytes.take len))
    (h : msg.intact len = true) (h' : msg'.intact len = true) : msg.toBytes.take len = msg'.toBytes.take len := by
  have hheader := le_of_intact h
  have hfield : crc32Offset + 4 ≤ len := le_trans (by decide) hheader
  have hsum := ((msg.intact_iff len).mp h).1
  have hsum' := ((msg'.intact_iff len).mp h').1
  have hcut (m : TrftpMessage) : crc32Offset + 4 ≤ (m.toBytes.take len).length := by
    rw [List.length_take, length_toBytes]
    omega
  have hlength : (msg.toBytes.take len).length = (msg'.toBytes.take len).length := by
    simp only [List.length_take, length_toBytes]
  rw [checksum_eq hfield hle] at hsum hsum'
  rcases hplace with hinside | houtside
  · -- the checksums are those of the same bytes, so the fields are the same
    have hzeroed : zeroed (msg.toBytes.take len) = zeroed (msg'.toBytes.take len) := by
      apply List.ext_getElem?
      intro i
      rw [getElem?_zeroed (hcut msg), getElem?_zeroed (hcut msg')]
      split_ifs with hi
      · rfl
      · exact hagree i (by omega)
    apply eq_of_zeroed_eq (hcut msg) hlength hzeroed
    rw [crc32Bytes_take hfield, crc32Bytes_take hfield, ← hsum, ← hsum', hzeroed]
  · -- the fields are the same, so the bytes have the same checksum
    have hsame : crc32Bytes (msg.toBytes.take len) = crc32Bytes (msg'.toBytes.take len) := by
      apply List.ext_getElem?
      intro i
      unfold crc32Bytes
      rw [List.getElem?_take, List.getElem?_take]
      split_ifs with hi
      · rw [List.getElem?_drop, List.getElem?_drop]
        exact hagree _ (by omega)
      · rfl
    have hcrc : msg.header.crc32 = msg'.header.crc32 := by
      rw [crc32Bytes_take hfield, crc32Bytes_take hfield] at hsame
      exact wordBytes_injective hsame
    have hwindow : AgreeOutside start size (zeroed (msg.toBytes.take len)) (zeroed (msg'.toBytes.take len)) := by
      intro i hi
      rw [getElem?_zeroed (hcut msg), getElem?_zeroed (hcut msg'), hagree i hi]
    refine eq_of_zeroed_eq (hcut msg) hlength (eq_of_calculateCrc32_eq hsize ?_ hwindow ?_) hsame
    · rw [length_zeroed (hcut msg), length_zeroed (hcut msg'), hlength]
    · rw [hsum, hsum', hcrc]

end TrftpMessage

/-- Up to four consecutive corrupted bytes are detected.

One of the parties accepts the integrity of what it received, and the first bytes of another
buffer, as many as were received, are the same except within a window of up to four bytes, which lies
in the checksum field or does not touch it. If anything differs, both parties reject the
other one. -/
theorem corruption_detected {r r' : Received} {start size : ℕ} (hlen : r'.len = r.len) (hsize : size ≤ 4)
    (hplace : crc32Offset ≤ start ∧ start + size ≤ crc32Offset + 4 ∨
      start + size ≤ crc32Offset ∨ crc32Offset + 4 ≤ start)
    (hagree : AgreeOutside start size (r.msg.toBytes.take r.len) (r'.msg.toBytes.take r'.len))
    (hdiffer : r.msg.toBytes.take r.len ≠ r'.msg.toBytes.take r'.len)
    (haccepted : ServerTransaction.validateMessageIntegrity r.msg r.len = true ∨
      ClientTransaction.validateMessageIntegrity r.msg r.len = true) :
    ServerTransaction.validateMessageIntegrity r'.msg r'.len = false ∧
      ClientTransaction.validateMessageIntegrity r'.msg r'.len = false := by
  have hintact : r.msg.intact r.len = true := haccepted.elim id id
  rw [hlen] at hagree hdiffer ⊢
  have hrejected : r'.msg.intact r.len = false := by
    rw [← Bool.not_eq_true]
    exact fun hintact' => hdiffer (TrftpMessage.take_eq_of_intact r.len_le hsize hplace hagree hintact hintact')
  exact ⟨hrejected, hrejected⟩

/-- A NTF with another version behind its header. -/
def corruptedNtf : Received :=
  .ofMessage oneByte.udpSocket
    { oneByte.message .ntf with payload := TrftpMessage.blank.payload.storeWords [8] } 4 (by decide)

/-- The version of an NTF cannot be changed in transit. -/
theorem corruption_detected_ntf :
    ServerTransaction.validateMessageIntegrity corruptedNtf.msg corruptedNtf.len = false ∧
      ClientTransaction.validateMessageIntegrity corruptedNtf.msg corruptedNtf.len = false := by
  have hheader : ∀ i < sizeofHeader, ((oneByte.received .ntf).msg.toBytes.take 36)[i]? =
      (corruptedNtf.msg.toBytes.take 36)[i]? := by decide +kernel
  have hagree : AgreeOutside sizeofHeader 4 ((oneByte.received .ntf).msg.toBytes.take 36)
      (corruptedNtf.msg.toBytes.take 36) := by
    rintro i (hi | hi)
    · exact hheader i hi
    · have hout : ¬i < 36 := Nat.not_lt.mpr hi
      rw [List.getElem?_take, List.getElem?_take, if_neg hout, if_neg hout]
  refine corruption_detected (r := oneByte.received .ntf) rfl le_rfl ?_ hagree ?_ ?_
  · exact Or.inr (Or.inr (by decide))
  · decide +kernel
  · exact Or.inl (by decide +kernel)

end Trftp
