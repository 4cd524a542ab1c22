import Trftp.Server.Transaction
import Trftp.Lib.Chunks
import Trftp.Lib.Counter

/-!
# What the sender loop reads

The loop cuts the file into packets with 32-bit arithmetic. Below the packet count nothing
wraps, and a packet is a chunk of the bytes that the announced size covers. The packet count
itself is the rounded-up quotient only as long as the sum in the constructor fits 32 bits;
otherwise the sum wraps to a number below the packet size and the count is zero.
-/

namespace Trftp

open Lib (chunk chunkCount)

/-- Added in 64 bits, the packet count is the number of chunks. -/
theorem toNat_packetCount (size : UInt32) :
    (UInt32.ofNat ((size.toNat + sizeofPayload - 1) / sizeofPayload)).toNat =
      chunkCount sizeofPayload size.toNat := by
  have hlt := size.toNat_lt
  rw [UInt32.toNat_ofNat', chunkCount]
  refine Nat.mod_eq_of_lt ?_
  unfold sizeofPayload
  omega

namespace ServerTransaction

variable (t : ServerTransaction)

/-- The bytes that the announced size covers: the file, unless its size does not fit 32 bits. -/
def served : List UInt8 := t.file.take t.newFileSize.toNat

variable {t} {psn : UInt32}

/-- The announced size never exceeds the file. -/
theorem newFileSize_le : t.newFileSize.toNat ≤ t.file.length := by
  rw [newFileSize, UInt32.toNat_ofNat']
  exact Nat.mod_le _ _

@[simp] theorem length_served : t.served.length = t.newFileSize.toNat := by
  rw [served, List.length_take, Nat.min_eq_left newFileSize_le]

/-- The sum in the constructor. -/
theorem toNat_totalPacketNumber :
    t.totalPacketNumber.toNat = (t.newFileSize.toNat + (sizeofPayload - 1)) % 2 ^ 32 / sizeofPayload := by
  have hsum : t.newFileSize + UInt32.ofNat sizeofPayload - 1 = t.newFileSize + 1407 := by
    rw [UInt32.sub_eq_add_neg, UInt32.add_assoc]
    rfl
  rw [totalPacketNumber, UInt32.toNat_div, hsum, UInt32.toNat_add]
  rfl

/-- Without a wrap the packet count is the number of chunks. -/
theorem totalPacketNumber_eq (h : t.newFileSize.toNat + (sizeofPayload - 1) < 2 ^ 32) :
    t.totalPacketNumber.toNat = chunkCount sizeofPayload t.newFileSize.toNat := by
  rw [toNat_totalPacketNumber, Nat.mod_eq_of_lt h]
  rfl

/-- With a wrap there is no packet to send. -/
theorem totalPacketNumber_wrap (h : 2 ^ 32 ≤ t.newFileSize.toNat + (sizeofPayload - 1)) :
    t.totalPacketNumber = 0 := by
  have hlt := t.newFileSize.toNat_lt
  rw [← UInt32.toNat_inj, toNat_totalPacketNumber, UInt32.toNat_zero]
  unfold sizeofPayload at h ⊢
  omega

/-- Where there is a packet to send, nothing wrapped. -/
theorem no_wrap_of_lt (h : psn < t.totalPacketNumber) :
    t.newFileSize.toNat + (sizeofPayload - 1) < 2 ^ 32 := by
  refine Nat.lt_of_not_le fun hwrap => ?_
  rw [totalPacketNumber_wrap hwrap] at h
  exact absurd (UInt32.lt_iff_toNat_lt.mp h) (Nat.not_lt_zero _)

/-- The number of a packet is the index of a chunk. -/
theorem lt_chunkCount (h : psn < t.totalPacketNumber) :
    psn.toNat < chunkCount sizeofPayload t.newFileSize.toNat := by
  rw [← totalPacketNumber_eq (no_wrap_of_lt h)]
  exact UInt32.lt_iff_toNat_lt.mp h

/-- The file offset of a packet does not wrap. -/
theorem toNat_fileOffset (h : psn < t.totalPacketNumber) :
    (fileOffset psn).toNat = psn.toNat * sizeofPayload := by
  have hstart := (Lib.lt_chunkCount_iff (by decide)).mp (lt_chunkCount h)
  have hlt := t.newFileSize.toNat_lt
  rw [fileOffset, UInt32.toNat_ofNat', Nat.mod_eq_of_lt (by omega)]

/-- Whether a packet is the last one. -/
theorem eq_last_iff (h : psn < t.totalPacketNumber) :
    psn = t.totalPacketNumber - 1 ↔ psn.toNat + 1 = chunkCount sizeofPayload t.newFileSize.toNat := by
  have hlt := UInt32.lt_iff_toNat_lt.mp h
  rw [Lib.eq_pred_iff (by omega), totalPacketNumber_eq (no_wrap_of_lt h)]

/-- The payload length of a packet is the length of its chunk. -/
theorem toNat_dataLen (h : psn < t.totalPacketNumber) :
    (t.dataLen psn).toNat = (chunk sizeofPayload t.served psn.toNat).length := by
  have hcount := lt_chunkCount h
  have hoffset := toNat_fileOffset h
  have hstart := (Lib.lt_chunkCount_iff (by decide)).mp hcount
  unfold dataLen
  split_ifs with hlast
  · rw [eq_last_iff h, ← length_served] at hlast
    rw [Lib.length_chunk_last (by decide) hlast, UInt32.toNat_sub_of_le, hoffset, length_served]
    rw [UInt32.le_iff_toNat_le, hoffset]
    omega
  · rw [eq_last_iff h] at hlast
    rw [Lib.length_chunk_of_succ_lt (by decide) (by rw [length_served]; omega)]
    rfl

/-- A packet does not exceed its payload. -/
theorem dataLen_le (h : psn < t.totalPacketNumber) : (t.dataLen psn).toNat ≤ sizeofPayload := by
  rw [toNat_dataLen h, Lib.length_chunk]
  exact Nat.min_le_left _ _

/-- Reading a packet yields its chunk. -/
theorem readData_eq (h : psn < t.totalPacketNumber) :
    t.readData psn = some (chunk sizeofPayload t.served psn.toNat) := by
  have hlen := toNat_dataLen h
  have hchunk := Lib.length_chunk sizeofPayload t.served psn.toNat
  have hsize := newFileSize_le (t := t)
  rw [length_served] at hchunk
  have hstart := (Lib.lt_chunkCount_iff (by decide)).mp (lt_chunkCount h)
  rw [readData, toNat_fileOffset h, hlen, if_pos (by omega), hchunk]
  rw [chunk, served, List.drop_take, List.take_take]

end ServerTransaction

end Trftp
