import Trftp.System.Content

/-!
# Where the packet counts agree

The number of packets of a file is computed three times: by the constructor of the server's
transaction, for the header of DATA, and by the client from the length in INFO. The constructor
adds in 32 bits, and its sum wraps for the last sizes below 2^32; the other two add in 64 bits.
From 2^32 on the file size itself is cut.
-/

namespace Trftp

open Lib (chunkCount)

namespace ServerTransaction

/-- The file size and the three packet counts are those of a file of `length` bytes. -/
structure CountsAgree (t : ServerTransaction) (length : ℕ) : Prop where
  size : t.newFileSize.toNat = length
  constructed : t.totalPacketNumber.toNat = chunkCount sizeofPayload length
  header : ∀ psn data, (t.dataMessage psn data).header.tpn.toNat = chunkCount sizeofPayload length
  client : ∀ (v : ClientVars) (dst : SockAddr) (r : Received), r.From (t.packet dst .info) →
    (ClientTransaction.informedVars v r.msg).totalPacketNumber.toNat = chunkCount sizeofPayload length

end ServerTransaction

/-- The packet counts agree below the last sizes of 32 bits, and nowhere else.

For every file that is not empty, the size and the three counts of its transaction are the true ones
if and only if the size and one packet less a byte do not pass 2^32. -/
theorem countsAgree_iff {t : ServerTransaction} (hfile : 1 ≤ t.file.length) :
    t.CountsAgree t.file.length ↔ t.file.length + (sizeofPayload - 1) < 2 ^ 32 := by
  constructor
  · intro h
    by_contra hlarge
    have hwrap : 2 ^ 32 ≤ t.newFileSize.toNat + (sizeofPayload - 1) := by
      rw [h.size]
      omega
    have hcount := h.constructed
    rw [ServerTransaction.totalPacketNumber_wrap hwrap, chunkCount] at hcount
    have hpositive : 0 < (t.file.length + sizeofPayload - 1) / sizeofPayload :=
      Nat.div_pos (by omega) (by decide)
    rw [UInt32.toNat_zero] at hcount
    omega
  · intro hsmall
    have hsize : t.newFileSize.toNat = t.file.length := by
      rw [ServerTransaction.newFileSize, UInt32.toNat_ofNat', Nat.mod_eq_of_lt (by omega)]
    have hpos : t.newFileSize ≠ 0 := by
      intro hzero
      rw [hzero, UInt32.toNat_zero] at hsize
      omega
    refine ⟨hsize, ?_, ?_, ?_⟩
    · rw [ServerTransaction.totalPacketNumber_eq (by rwa [hsize]), hsize]
    · intro psn data
      change (ServerTransaction.headerTpn t.newFileSize).toNat = _
      rw [ServerTransaction.headerTpn, if_neg hpos, toNat_packetCount, hsize]
    · intro v dst r hfrom
      have hlength : r.msg.info.fileLength = t.newFileSize :=
        (ServerTransaction.arrived_of_from hfrom).word 1 _ rfl
      rw [← hsize, ← hlength]
      exact toNat_packetCount r.msg.info.fileLength

/-- A file of one byte is one packet. -/
theorem countsAgree_oneByte : oneByte.CountsAgree 1 := (countsAgree_iff (t := oneByte) (by decide)).mpr (by decide)

/-- A file of the largest size of 32 bits. -/
def largestFile : ServerTransaction := { oneByte with file := List.replicate (2 ^ 32 - 1) 0 }

/-- The constructor takes the largest file of 32-bit size for one without packets. -/
theorem counts_disagree : ¬∀ t : ServerTransaction, 1 ≤ t.file.length → t.CountsAgree t.file.length := by
  intro hclaim
  have hlength : largestFile.file.length = 2 ^ 32 - 1 := List.length_replicate
  have hagree := hclaim largestFile (by rw [hlength]; decide)
  have hcount := hagree.constructed
  have hwrap : 2 ^ 32 ≤ largestFile.newFileSize.toNat + (sizeofPayload - 1) := by
    rw [hagree.size, hlength]
    decide
  rw [ServerTransaction.totalPacketNumber_wrap hwrap, hlength] at hcount
  exact absurd hcount (by decide)

end Trftp
