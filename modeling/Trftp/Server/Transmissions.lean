import Trftp.Server.Handshake
import Trftp.Server.Slices

/-!
# Every packet is transmitted, and nothing else

The loop counter decides which slice of the file goes out, and the network decides in part
where the counter goes. The invariant of the sender loop keeps the counter below the packet
count at every transmission, so a transmission is the slice with its number, and the loop
ends by itself only when every number has had its turn.
-/

namespace Trftp

open Lib (EventMachine chunk)

/-- The bytes of the file that packet `psn` stands for. -/
def ServerTransaction.slice (t : ServerTransaction) (psn : UInt32) : List UInt8 :=
  (t.file.take (min t.file.length ((psn.toNat + 1) * sizeofPayload))).drop (psn.toNat * sizeofPayload)

namespace ServerTransaction

variable {t : ServerTransaction} {psn : UInt32}

/-- A size of 32 bits is announced as it is. -/
theorem newFileSize_eq (hsize : t.file.length < 2 ^ 32) : t.newFileSize.toNat = t.file.length := by
  rw [newFileSize, UInt32.toNat_ofNat', Nat.mod_eq_of_lt hsize]

/-- The whole file is served. -/
theorem served_eq (hsize : t.file.length < 2 ^ 32) : t.served = t.file := by
  rw [served, newFileSize_eq hsize, List.take_length]

/-- A chunk of a file of 32-bit size is a slice of it. -/
theorem chunk_eq_slice (hsize : t.file.length < 2 ^ 32) :
    chunk sizeofPayload t.served psn.toNat = t.slice psn := by
  have hend : (t.file.take (min t.file.length ((psn.toNat + 1) * sizeofPayload))) =
      t.file.take ((psn.toNat + 1) * sizeofPayload) := by
    rw [← List.take_take, List.take_of_length_le (List.length_take_le' _ _)]
  rw [chunk, served_eq hsize, slice, hend, List.drop_take, Nat.succ_mul, Nat.add_sub_cancel_left]

/-- Behind the header of a DATA datagram stands its payload. -/
theorem dataPacket_payload (hpsn : psn < t.totalPacketNumber) (dst : SockAddr) :
    (t.dataPacket dst psn (chunk sizeofPayload t.served psn.toNat)).bytes.drop sizeofHeader =
      chunk sizeofPayload t.served psn.toNat := by
  have hlen := toNat_dataLen hpsn
  have hstored : (t.dataMessage psn (chunk sizeofPayload t.served psn.toNat)).payload =
      TrftpMessage.blank.payload.store (chunk sizeofPayload t.served psn.toNat) := rfl
  rw [dataPacket, Packet.ofMessage, TrftpMessage.take_toBytes, List.drop_left' (by simp), hlen, hstored]
  exact Payload.take_store _ (by rw [← hlen]; exact dataLen_le hpsn)

end ServerTransaction

namespace ServerState

variable {t : ServerTransaction} {s s' : ServerState} {es e : List ServerEvent}

/-- A statement that transmits does so below the packet count, with the chunk of its number. -/
theorem step_transmitted {a : ServerAction} (hinv : SendingInv t es s) (h : s.step t a = some (s', e))
    {psn : UInt32} {p : Packet} (hmem : .transmitted psn p ∈ e) :
    psn < t.totalPacketNumber ∧
      p = t.dataPacket s.vars.clientAddress psn (chunk sizeofPayload t.served psn.toNat) := by
  obtain ⟨fileOk, rfl⟩ := step_ofLoop h hmem rfl
  have hsender := hinv.sender
  unfold SenderOk at hsender
  simp only [step] at h
  cases hpos : s.sender <;> simp only [senderStep, hpos] at h hsender
  case send =>
    have hlt : s.vars.packetSequenceNumber < t.totalPacketNumber := UInt32.lt_iff_toNat_lt.mpr hsender.1
    rw [ServerTransaction.readData_eq hlt] at h
    cases fileOk <;> cases h
    · simp at hmem
    · simp only [List.mem_singleton, ServerEvent.transmitted.injEq] at hmem
      obtain ⟨rfl, rfl⟩ := hmem
      exact ⟨hlt, rfl⟩
  all_goals
    repeat' split at h
    all_goals cases h
    all_goals simp at hmem

end ServerState

/-- Every transmission of a run is a packet of the transaction. -/
theorem transmitted_of_trace {t : ServerTransaction} {es : List ServerEvent} {s : ServerState}
    (h : (serverMachine t).Trace es s) {psn : UInt32} {p : Packet} (hmem : .transmitted psn p ∈ es) :
    psn < t.totalPacketNumber ∧
      ∃ dst, p = t.dataPacket dst psn (chunk sizeofPayload t.served psn.toNat) := by
  revert psn p
  refine h.invariant (I := fun es _ => ∀ {psn p}, .transmitted psn p ∈ es → psn < t.totalPacketNumber ∧
    ∃ dst, p = t.dataPacket dst psn (chunk sizeofPayload t.served psn.toNat)) ?_ ?_
  · intro s _ psn p hmem
    cases hmem
  · intro es s a s' e htrace ih hstep psn p hmem
    rcases List.mem_append.mp hmem with hold | hnew
    · exact ih hold
    · obtain ⟨hlt, hp⟩ := ServerState.step_transmitted (sendingInv_of_trace htrace) hstep hnew
      exact ⟨hlt, _, hp⟩

/-- The sender loop sends the slices of the file, and all of them.

Whatever requests are accepted on the way: a transmitted number is below the packet count, its
offset and its length are computed without a wrap, the length lies between one and the size of
the payload, and the payload is the slice with this number. If the loop ends by its condition,
every number below the packet count has been transmitted. -/
theorem transmitted_slices {t : ServerTransaction} {es : List ServerEvent} {s : ServerState}
    (h : (serverMachine t).Trace es s) (hsize : t.file.length < 2 ^ 32) :
    (∀ psn p, .transmitted psn p ∈ es →
      psn < t.totalPacketNumber ∧
      psn.toNat * sizeofPayload < t.file.length ∧
      (ServerTransaction.fileOffset psn).toNat = psn.toNat * sizeofPayload ∧
      (t.dataLen psn).toNat =
        (if psn = t.totalPacketNumber - 1 then t.file.length - psn.toNat * sizeofPayload else sizeofPayload) ∧
      1 ≤ (t.dataLen psn).toNat ∧ (t.dataLen psn).toNat ≤ sizeofPayload ∧
      (∃ dst, p = t.dataPacket dst psn (t.slice psn)) ∧ p.bytes.drop sizeofHeader = t.slice psn) ∧
    (s.sender = .finished →
      ∀ q < t.totalPacketNumber.toNat, ∃ psn p, ServerEvent.transmitted psn p ∈ es ∧ psn.toNat = q) := by
  have hfull := ServerTransaction.newFileSize_eq hsize
  constructor
  · intro psn p hmem
    obtain ⟨hpsn, dst, hp⟩ := transmitted_of_trace h hmem
    have hstart := (Lib.lt_chunkCount_iff (by decide)).mp (ServerTransaction.lt_chunkCount hpsn)
    rw [hfull] at hstart
    have hoffset := ServerTransaction.toNat_fileOffset hpsn
    have hlen := ServerTransaction.toNat_dataLen hpsn
    rw [Lib.length_chunk, ServerTransaction.length_served, hfull] at hlen
    have hpayload := ServerTransaction.dataPacket_payload hpsn dst
    rw [ServerTransaction.chunk_eq_slice hsize] at hp hpayload
    refine ⟨hpsn, hstart, hoffset, ?_, ?_, ServerTransaction.dataLen_le hpsn, ⟨dst, hp⟩, hp ▸ hpayload⟩
    · by_cases hlast : psn = t.totalPacketNumber - 1
      · rw [if_pos hlast, ServerTransaction.dataLen, if_pos hlast, UInt32.toNat_sub_of_le, hoffset, hfull]
        rw [UInt32.le_iff_toNat_le, hoffset, hfull]
        exact hstart.le
      · rw [if_neg hlast, ServerTransaction.dataLen, if_neg hlast]
        rfl
    · rw [hlen]
      unfold sizeofPayload at *
      omega
  · intro hfinished
    have hsender := (sendingInv_of_trace h).sender
    rw [ServerState.SenderOk, hfinished] at hsender
    exact hsender.1 ▸ hsender.2

/-- The transfer of one byte transmits its only packet. -/
theorem transmitted_slices_oneByte :
    ∃ s es, (serverMachine oneByte).exec oneByte.registeredState oneByteSchedule = some (s, es) ∧
      s.sender = .finished ∧
      ∃ psn p, ServerEvent.transmitted psn p ∈ es ∧ psn.toNat = 0 ∧
        p.bytes.drop sizeofHeader = oneByte.slice psn := by
  have hrun : ((serverMachine oneByte).exec oneByte.registeredState oneByteSchedule).map (·.1.sender) =
      some .finished := by decide +kernel
  obtain ⟨⟨s, es⟩, hexec, hfinished⟩ := Option.map_eq_some_iff.mp hrun
  obtain ⟨hslices, hall⟩ := transmitted_slices (EventMachine.exec_trace rfl hexec) (show 1 < 2 ^ 32 by decide)
  obtain ⟨psn, p, hmem, hpsn⟩ := hall hfinished 0 (by decide)
  exact ⟨s, es, hexec, hfinished, psn, p, hmem, hpsn, (hslices psn p hmem).2.2.2.2.2.2.2⟩

end Trftp
