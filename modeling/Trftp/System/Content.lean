import Trftp.System.Genuine

/-!
# The client's file is a prefix of the served file

Packets that are lost, repeated or reordered do not matter: the client writes a packet only if
its number is the expected one, and the packet with that number carries the next chunk of
the served file. Entering DONE takes the whole file, and it takes one of the sizes on whose
packets the two sides agree.
-/

namespace Trftp

open Lib (chunkCount firstChunks)

/-- What each status of the client says about the served file. -/
def ContentOk (t : ServerTransaction) (v : ClientVars) : Prop :=
  match v.status with
  | .chk => v.newFileVersion = t.newFileVersion
  | .rdy | .data =>
    Announces t v ∧
      v.newFileStream.written = firstChunks sizeofPayload t.served v.packetSequenceNumber.toNat
  | .done =>
    Announces t v ∧ v.tempFile = some t.served ∧
      t.newFileSize.toNat ≤ v.packetSequenceNumber.toNat * sizeofPayload
  | _ => True

/-- The status says nothing about the server's address. -/
theorem ContentOk.heardFrom {t : ServerTransaction} {v : ClientVars} (h : ContentOk t v)
    (addr : SockAddr) : ContentOk t (v.heardFrom addr) := by
  unfold ContentOk at h ⊢
  cases hstatus : v.status <;> simp only [ClientVars.heardFrom, hstatus] at h ⊢
  case chk => exact h
  case rdy | data => exact ⟨⟨h.1.version, h.1.size, h.1.crc, h.1.total⟩, h.2⟩
  case done => exact ⟨⟨h.1.version, h.1.size, h.1.crc, h.1.total⟩, h.2⟩

/-- A file of the announced length that is the front of all packets is the served file. -/
theorem Announces.served_of_length {t : ServerTransaction} {v : ClientVars} (h : Announces t v)
    (hcover : t.newFileSize.toNat ≤ v.packetSequenceNumber.toNat * sizeofPayload)
    (hwritten : v.newFileStream.written = firstChunks sizeofPayload t.served v.packetSequenceNumber.toNat)
    {file : List UInt8} {flushed : ℕ} (hfile : some (v.newFileStream.written.take flushed) = some file)
    (hlength : file.length = v.newFileSize.toNat) : file = t.served := by
  rw [hwritten, Lib.firstChunks_of_covered (by rwa [ServerTransaction.length_served])] at hfile
  cases hfile
  rw [List.length_take, ServerTransaction.length_served, h.size] at hlength
  refine List.take_of_length_le ?_
  rw [ServerTransaction.length_served]
  omega

namespace ClientTransaction

variable {tr : Transfer} {v w : ClientVars} {r : Received} {ops : FileOps} {e : List ClientEvent}
  {es : List SystemEvent} {cur : List ClientEvent} {id : MessageId} {p : Packet}

/-- An accepted INFO announces the served file. -/
theorem Informed.contentOk (h : Informed tr.client v w r ops e) (harrived : tr.server.Arrived r .info)
    (hv : ContentOk tr.server v) (hstatus : StatusOk cur v) : ContentOk tr.server w := by
  rw [ContentOk, h.chk] at hv
  rw [StatusOk, h.chk] at hstatus
  have hopened : ((informedVars v r.msg).openStream ops).newFileStream.isOpen = true := by
    have hopened := h.opened
    rwa [h.vars] at hopened
  have hstream := ClientVars.openStream_stream (v := informedVars v r.msg) hstatus.1.isOpen hopened
  have hframe := ClientVars.openStream_eq (informedVars v r.msg) ops
  have hsize : r.msg.info.fileLength = tr.server.newFileSize := harrived.word 1 _ rfl
  have hcrc : r.msg.info.crc32 = tr.server.newFileCrc32 := harrived.word 2 _ rfl
  rw [h.vars, ContentOk]
  refine ⟨⟨?_, ?_, ?_, ?_⟩, ?_⟩
  · rw [hframe]
    exact hv
  · rw [hframe]
    exact hsize
  · rw [hframe]
    exact hcrc
  · rw [hframe]
    simp only [informedVars, hsize]
    exact toNat_packetCount _
  · simp only [hstream]
    rw [hframe]
    simp [informedVars, hstatus.1.psn]

/-- The facts of the statuses in which DATA is expected. -/
theorem receiving_of_dataStatus {t : ServerTransaction} (hstatus : v.status = dataStatus r.msg.header)
    (hv : ContentOk t v) :
    Announces t v ∧
      v.newFileStream.written = firstChunks sizeofPayload t.served v.packetSequenceNumber.toNat := by
  unfold dataStatus at hstatus
  split_ifs at hstatus <;> simpa [ContentOk, hstatus] using hv

/-- The expected packet carries the chunk behind the prefix. -/
theorem Expected.written_eq {t : ServerTransaction} (h : Expected v r) {psn : UInt32} (harrived : t.DataArrived r psn)
    (hrange : v.packetSequenceNumber < v.totalPacketNumber)
    (hwritten : v.newFileStream.written = firstChunks sizeofPayload t.served v.packetSequenceNumber.toNat) :
    v.newFileStream.written ++ r.msg.payload.bytes.take r.payloadLen =
      firstChunks sizeofPayload t.served (v.packetSequenceNumber + 1).toNat := by
  have hpsn : psn = v.packetSequenceNumber := harrived.number.symm.trans h.psn
  subst hpsn
  rw [Lib.toNat_succ_of_lt (UInt32.lt_iff_toNat_lt.mp hrange), hwritten, harrived.payload,
    Lib.firstChunks_append_chunk]

/-- The expected packet extends the prefix by its chunk. -/
theorem Expected.contentOk (h : Expected v r) {psn : UInt32} (harrived : tr.server.DataArrived r psn)
    (hv : ContentOk tr.server v) (hstatus : StatusOk cur v) :
    ContentOk tr.server (writtenVars v r) := by
  obtain ⟨hannounces, hwritten⟩ := receiving_of_dataStatus h.status hv
  have htrans := transferring_of_dataStatus h.status hstatus
  exact ⟨⟨hannounces.version, hannounces.size, hannounces.crc, hannounces.total⟩,
    h.written_eq harrived htrans.range hwritten⟩

/-- The last packet is accepted for a transferable size only: a single packet is never full, and a
full last packet is malformed. -/
theorem Expected.transferable {t : ServerTransaction} (h : Expected v r) {psn : UInt32}
    (hpsn : psn < t.totalPacketNumber) (harrived : t.DataArrived r psn) (hintact : r.msg.intact r.len = true)
    (hlast : v.packetSequenceNumber + 1 = v.totalPacketNumber) (hannounces : Announces t v)
    (hbelow : v.packetSequenceNumber < v.totalPacketNumber) : t.Transferable := by
  have hrange := UInt32.lt_iff_toNat_lt.mp hbelow
  have hnumber : psn = v.packetSequenceNumber := harrived.number.symm.trans h.psn
  have hsucc : psn.toNat + 1 = chunkCount sizeofPayload t.newFileSize.toNat := by
    rw [hnumber, ← hannounces.total, ← hlast, Lib.toNat_succ_of_lt hrange]
  have heqlast := (ServerTransaction.eq_last_iff hpsn).mpr hsucc
  have hmod : t.newFileSize.toNat % sizeofPayload ≠ 0 := fun h0 =>
    harrived.intact.mp hintact ⟨heqlast, h0⟩
  refine ⟨?_, hmod, ServerTransaction.no_wrap_of_lt hpsn⟩
  by_contra hsmall
  have hlen := harrived.payloadLen
  have hzero : psn.toNat = 0 := by
    have hcount : chunkCount sizeofPayload t.newFileSize.toNat ≤ 1 := by
      refine Nat.le_of_not_lt fun hone => ?_
      have hmany := (Lib.lt_chunkCount_iff (by decide)).mp hone
      omega
    omega
  have hheader : r.msg.header.psn = 0 := by
    rw [harrived.number, ← UInt32.toNat_inj, hzero, UInt32.toNat_zero]
  -- the first packet must be full, and it is the whole file
  rw [h.length, dataLen, if_pos hheader, Lib.length_chunk, hzero, ServerTransaction.length_served] at hlen
  refine hmod ?_
  unfold sizeofPayload at hlen hsmall ⊢
  omega

/-- The finished file is the served file. -/
theorem Completed.contentOk (hdone : Completed tr.client (writtenVars v r) w ops e)
    (hlast : v.packetSequenceNumber + 1 = v.totalPacketNumber)
    (hwritten : ContentOk tr.server (writtenVars v r)) :
    ContentOk tr.server w ∧ ∀ file, .verified file ∈ e → file = tr.server.served := by
  obtain ⟨hannounces, hprefix⟩ : Announces tr.server (writtenVars v r) ∧ _ := hwritten
  obtain ⟨file, hfile, hlength, hcrc, rfl⟩ := hdone.file
  have hframe := ClientVars.closeStream_eq (writtenVars v r) ops
  have hcount : (writtenVars v r).packetSequenceNumber.toNat =
      chunkCount sizeofPayload tr.server.newFileSize.toNat := by
    rw [← hannounces.total]
    exact congrArg UInt32.toNat hlast
  have hcover : tr.server.newFileSize.toNat ≤
      (writtenVars v r).packetSequenceNumber.toNat * sizeofPayload := by
    rw [hcount]
    exact Lib.le_chunkCount_mul (by decide)
  have hserved : file = tr.server.served := by
    rw [ClientVars.closeStream_tempFile (v := writtenVars v r) rfl] at hfile
    exact hannounces.served_of_length hcover hprefix hfile hlength
  have hw := hdone.vars
  have htemp : w.tempFile = some tr.server.served := by
    rw [hw, ← hserved]
    exact hfile
  refine ⟨?_, fun file' hmem => ?_⟩
  · rw [hw, hframe, ContentOk]
    rw [hw] at htemp
    exact ⟨⟨hannounces.version, hannounces.size, hannounces.crc, hannounces.total⟩, hfile.trans (by rw [hserved]),
      hcover⟩
  · simp only [List.mem_cons, ClientEvent.verified.injEq, List.not_mem_nil, or_false, reduceCtorEq] at hmem
    rw [hmem, hserved]

end ClientTransaction

end Trftp
