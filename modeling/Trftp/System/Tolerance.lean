import Trftp.System.Safety

/-!
# Which datagrams of the server the client tolerates

The guards on the status stand before the comparison of the packet number, so the client asks
for a retransmission only if DATA comes in the status that its own number asks for. Everything
else that is late or repeated cancels the transfer. One packet never does: the empty last
packet is malformed and discarded.
-/

namespace Trftp

open Lib (EventMachine chunk chunkCount firstChunks)

/-- The client does not cancel because of this datagram of an honest server.

INFO has to come in CHK. DATA has to come in RDY if it is the first packet and in DATA if it is not.
If it is the expected packet it has to be stored, and behind the last packet the file has to
contain what was stored, which must have the announced checksum. -/
def Tolerates (t : ServerTransaction) (v : ClientVars) (r : Received) (ops : FileOps) : Prop :=
  if r.id? = some .info then v.status = .chk ∧ t.newFileSize ≠ 0 ∧ ops.openOk = true
  else
    t.EmptyLast r.msg.header.psn ∨
      (v.status = ClientTransaction.dataStatus r.msg.header ∧
        (r.msg.header.psn = 0 → sizeofPayload ≤ t.newFileSize.toNat) ∧
        (r.msg.header.psn = v.packetSequenceNumber → ops.writeOk = true ∧
          (v.packetSequenceNumber + 1 = v.totalPacketNumber →
            t.newFileSize.toNat ≤ ops.flushed ∧ calculateFileCrc32 (some t.served) = t.newFileCrc32)))

namespace ClientVars

variable {v : ClientVars} {ops : FileOps} {data : List UInt8}

/-- A closed stream is opened if the file system opens the file. -/
theorem openStream_isOpen (h : v.newFileStream.isOpen = false) :
    (v.openStream ops).newFileStream.isOpen = ops.openOk := by
  unfold openStream
  split_ifs with hopen hok
  · simp [h] at hopen
  · exact hok.symm
  · simpa [h] using hok

/-- A write to a good stream fails if the file system does not store the bytes. -/
theorem writeStream_failed (hopen : v.newFileStream.isOpen = true) (hgood : v.newFileStream.failed = false) :
    (v.writeStream ops data).newFileStream.failed = !ops.writeOk := by
  unfold writeStream
  split_ifs with hok
  · simp [hgood, hok.2.2]
  · simpa [hopen, hgood] using hok

end ClientVars

namespace ClientTransaction

variable {c : ClientTransaction} {t : ServerTransaction} {v w : ClientVars} {r : Received} {ops : FileOps}
  {e : List ClientEvent} {cur : List ClientEvent}

/-- The branch for INFO, on the INFO of an honest server. -/
theorem onInfo_status_iff (c : ClientTransaction) (ops : FileOps) (harrived : t.Arrived r .info)
    (hv : ContentOk t v) (hstatus : StatusOk cur v) :
    (c.onInfo v r ops).1.status ≠ .cxl ↔ v.status = .chk ∧ t.newFileSize ≠ 0 ∧ ops.openOk = true := by
  have hlen : r.payloadLen = 12 := harrived.payloadLen
  have hversion : r.msg.info.newFileVersion = t.newFileVersion := harrived.word 0 _ rfl
  have hsize : r.msg.info.fileLength = t.newFileSize := harrived.word 1 _ rfl
  unfold onInfo
  by_cases hchk : v.status = .chk
  · rw [ContentOk, hchk] at hv
    rw [StatusOk, hchk] at hstatus
    have hopen : ((informedVars v r.msg).openStream ops).newFileStream.isOpen = ops.openOk :=
      ClientVars.openStream_isOpen hstatus.1.isOpen
    have hv' : v.newFileVersion = t.newFileVersion := hv
    by_cases hzero : t.newFileSize = 0
    · simp [hchk, hlen, hversion, hv', hsize, hzero]
    · cases hok : ops.openOk <;> rw [hok] at hopen <;>
        simp [hchk, hlen, hversion, hv', hsize, hzero, sendReady, hopen, sendMessage, assignStatus]
  · simp [hchk]

/-- DATA of an honest server has the length that its number asks for, if the first packet is full. -/
theorem payloadLen_eq_dataLen_iff {psn : UInt32} (hpsn : psn < t.totalPacketNumber)
    (harrived : t.DataArrived r psn) (hsize : v.newFileSize = t.newFileSize)
    (hfull : ¬t.EmptyLast psn) :
    r.payloadLen = dataLen v r.msg.header ↔ (psn = 0 → sizeofPayload ≤ t.newFileSize.toNat) := by
  have hlen := harrived.payloadLen
  have hcount := ServerTransaction.lt_chunkCount hpsn
  unfold dataLen
  rw [harrived.number, harrived.tpn]
  by_cases hzero : psn = 0
  · subst hzero
    rw [Lib.length_chunk, ServerTransaction.length_served] at hlen
    simp only [if_true, forall_const, hlen, UInt32.toNat_zero, Nat.zero_mul, Nat.sub_zero]
    exact min_eq_left_iff
  · have hlt := UInt32.lt_iff_toNat_lt.mp hpsn
    have hpos : (1 : UInt32) ≤ t.totalPacketNumber := by
      rw [UInt32.le_iff_toNat_le, UInt32.toNat_one]
      omega
    simp only [hzero, if_false, false_imp_iff, iff_true]
    rw [hlen]
    split_ifs with hmiddle
    · rw [UInt32.lt_iff_toNat_lt, UInt32.toNat_sub_of_le _ _ hpos,
        ServerTransaction.totalPacketNumber_eq (ServerTransaction.no_wrap_of_lt hpsn)] at hmiddle
      refine Lib.length_chunk_of_succ_lt (by decide) ?_
      rw [ServerTransaction.length_served]
      simp only [UInt32.toNat_one] at hmiddle
      omega
    · -- the last packet holds the rest of the file, which is not empty
      rw [UInt32.lt_iff_toNat_lt, UInt32.toNat_sub_of_le _ _ hpos] at hmiddle
      simp only [UInt32.toNat_one] at hmiddle
      have hlast : psn = t.totalPacketNumber - 1 := (Lib.eq_pred_iff (by omega)).mpr (by omega)
      have hmod : t.newFileSize.toNat % sizeofPayload ≠ 0 := fun h0 => hfull ⟨hlast, h0⟩
      have hsucc := (ServerTransaction.eq_last_iff hpsn).mp hlast
      have hcover : t.newFileSize.toNat ≤ chunkCount sizeofPayload t.newFileSize.toNat * sizeofPayload :=
        Lib.le_chunkCount_mul (by decide)
      have hstart := (Lib.lt_chunkCount_iff (by decide)).mp hcount
      rw [Lib.length_chunk_last (by decide) (by rw [ServerTransaction.length_served]; exact hsucc),
        ServerTransaction.length_served, hsize]
      rw [← hsucc] at hcover
      unfold sizeofPayload at hcover hstart hmod ⊢
      omega

/-- The end of the branch for DATA, behind a successful write of the next chunk. -/
theorem sendDone_status_iff (c : ClientTransaction) (ops : FileOps) (hannounces : Announces t v)
    (hopen : v.newFileStream.isOpen = true) (hwritten : v.newFileStream.written = t.served) :
    (∃ w e, c.sendDone (v.closeStream ops) = some (w, e) ∧ w.status ≠ .cxl) ↔
      t.newFileSize.toNat ≤ ops.flushed ∧ calculateFileCrc32 (some t.served) = t.newFileCrc32 := by
  have hframe := ClientVars.closeStream_eq v ops
  have htemp : (v.closeStream ops).tempFile = some (v.newFileStream.written.take ops.flushed) :=
    ClientVars.closeStream_tempFile hopen
  have hsize : (v.closeStream ops).newFileSize = t.newFileSize := by rw [hframe]; exact hannounces.size
  have hcrc : (v.closeStream ops).newFileCrc32 = t.newFileCrc32 := by rw [hframe]; exact hannounces.crc
  have hlength : (t.served.take ops.flushed).length = min ops.flushed t.newFileSize.toNat := by
    rw [List.length_take, ServerTransaction.length_served]
  rw [hwritten] at htemp
  unfold sendDone
  rw [htemp]
  simp only [hsize, hcrc, hlength]
  by_cases hflushed : t.newFileSize.toNat ≤ ops.flushed
  · have htake : t.served.take ops.flushed = t.served :=
      List.take_of_length_le (by rwa [ServerTransaction.length_served])
    rw [htake, Nat.min_eq_right hflushed]
    by_cases heq : calculateFileCrc32 (some t.served) = t.newFileCrc32
    · simp [heq, hflushed, sendMessage, assignStatus]
    · simp [Ne.symm heq, heq, hflushed]
  · have hne : t.newFileSize.toNat ≠ min ops.flushed t.newFileSize.toNat := by omega
    simp [hne, hflushed]

/-- The branch for DATA, behind the checks of the expected packet. -/
theorem afterWrite_status_iff (c : ClientTransaction) (ops : FileOps) {psn : UInt32}
    (hannounces : Announces t v)
    (htrans : Transferring cur v) (hexpected : psn = v.packetSequenceNumber)
    (hwritten : v.newFileStream.written = firstChunks sizeofPayload t.served v.packetSequenceNumber.toNat) :
    (∃ w e, c.afterWrite (v.writeStream ops (chunk sizeofPayload t.served psn.toNat)) ops = some (w, e) ∧
      w.status ≠ .cxl) ↔
      ops.writeOk = true ∧ (v.packetSequenceNumber + 1 = v.totalPacketNumber →
        t.newFileSize.toNat ≤ ops.flushed ∧ calculateFileCrc32 (some t.served) = t.newFileCrc32) := by
  have hfailed : (v.writeStream ops (chunk sizeofPayload t.served psn.toNat)).newFileStream.failed =
      !ops.writeOk := ClientVars.writeStream_failed htrans.isOpen htrans.good
  have hframe := ClientVars.writeStream_eq v ops (chunk sizeofPayload t.served psn.toNat)
  have hstream : ops.writeOk = true →
      (v.writeStream ops (chunk sizeofPayload t.served psn.toNat)).newFileStream =
        ⟨true, false, v.newFileStream.written ++ chunk sizeofPayload t.served psn.toNat⟩ := fun hok =>
    ClientVars.writeStream_stream (by rw [hfailed, hok]; rfl)
  generalize v.writeStream ops (chunk sizeofPayload t.served psn.toNat) = u at hfailed hframe hstream
  have hcounted : (countedVars u).packetSequenceNumber = v.packetSequenceNumber + 1 := by rw [hframe]; rfl
  have htotal : u.totalPacketNumber = v.totalPacketNumber := by rw [hframe]
  unfold afterWrite
  rw [hcounted, htotal, hfailed]
  cases hok : ops.writeOk with
  | false => simp
  | true =>
    by_cases hlast : v.packetSequenceNumber + 1 = v.totalPacketNumber
    case neg => simp [hlast, countedVars]
    case pos =>
      -- the last chunk completes the served file
      have hcount : v.packetSequenceNumber.toNat + 1 = chunkCount sizeofPayload t.newFileSize.toNat := by
        rw [← hannounces.total, ← hlast,
          Lib.toNat_succ_of_lt (UInt32.lt_iff_toNat_lt.mp htrans.range)]
      have hcover : t.newFileSize.toNat ≤ chunkCount sizeofPayload t.newFileSize.toNat * sizeofPayload :=
        Lib.le_chunkCount_mul (by decide)
      have hserved : v.newFileStream.written ++ chunk sizeofPayload t.served psn.toNat = t.served := by
        rw [hwritten, hexpected, Lib.firstChunks_append_chunk, hcount, Lib.firstChunks_of_covered]
        rwa [ServerTransaction.length_served]
      have hannounces' : Announces t (countedVars u) := by
        rw [hframe]
        exact ⟨hannounces.version, hannounces.size, hannounces.crc, hannounces.total⟩
      have hdone := sendDone_status_iff c ops hannounces'
        (congrArg OutStream.isOpen (hstream hok)) ((congrArg OutStream.written (hstream hok)).trans hserved)
      simpa [hlast] using hdone

/-- The branch for DATA, on DATA of an honest server that is not malformed. -/
theorem onData_status_iff (c : ClientTransaction) (ops : FileOps) {psn : UInt32} (hpsn : psn < t.totalPacketNumber)
    (harrived : t.DataArrived r psn) (hfull : ¬t.EmptyLast psn) (hv : ContentOk t v)
    (hstatus : StatusOk cur v) :
    (∃ w e, c.onData v r ops = some (w, e) ∧ w.status ≠ .cxl) ↔
      v.status = dataStatus r.msg.header ∧ (psn = 0 → sizeofPayload ≤ t.newFileSize.toNat) ∧
        (psn = v.packetSequenceNumber → ops.writeOk = true ∧
          (v.packetSequenceNumber + 1 = v.totalPacketNumber →
            t.newFileSize.toNat ≤ ops.flushed ∧ calculateFileCrc32 (some t.served) = t.newFileCrc32)) := by
  by_cases hdata : v.status = dataStatus r.msg.header
  case neg => simp [onData, hdata]
  obtain ⟨hannounces, hwritten⟩ := receiving_of_dataStatus hdata hv
  have htrans := transferring_of_dataStatus hdata hstatus
  have hlen := payloadLen_eq_dataLen_iff (v := v) hpsn harrived hannounces.size hfull
  by_cases hfirst : psn = 0 → sizeofPayload ≤ t.newFileSize.toNat
  case neg =>
    have hbad : r.payloadLen ≠ dataLen v r.msg.header := fun heq => hfirst (hlen.mp heq)
    simp [onData, hdata, hbad, hfirst]
  have hgood := hlen.mpr hfirst
  by_cases hexpected : psn = v.packetSequenceNumber
  case neg =>
    have hkeep : v.status ≠ .cxl := by
      rw [hdata, dataStatus]
      split_ifs <;> simp
    have hrequest : c.onData v r ops = some (c.sendMessage v .rtx) := by
      simp [onData, hdata, hgood, hexpected, harrived.number]
    exact ⟨fun _ => ⟨hdata, hfirst, fun heq => absurd heq hexpected⟩,
      fun _ => ⟨v, _, hrequest, hkeep⟩⟩
  have hafter := afterWrite_status_iff c ops hannounces htrans hexpected hwritten
  have hwrite : c.onData v r ops =
      (c.afterWrite (v.writeStream ops (chunk sizeofPayload t.served psn.toNat)) ops).map fun p =>
        (p.1, .wrote (chunk sizeofPayload t.served psn.toNat) :: p.2) := by
    rw [onData, if_neg (not_not.mpr hdata), if_neg (not_not.mpr hgood), harrived.number,
      if_neg (not_not.mpr hexpected), harrived.payload]
  rw [hwrite, and_iff_right hdata, and_iff_right hfirst, forall_prop_of_true hexpected, ← hafter]
  constructor
  · rintro ⟨w, e, heq, hne⟩
    obtain ⟨⟨w', e'⟩, hrun, hpair⟩ := Option.map_eq_some_iff.mp heq
    cases hpair
    exact ⟨_, _, hrun, hne⟩
  · rintro ⟨w, e, hrun, hne⟩
    exact ⟨w, _, by rw [hrun]; rfl, hne⟩

/-- `OnReceive`, on a datagram of an honest server. -/
theorem onReceive_status_iff {tr : Transfer} {es : List SystemEvent} {id : MessageId} {p : Packet}
    (hgen : Genuine tr es id p) (hid : id = .info ∨ id = .data) (hfrom : r.From p) (hv : ContentOk tr.server v)
    (hstatus : StatusOk cur v) (hactive : v.status ≠ .cxl) :
    (∃ w e, c.onReceive v r ops = some (w, e) ∧ w.status ≠ .cxl) ↔ Tolerates tr.server v r ops := by
  have hkind := hgen.id?_eq hfrom
  unfold onReceive validateMessageIntegrity Tolerates
  rcases hid with rfl | rfl
  case inl =>
    have harrived := hgen.arrived hfrom (Or.inr rfl)
    have hinfo := onInfo_status_iff c ops harrived (hv.heardFrom r.addr) (hstatus.heardFrom r.addr)
    simp only [harrived.intact, hkind, Bool.not_true, Bool.false_eq_true, if_false, if_true]
    constructor
    · rintro ⟨w, e, heq, hne⟩
      exact hinfo.mp (by rw [Option.some.inj heq]; exact hne)
    · exact fun htolerates => ⟨_, _, rfl, hinfo.mpr htolerates⟩
  case inr =>
    obtain ⟨psn, hpsn, harrived⟩ := hgen.dataArrived hfrom
    by_cases hfull : tr.server.EmptyLast psn
    · -- the header announces an empty payload, so the message is discarded
      have hbad : r.msg.intact r.len = false := by
        rw [← Bool.not_eq_true, harrived.intact]
        exact not_not.mpr hfull
      simpa [hbad, hkind, harrived.number, hfull] using hactive
    · have hdata := onData_status_iff c ops hpsn harrived hfull (hv.heardFrom r.addr)
        (hstatus.heardFrom r.addr)
      have hgood : r.msg.intact r.len = true := harrived.intact.mpr hfull
      simpa [hgood, hkind, harrived.number, hfull] using hdata

end ClientTransaction

/-- The client tolerates a datagram of the server in exactly these cases.

The client, which handles one datagram at a time, is in CHK, RDY, DATA or DONE in a reachable state of
the transfer, and a datagram that the server has sent, INFO or DATA, is delivered to it: late, repeated,
or behind others that were lost. `OnReceive` takes the protocol step, asks for the expected packet or
ignores the datagram if and only if the datagram is tolerated. -/
theorem datagram_tolerated_iff {tr : Transfer} {es : List SystemEvent} {s : SystemState} {p : Packet}
    {r : Received} (ops : FileOps) (h : (systemMachine tr).Trace es s)
    (hstatus : s.client.vars.status = .chk ∨ s.client.vars.status = .rdy ∨ s.client.vars.status = .data ∨
      s.client.vars.status = .done)
    (hsent : p ∈ s.net) (hfrom : r.From p) (hkind : r.id? = some .info ∨ r.id? = some .data) :
    (∃ w e, tr.client.onReceive s.client.vars r ops = some (w, e) ∧ w.status ≠ .cxl ∧
      ClientTransaction.Reaction tr.client (s.client.vars.heardFrom r.addr) r ops w e) ↔
    Tolerates tr.server s.client.vars r ops := by
  have hinv := systemInv_of_trace h
  have hclient : ClientInv (es.filterMap SystemEvent.client?) s.client :=
    clientInv_of_trace ((clientProjection tr).trace h)
  obtain ⟨id, hgen⟩ := hinv.net.genuine p hsent
  have hid : id = .info ∨ id = .data := by
    have hsome := hgen.id?_eq hfrom
    rcases hkind with hkind | hkind <;> rw [hkind] at hsome <;> cases hsome
    · exact Or.inl rfl
    · exact Or.inr rfl
  have hactive : s.client.vars.status ≠ .cxl := by
    rcases hstatus with hs | hs | hs | hs <;> simp [hs]
  rw [← ClientTransaction.onReceive_status_iff hgen hid hfrom hinv.content hclient.status hactive]
  constructor
  · rintro ⟨w, e, hrun, hne, -⟩
    exact ⟨w, e, hrun, hne⟩
  · rintro ⟨w, e, hrun, hne⟩
    exact ⟨w, e, hrun, hne, (ClientTransaction.onReceive_reaction hrun).1⟩

/-- The statements after which the client has the first of two packets. -/
def halfSchedule : List SystemAction :=
  List.flatten [untilData, List.replicate 16 (.server (.sender true)), [deliverFirst]]

/-- The client has the first packet, and both packets were sent. -/
theorem halfSchedule_exec :
    ∃ s es, (systemMachine smallTransfer).exec smallStart halfSchedule = some (s, es) ∧
      s.client.vars.status = .data ∧
      twoPackets.dataPacket smallClient.udpSocket 0 (List.replicate 1408 0) ∈ s.net ∧
      twoPackets.dataPacket smallClient.udpSocket 1 [0] ∈ s.net ∧
      (smallClient.onReceive s.client.vars firstReceived roomyDisk).map (·.1.status) = some .cxl ∧
      (smallClient.onReceive s.client.vars secondReceived roomyDisk).map (·.1.status) = some .done := by
  have hrun : ((systemMachine smallTransfer).exec smallStart halfSchedule).map (fun p =>
      (p.1.client.vars.status,
        decide (twoPackets.dataPacket smallClient.udpSocket 0 (List.replicate 1408 0) ∈ p.1.net),
        decide (twoPackets.dataPacket smallClient.udpSocket 1 [0] ∈ p.1.net),
        (smallClient.onReceive p.1.client.vars firstReceived roomyDisk).map (·.1.status),
        (smallClient.onReceive p.1.client.vars secondReceived roomyDisk).map (·.1.status))) =
      some (.data, true, true, some .cxl, some .done) := by decide +kernel
  obtain ⟨⟨s, es⟩, hexec, hs⟩ := Option.map_eq_some_iff.mp hrun
  simp only [Prod.mk.injEq, decide_eq_true_eq] at hs
  exact ⟨s, es, hexec, hs⟩

/-- The expected packet is tolerated. -/
theorem datagram_tolerated_second :
    ∃ s es, (systemMachine smallTransfer).exec smallStart halfSchedule = some (s, es) ∧
      Tolerates twoPackets s.client.vars secondReceived roomyDisk := by
  obtain ⟨s, es, hexec, hstatus, -, hsent, -, hdone⟩ := halfSchedule_exec
  have htrace : (systemMachine smallTransfer).Trace es s :=
    EventMachine.exec_trace ⟨rfl, ⟨none, rfl⟩, rfl⟩ hexec
  obtain ⟨⟨w, e⟩, hrun, hw⟩ := Option.map_eq_some_iff.mp hdone
  refine ⟨s, es, hexec, (datagram_tolerated_iff roomyDisk htrace (Or.inr (Or.inr (Or.inl hstatus))) hsent
    (by decide +kernel) (by decide +kernel)).mp ⟨w, e, hrun, ?_, ?_⟩⟩
  · simp [show w.status = .done from hw]
  · exact (ClientTransaction.onReceive_reaction hrun).1

/-- The first packet, delivered again, makes the client cancel. -/
theorem datagram_not_tolerated :
    ¬∀ (tr : Transfer) (es : List SystemEvent) (s : SystemState) (p : Packet) (r : Received) (ops : FileOps),
      1 < tr.server.totalPacketNumber.toNat → (systemMachine tr).Trace es s →
      s.client.vars.status = .data → p ∈ s.net → r.From p → r.id? = some .data →
      ∀ w e, tr.client.onReceive s.client.vars r ops = some (w, e) → w.status ≠ .cxl := by
  intro hclaim
  obtain ⟨s, es, hexec, hstatus, hsent, -, hcxl, -⟩ := halfSchedule_exec
  have htrace : (systemMachine smallTransfer).Trace es s :=
    EventMachine.exec_trace ⟨rfl, ⟨none, rfl⟩, rfl⟩ hexec
  obtain ⟨⟨w, e⟩, hrun, hw⟩ := Option.map_eq_some_iff.mp hcxl
  exact hclaim smallTransfer es s _ firstReceived roomyDisk (by decide +kernel) htrace hstatus hsent
    (by decide +kernel) (by decide +kernel) w e hrun hw

end Trftp
