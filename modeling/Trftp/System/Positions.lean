import Trftp.System.Threads
import Trftp.System.Safety

/-!
# What the client knows at each statement of `OnReceive`

Between two messages the status says what the client has been told and what it has written. Inside
`OnReceive` the members are behind or ahead of the status, and the position of the thread says by
how much. Each statement leads from what holds in front of it to what holds in front of the next
one, as long as nobody else touches the members.
-/

namespace Trftp

open Lib (chunkCount firstChunks)

/-- The client knows the version of the served file, and has not asked for it yet. -/
structure Untold (t : ServerTransaction) (v : ClientVars) : Prop where
  version : v.newFileVersion = t.newFileVersion
  closed : v.newFileStream.isOpen = false
  psn : v.packetSequenceNumber = 0

/-- The client has written all packets before the one that it expects. -/
structure Receiving (t : ServerTransaction) (v : ClientVars) : Prop where
  announces : Announces t v
  isOpen : v.newFileStream.isOpen = true
  good : v.newFileStream.failed = false
  range : v.packetSequenceNumber < v.totalPacketNumber
  written : v.newFileStream.written = firstChunks sizeofPayload t.served v.packetSequenceNumber.toNat

/-- The client has written the packet that it expected, and has not counted it yet. -/
structure Written (t : ServerTransaction) (v : ClientVars) : Prop where
  announces : Announces t v
  isOpen : v.newFileStream.isOpen = true
  good : v.newFileStream.failed = false
  range : v.packetSequenceNumber < v.totalPacketNumber
  written : v.newFileStream.written = firstChunks sizeofPayload t.served (v.packetSequenceNumber + 1).toNat
  last : v.packetSequenceNumber + 1 = v.totalPacketNumber → t.Transferable

/-- The client has counted the packet, which may have been the last one. -/
structure Counted (t : ServerTransaction) (v : ClientVars) : Prop where
  announces : Announces t v
  isOpen : v.newFileStream.isOpen = true
  good : v.newFileStream.failed = false
  range : v.packetSequenceNumber.toNat ≤ v.totalPacketNumber.toNat
  written : v.newFileStream.written = firstChunks sizeofPayload t.served v.packetSequenceNumber.toNat
  last : v.packetSequenceNumber = v.totalPacketNumber → t.Transferable

/-- The client has closed the file behind the last packet. -/
structure Closed (t : ServerTransaction) (v : ClientVars) : Prop where
  announces : Announces t v
  closed : v.newFileStream.isOpen = false
  last : v.packetSequenceNumber = v.totalPacketNumber
  written : v.newFileStream.written = firstChunks sizeofPayload t.served v.packetSequenceNumber.toNat
  transferable : t.Transferable
  file : ∃ flushed, v.tempFile = some (v.newFileStream.written.take flushed)

/-- The served file lies at the client's path. -/
structure Delivered (t : ServerTransaction) (v : ClientVars) : Prop where
  announces : Announces t v
  closed : v.newFileStream.isOpen = false
  file : v.tempFile = some t.served
  cover : t.newFileSize.toNat ≤ v.packetSequenceNumber.toNat * sizeofPayload
  transferable : t.Transferable

/-- What the status says between two messages. -/
def Settled (t : ServerTransaction) (v : ClientVars) : Prop :=
  match v.status with
  | .ntf | .chk => Untold t v
  | .rdy | .data => Receiving t v
  | .done => Delivered t v
  | .info | .rtx | .fin | .cxl => True

/-- What the status says about the file at any time, except between a write and its counting. -/
structure Shown (t : ServerTransaction) (v : ClientVars) : Prop where
  data : v.status = .rdy ∨ v.status = .data → Announces t v ∧
    v.newFileStream.written = firstChunks sizeofPayload t.served v.packetSequenceNumber.toNat
  done : v.status = .done → Delivered t v

/-- Statuses that say nothing about the file. -/
def MessageId.Quiet (id : MessageId) : Prop := id ≠ .rdy ∧ id ≠ .data ∧ id ≠ .done

instance (id : MessageId) : Decidable id.Quiet := inferInstanceAs (Decidable (_ ∧ _))

/-- What holds in front of each statement of `OnReceive` in the receive loop; `verified` says that the served
file was verified. Two of the statements are those of the main loop only. -/
def AtPos (t : ServerTransaction) (verified : Prop) (v : ClientVars) (r : Received) : ReceivePos → Prop
  | .hear | .check | .ntfStatus | .infoTest | .dataTest | .finTest | .cxlOpen => Settled t v
  | .ntfVersion | .ntfJoin => v.status.Quiet
  | .infoMatch => v.status = .chk ∧ Untold t v
  | .infoStatus => v.status = .chk ∧ Untold t v ∧ t.newFileSize ≠ 0
  | .infoSize => v.status = .info ∧ Untold t v ∧ t.newFileSize ≠ 0
  | .infoCrc => v.status = .info ∧ Untold t v ∧ t.newFileSize ≠ 0 ∧ v.newFileSize = t.newFileSize
  | .infoTotal =>
    v.status = .info ∧ Untold t v ∧ t.newFileSize ≠ 0 ∧ v.newFileSize = t.newFileSize ∧
      v.newFileCrc32 = t.newFileCrc32
  | .infoOpen => v.status = .info ∧ Untold t v ∧ Announces t v ∧ 0 < v.totalPacketNumber
  | .infoOpened =>
    v.status = .info ∧ Announces t v ∧ 0 < v.totalPacketNumber ∧ v.packetSequenceNumber = 0 ∧
      (v.newFileStream.isOpen = true → v.newFileStream = ⟨true, false, []⟩)
  | .dataLength => v.status = ClientTransaction.dataStatus r.msg.header ∧ Receiving t v
  | .dataNumber =>
    v.status = ClientTransaction.dataStatus r.msg.header ∧
      r.payloadLen = ClientTransaction.dataLen v r.msg.header ∧ Receiving t v
  | .dataWrite => ClientTransaction.Expected v r ∧ Receiving t v
  | .dataWritten =>
    (v.status = .rdy ∨ v.status = .data) ∧
      ((v.newFileStream.failed = true ∧ Shown t v) ∨ (v.newFileStream.failed = false ∧ Written t v))
  | .dataStatus => (v.status = .rdy ∨ v.status = .data) ∧ Written t v
  | .dataCount => v.status = .data ∧ Written t v
  | .dataLast => v.status = .data ∧ Counted t v
  | .dataClose => v.status = .data ∧ Counted t v ∧ v.packetSequenceNumber = v.totalPacketNumber
  | .dataSize => v.status = .data ∧ Closed t v
  | .dataCrc => v.status = .data ∧ Closed t v ∧ v.tempFile = some t.served
  | .finStatus => v.status = .done ∧ Delivered t v
  | .finDead => v.status = .fin ∧ v.newFileVersion = t.newFileVersion
  | .finCall => v.status = .fin ∧ v.isActive = false ∧ v.newFileVersion = t.newFileVersion
  | .cxlClose | .cxlRemove => Shown t v ∧ v.status ≠ .done
  | .cxlStatus | .store .cxl => Shown t v
  | .dead => v.status.Quiet
  | .send .cxl => v.status.Quiet ∧ v.isActive = false
  | .store .rdy => v.status = .info ∧ Receiving t v
  | .send .rdy | .send .rtx => Settled t v
  | .store .done => v.status = .data ∧ Closed t v ∧ Delivered t v ∧ verified
  | .send .done => v.status = .done ∧ Delivered t v ∧ verified
  | .ntfStart | .store _ | .send _ => False

/-- How many packets the file is ahead of the counter. -/
def ReceivePos.uncounted (failed : Bool) : ReceivePos → ℕ
  | .dataWritten => if failed then 0 else 1
  | .dataStatus | .dataCount => 1
  | .hear | .check | .ntfStatus | .ntfVersion | .ntfJoin | .ntfStart | .store _ | .dead | .send _ => 0
  | .infoTest | .infoMatch | .infoStatus | .infoSize | .infoCrc | .infoTotal | .infoOpen | .infoOpened => 0
  | .dataTest | .dataLength | .dataNumber | .dataWrite | .dataLast | .dataClose | .dataSize | .dataCrc => 0
  | .finTest | .finStatus | .finDead | .finCall | .cxlOpen | .cxlClose | .cxlRemove | .cxlStatus => 0

/-- Where the receive loop may be as long as the main loop has not stored CHK. -/
def ReceivePos.early : ReceivePos → Bool
  | .hear | .check | .ntfStatus | .ntfVersion | .ntfJoin | .infoTest | .dataTest | .finTest => true
  | .cxlOpen | .cxlStatus | .store .cxl | .dead | .send .cxl => true
  | .infoMatch | .infoStatus | .infoSize | .infoCrc | .infoTotal | .infoOpen | .infoOpened => false
  | .dataLength | .dataNumber | .dataWrite | .dataWritten | .dataStatus | .dataCount => false
  | .dataLast | .dataClose | .dataSize | .dataCrc | .finStatus | .finDead | .finCall => false
  | .cxlClose | .cxlRemove | .ntfStart | .store _ | .send _ => false

variable {t : ServerTransaction} {v w : ClientVars}

/-- Statuses without a file. -/
theorem Shown.of_quiet (h : v.status.Quiet) : Shown t v :=
  ⟨fun hdata => (hdata.elim h.1 h.2.1).elim, fun hdone => absurd hdone h.2.2⟩

/-- The file before the packets that are expected. -/
theorem Receiving.shown (h : Receiving t v) (hstatus : v.status ≠ .done) : Shown t v :=
  ⟨fun _ => ⟨h.announces, h.written⟩, fun hdone => absurd hdone hstatus⟩

/-- A client that has not asked for the file yet. -/
theorem Settled.of_untold (h : Untold t v) (hstatus : v.status = .ntf ∨ v.status = .chk) : Settled t v := by
  unfold Settled
  rcases hstatus with hs | hs <;> rw [hs] <;> exact h

/-- Between two messages the status says so. -/
theorem Settled.shown (h : Settled t v) : Shown t v := by
  unfold Settled at h
  constructor
  · rintro (hstatus | hstatus)
    all_goals
      rw [hstatus] at h
      exact ⟨h.announces, h.written⟩
  · intro hstatus
    rw [hstatus] at h
    exact h

/-- Behind the closing the file is still the one of all packets. -/
theorem Closed.shown (h : Closed t v) (hstatus : v.status = .data) : Shown t v := by
  refine ⟨fun _ => ⟨h.announces, h.written⟩, fun hdone => ?_⟩
  rw [hstatus] at hdone
  contradiction

/-- All packets cover the file. -/
theorem Closed.cover (h : Closed t v) : t.newFileSize.toNat ≤ v.packetSequenceNumber.toNat * sizeofPayload := by
  rw [h.last, h.announces.total]
  exact Lib.le_chunkCount_mul (by decide)

/-- A message of the transfer, as the branches of `OnReceive` read it. -/
structure Heard (t : ServerTransaction) (r : Received) : Prop where
  ntf : r.id? = some .ntf → t.Arrived r .ntf
  info : r.id? = some .info → t.Arrived r .info
  data : r.id? = some .data → ∃ psn, psn < t.totalPacketNumber ∧ t.DataArrived r psn

/-- Genuine datagrams are heard so. -/
theorem Genuine.heard {tr : Transfer} {es : List SystemEvent} {id : MessageId} {p : Packet} {r : Received}
    (h : Genuine tr es id p) (hfrom : r.From p) : Heard tr.server r := by
  have hid := h.id?_eq hfrom
  refine ⟨fun hntf => ?_, fun hinfo => ?_, fun hdata => ?_⟩
  · cases hid.symm.trans hntf
    exact h.arrived hfrom (Or.inl rfl)
  · cases hid.symm.trans hinfo
    exact h.arrived hfrom (Or.inr rfl)
  · cases hid.symm.trans hdata
    exact h.dataArrived hfrom

/-- What a statement leads to: the facts of the next one, or of the status behind the last one as long as the
transaction is alive. -/
structure Leads (t : ServerTransaction) (verified : Prop) (w : ClientVars) (r : Received)
    (next : Option ReceivePos) : Prop where
  position : ∀ p, next = some p → AtPos t verified w r p ∧ ∀ kind, p.kind? = some kind →
    r.id? = some kind ∧ r.msg.intact r.len = true
  settled : next = none → w.isActive = true → Settled t w

namespace ClientTransaction

variable {c : ClientTransaction} {r : Received} {ops : FileOps} {e : List ClientEvent} {pos : ReceivePos}
  {next : Option ReceivePos} {verified : Prop}

/-- A statement that goes on to one of another kind of its own, or to the sending. -/
theorem leads_to {p : ReceivePos} (hat : AtPos t verified w r p)
    (hkind : ∀ kind, p.kind? = some kind → r.id? = some kind ∧ r.msg.intact r.len = true) :
    Leads t verified w r (some p) := by
  refine ⟨fun q hq => ?_, fun hnone => by contradiction⟩
  cases hq
  exact ⟨hat, hkind⟩

/-- The message is refused. -/
theorem leads_to_cxl (hshown : Shown t w) : Leads t verified w r (some (.store .cxl)) :=
  leads_to hshown fun _ hkind => by contradiction

/-- The statements of `OnReceive` in front of the branches. -/
theorem leads_of_front (hat : AtPos t verified v r pos) (hpos : pos = .hear ∨ pos = .check)
    (hstep : c.receiveStep r ops v pos = some (w, e, next)) : Leads t verified w r next := by
  rcases hpos with rfl | rfl
  · cases hstep
    refine leads_to ?_ fun _ hkind => by contradiction
    unfold AtPos Settled at hat ⊢
    cases hstatus : v.status <;> simp only [ClientVars.heardFrom, hstatus] at hat ⊢
    case ntf | chk => exact ⟨hat.version, hat.closed, hat.psn⟩
    case rdy | data =>
      have ha := hat.announces
      exact ⟨⟨ha.version, ha.size, ha.crc, ha.total⟩, hat.isOpen, hat.good, hat.range, hat.written⟩
    case done =>
      have ha := hat.announces
      exact ⟨⟨ha.version, ha.size, ha.crc, ha.total⟩, hat.closed, hat.file, hat.cover, hat.transferable⟩
  · have hsettled : Settled t v := hat
    simp only [receiveStep] at hstep
    split_ifs at hstep with hvalid <;> cases hstep
    · exact ⟨fun _ hnext => by contradiction, fun _ _ => hsettled⟩
    · have hintact : r.msg.intact r.len = true := by simpa [validateMessageIntegrity] using hvalid
      refine ⟨fun p hp => ?_, fun _ _ => hsettled⟩
      unfold branch at hp
      split at hp
      case h_1 hid =>
        split_ifs at hp <;> cases hp
        · exact ⟨hsettled.shown, fun _ hkind => by contradiction⟩
        · refine ⟨hsettled, fun kind hkind => ?_⟩
          cases hkind
          exact ⟨hid, hintact⟩
      case h_2 hid | h_3 hid | h_4 hid | h_5 hid =>
        cases hp
        refine ⟨hsettled, fun kind hkind => ?_⟩
        cases hkind
        exact ⟨hid, hintact⟩
      case h_6 => contradiction

/-- The branch for NTF, in the receive loop. -/
theorem leads_of_ntf (hat : AtPos t verified v r pos) (hpos : pos.kind? = some .ntf)
    (hheard : r.id? = some .ntf ∧ r.msg.intact r.len = true)
    (hstep : c.receiveStep r ops v pos = some (w, e, next)) : Leads t verified w r next := by
  have hkind {p : ReceivePos} (hp : p.kind? = some .ntf) (kind : MessageId) (hk : p.kind? = some kind) :
      r.id? = some kind ∧ r.msg.intact r.len = true := by
    cases hp.symm.trans hk
    exact hheard
  cases pos with
  | ntfStatus =>
    cases hstep
    exact leads_to (show MessageId.Quiet .ntf by decide) (hkind rfl)
  | ntfVersion =>
    cases hstep
    exact leads_to hat (hkind rfl)
  | ntfJoin | ntfStart => contradiction
  | _ => contradiction

/-- The branch for INFO. -/
theorem leads_of_info (hat : AtPos t verified v r pos) (hpos : pos.kind? = some .info)
    (hheard : r.id? = some .info ∧ r.msg.intact r.len = true) (harrived : t.Arrived r .info)
    (hstep : c.receiveStep r ops v pos = some (w, e, next)) : Leads t verified w r next := by
  have hkind {p : ReceivePos} (hp : p.kind? = some .info) (kind : MessageId) (hk : p.kind? = some kind) :
      r.id? = some kind ∧ r.msg.intact r.len = true := by
    cases hp.symm.trans hk
    exact hheard
  have hsize : r.msg.info.fileLength = t.newFileSize := harrived.word 1 _ rfl
  have hcrc : r.msg.info.crc32 = t.newFileCrc32 := harrived.word 2 _ rfl
  have hquiet {v : ClientVars} {id : MessageId} (hstatus : v.status = id) (hid : id.Quiet) : Shown t v :=
    .of_quiet (hstatus ▸ hid)
  have hchk : MessageId.Quiet .chk := by decide
  have hinfo : MessageId.Quiet .info := by decide
  cases pos with
  | infoTest =>
    have hsettled : Settled t v := hat
    simp only [receiveStep] at hstep
    split_ifs at hstep with hstatus hlen <;> cases hstep
    · exact leads_to_cxl hsettled.shown
    · exact leads_to_cxl hsettled.shown
    · rw [not_not] at hstatus
      unfold Settled at hsettled
      rw [hstatus] at hsettled
      exact leads_to ⟨hstatus, hsettled⟩ (hkind rfl)
  | infoMatch =>
    obtain ⟨hstatus, huntold⟩ := hat
    simp only [receiveStep] at hstep
    split_ifs at hstep with hversion hzero <;> cases hstep
    · exact leads_to_cxl (hquiet hstatus hchk)
    · exact leads_to_cxl (hquiet hstatus hchk)
    · exact leads_to ⟨hstatus, huntold, hsize ▸ hzero⟩ (hkind rfl)
  | infoStatus =>
    obtain ⟨-, huntold, hpos⟩ := hat
    cases hstep
    exact leads_to ⟨rfl, ⟨huntold.version, huntold.closed, huntold.psn⟩, hpos⟩ (hkind rfl)
  | infoSize =>
    obtain ⟨hstatus, huntold, hpos⟩ := hat
    cases hstep
    exact leads_to ⟨hstatus, ⟨huntold.version, huntold.closed, huntold.psn⟩, hpos, hsize⟩ (hkind rfl)
  | infoCrc =>
    obtain ⟨hstatus, huntold, hpos, hfile⟩ := hat
    cases hstep
    exact leads_to ⟨hstatus, ⟨huntold.version, huntold.closed, huntold.psn⟩, hpos, hfile, hcrc⟩ (hkind rfl)
  | infoTotal =>
    obtain ⟨hstatus, huntold, hpos, hfile, hsum⟩ := hat
    cases hstep
    refine leads_to ⟨hstatus, ⟨huntold.version, huntold.closed, huntold.psn⟩,
      ⟨huntold.version, hfile, hsum, ?_⟩, ?_⟩ (hkind rfl)
    · rw [hfile]
      exact toNat_packetCount _
    · rw [hfile]
      exact totalPacketNumber_pos hpos
  | infoOpen =>
    obtain ⟨hstatus, huntold, hannounces, hpos⟩ := hat
    cases hstep
    have hframe := ClientVars.openStream_eq v ops
    have hstream := @ClientVars.openStream_stream _ ops huntold.closed
    refine leads_to ⟨?_, ⟨?_, ?_, ?_, ?_⟩, ?_, ?_, hstream⟩ (hkind rfl) <;> rw [hframe]
    · exact hstatus
    · exact hannounces.version
    · exact hannounces.size
    · exact hannounces.crc
    · exact hannounces.total
    · exact hpos
    · exact huntold.psn
  | infoOpened =>
    obtain ⟨hstatus, hannounces, hpos, hpsn, hstream⟩ := hat
    simp only [receiveStep] at hstep
    split_ifs at hstep with hclosed <;> cases hstep
    · exact leads_to_cxl (hquiet hstatus hinfo)
    · have hopened : v.newFileStream = ⟨true, false, []⟩ := hstream (by simpa using hclosed)
      refine leads_to ⟨hstatus, hannounces, ?_, ?_, ?_, ?_⟩ fun _ hk => by contradiction
      · rw [hopened]
      · rw [hopened]
      · rw [hpsn]
        exact hpos
      · rw [hopened, hpsn]
        rfl
  | _ => contradiction

/-- The branch for DATA, up to the write. -/
theorem leads_of_data (hat : AtPos t verified v r pos)
    (hpos : pos = .dataTest ∨ pos = .dataLength ∨ pos = .dataNumber)
    (hheard : r.id? = some .data ∧ r.msg.intact r.len = true)
    (hstep : c.receiveStep r ops v pos = some (w, e, next)) : Leads t verified w r next := by
  have hkind {p : ReceivePos} (hp : p.kind? = some .data) (kind : MessageId) (hk : p.kind? = some kind) :
      r.id? = some kind ∧ r.msg.intact r.len = true := by
    cases hp.symm.trans hk
    exact hheard
  have hdone (hstatus : v.status = dataStatus r.msg.header) : v.status ≠ .done := by
    rw [hstatus, dataStatus]
    split_ifs <;> simp
  rcases hpos with rfl | rfl | rfl
  · have hsettled : Settled t v := hat
    simp only [receiveStep] at hstep
    split_ifs at hstep with hstatus <;> cases hstep
    · exact leads_to_cxl hsettled.shown
    · rw [not_not] at hstatus
      refine leads_to ⟨hstatus, ?_⟩ (hkind rfl)
      unfold dataStatus at hstatus
      unfold Settled at hsettled
      split_ifs at hstatus <;> rw [hstatus] at hsettled <;> exact hsettled
  · obtain ⟨hstatus, hreceiving⟩ := hat
    simp only [receiveStep] at hstep
    split_ifs at hstep with hlen <;> cases hstep
    · exact leads_to_cxl (hreceiving.shown (hdone hstatus))
    · exact leads_to ⟨hstatus, not_not.mp hlen, hreceiving⟩ (hkind rfl)
  · obtain ⟨hstatus, hlen, hreceiving⟩ := hat
    simp only [receiveStep] at hstep
    split_ifs at hstep with hnumber <;> cases hstep
    · refine leads_to ?_ fun _ hk => by contradiction
      show Settled t v
      unfold dataStatus at hstatus
      unfold Settled
      split_ifs at hstatus <;> rw [hstatus] <;> exact hreceiving
    · exact leads_to ⟨⟨hstatus, hlen, not_not.mp hnumber⟩, hreceiving⟩ (hkind rfl)

/-- Closing leaves the bytes that were written. -/
theorem closeStream_written (v : ClientVars) (ops : FileOps) :
    (v.closeStream ops).newFileStream.written = v.newFileStream.written := by
  unfold ClientVars.closeStream
  split_ifs <;> rfl

/-- A failed write leaves the bytes that were written before. -/
theorem writeStream_of_failed {data : List UInt8}
    (h : (v.writeStream ops data).newFileStream.failed = true) (hgood : v.newFileStream.failed = false) :
    (v.writeStream ops data).newFileStream.written = v.newFileStream.written := by
  unfold ClientVars.writeStream at h ⊢
  split_ifs at h ⊢
  · simp only [hgood, Bool.false_eq_true] at h
  · rfl

/-- The write of the expected packet. -/
theorem leads_of_write (hexpected : Expected v r) (hreceiving : Receiving t v)
    (hheard : r.id? = some .data ∧ r.msg.intact r.len = true)
    (harrived : ∃ psn, psn < t.totalPacketNumber ∧ t.DataArrived r psn)
    (hstep : c.receiveStep r ops v .dataWrite = some (w, e, next)) : Leads t verified w r next := by
  obtain ⟨psn, hpsn, harrived⟩ := harrived
  have hstatus : v.status = .rdy ∨ v.status = .data := by
    rw [hexpected.status, dataStatus]
    split_ifs <;> simp
  have ha := hreceiving.announces
  have hframe := ClientVars.writeStream_eq v ops (r.msg.payload.bytes.take r.payloadLen)
  have hsame : (v.writeStream ops (r.msg.payload.bytes.take r.payloadLen)).status = v.status := by rw [hframe]
  cases hstep
  refine leads_to ⟨hsame ▸ hstatus, ?_⟩ fun kind hk => ?_
  · cases hfailed : (v.writeStream ops (r.msg.payload.bytes.take r.payloadLen)).newFileStream.failed with
    | true =>
      have hwritten := writeStream_of_failed hfailed hreceiving.good
      refine Or.inl ⟨rfl, fun _ => ⟨⟨?_, ?_, ?_, ?_⟩, hwritten.trans ?_⟩, fun hdone => ?_⟩
      · rw [hframe]
        exact ha.version
      · rw [hframe]
        exact ha.size
      · rw [hframe]
        exact ha.crc
      · rw [hframe]
        exact ha.total
      · rw [hframe]
        exact hreceiving.written
      · rw [hsame] at hdone
        rcases hstatus with h | h <;> rw [h] at hdone <;> contradiction
    | false =>
      have hstream := ClientVars.writeStream_stream hfailed
      rw [hstream] at hframe
      rw [hframe]
      exact Or.inr ⟨rfl, ⟨ha.version, ha.size, ha.crc, ha.total⟩, rfl, rfl, hreceiving.range,
        hexpected.written_eq harrived hreceiving.range hreceiving.written,
        fun hlast => hexpected.transferable hpsn harrived hheard.2 hlast ha hreceiving.range⟩
  · cases hk
    exact hheard

/-- The branch for DATA, behind the write. -/
theorem leads_of_written (hat : AtPos t verified v r pos)
    (hpos : pos = .dataWritten ∨ pos = .dataStatus ∨ pos = .dataCount ∨ pos = .dataLast)
    (hheard : r.id? = some .data ∧ r.msg.intact r.len = true)
    (hstep : c.receiveStep r ops v pos = some (w, e, next)) : Leads t verified w r next := by
  have hkind {p : ReceivePos} (hp : p.kind? = some .data) (kind : MessageId) (hk : p.kind? = some kind) :
      r.id? = some kind ∧ r.msg.intact r.len = true := by
    cases hp.symm.trans hk
    exact hheard
  rcases hpos with rfl | rfl | rfl | rfl
  · obtain ⟨hstatus, hwritten⟩ := hat
    simp only [receiveStep] at hstep
    split_ifs at hstep with hfailed <;> cases hstep
    · refine leads_to_cxl (hwritten.elim And.right fun h => ?_)
      rw [h.1] at hfailed
      contradiction
    · refine leads_to ⟨hstatus, hwritten.elim (fun h => absurd h.1 hfailed) And.right⟩ (hkind rfl)
  · obtain ⟨-, hwritten⟩ := hat
    have ha := hwritten.announces
    cases hstep
    exact leads_to ⟨rfl, ⟨ha.version, ha.size, ha.crc, ha.total⟩, hwritten.isOpen, hwritten.good, hwritten.range,
      hwritten.written, hwritten.last⟩ (hkind rfl)
  · obtain ⟨hstatus, hwritten⟩ := hat
    have ha := hwritten.announces
    have hbelow := UInt32.lt_iff_toNat_lt.mp hwritten.range
    cases hstep
    refine leads_to ⟨hstatus, ⟨ha.version, ha.size, ha.crc, ha.total⟩, hwritten.isOpen, hwritten.good, ?_,
      hwritten.written, hwritten.last⟩ (hkind rfl)
    show (v.packetSequenceNumber + 1).toNat ≤ v.totalPacketNumber.toNat
    rw [Lib.toNat_succ_of_lt hbelow]
    exact hbelow
  · obtain ⟨hstatus, hcounted⟩ := hat
    simp only [receiveStep] at hstep
    split_ifs at hstep with hlast <;> cases hstep
    · exact leads_to ⟨hstatus, hcounted, hlast⟩ (hkind rfl)
    · refine ⟨fun _ hnext => by contradiction, fun _ _ => ?_⟩
      unfold Settled
      rw [hstatus]
      refine ⟨hcounted.announces, hcounted.isOpen, hcounted.good, ?_, hcounted.written⟩
      have hne : v.packetSequenceNumber.toNat ≠ v.totalPacketNumber.toNat := fun h =>
        hlast (UInt32.toNat_inj.mp h)
      have hle := hcounted.range
      rw [UInt32.lt_iff_toNat_lt]
      omega

/-- The branch for DATA, behind the last packet. -/
theorem leads_of_last (hat : AtPos t verified v r pos)
    (hpos : pos = .dataClose ∨ pos = .dataSize ∨ pos = .dataCrc)
    (hheard : r.id? = some .data ∧ r.msg.intact r.len = true)
    (hstep : c.receiveStep r ops v pos = some (w, e, next)) :
    Leads t (verified ∨ .verified t.served ∈ e) w r next := by
  have hkind {p : ReceivePos} (hp : p.kind? = some .data) (kind : MessageId) (hk : p.kind? = some kind) :
      r.id? = some kind ∧ r.msg.intact r.len = true := by
    cases hp.symm.trans hk
    exact hheard
  rcases hpos with rfl | rfl | rfl
  · obtain ⟨hstatus, hcounted, hlast⟩ := hat
    have ha := hcounted.announces
    have hframe := ClientVars.closeStream_eq v ops
    have hfile := @ClientVars.closeStream_tempFile _ ops hcounted.isOpen
    have hwritten := closeStream_written v ops
    have hclosed := ClientVars.closeStream_isOpen v ops
    cases hstep
    refine leads_to ⟨?_, ⟨?_, ?_, ?_, ?_⟩, hclosed, ?_, ?_, hcounted.last hlast, ops.flushed, ?_⟩ (hkind rfl)
    · rw [hframe]
      exact hstatus
    · rw [hframe]
      exact ha.version
    · rw [hframe]
      exact ha.size
    · rw [hframe]
      exact ha.crc
    · rw [hframe]
      exact ha.total
    · rw [hframe]
      exact hlast
    · rw [hwritten, hframe]
      exact hcounted.written
    · rw [hfile, hwritten]
  · obtain ⟨hstatus, hclosed⟩ := hat
    obtain ⟨flushed, hfile⟩ := hclosed.file
    simp only [receiveStep] at hstep
    split at hstep
    · contradiction
    · rename_i file hpath
      split_ifs at hstep with hlength <;> cases hstep
      · exact leads_to_cxl (hclosed.shown hstatus)
      · rw [not_not] at hlength
        have hserved := hclosed.announces.served_of_length hclosed.cover hclosed.written (hfile.symm.trans hpath)
          hlength.symm
        exact leads_to ⟨hstatus, hclosed, hpath.trans (by rw [hserved])⟩ (hkind rfl)
  · obtain ⟨hstatus, hclosed, hfile⟩ := hat
    simp only [receiveStep] at hstep
    split_ifs at hstep with hcrc <;> cases hstep
    · exact leads_to_cxl (hclosed.shown hstatus)
    · refine leads_to ⟨hstatus, hclosed, ⟨hclosed.announces, hclosed.closed, hfile, hclosed.cover,
        hclosed.transferable⟩, Or.inr ?_⟩ fun _ hk => by contradiction
      rw [hfile]
      exact List.mem_singleton_self _

/-- The branch for FIN. -/
theorem leads_of_fin (hat : AtPos t verified v r pos) (hpos : pos.kind? = some .fin)
    (hheard : r.id? = some .fin ∧ r.msg.intact r.len = true)
    (hstep : c.receiveStep r ops v pos = some (w, e, next)) : Leads t verified w r next := by
  have hkind {p : ReceivePos} (hp : p.kind? = some .fin) (kind : MessageId) (hk : p.kind? = some kind) :
      r.id? = some kind ∧ r.msg.intact r.len = true := by
    cases hp.symm.trans hk
    exact hheard
  cases pos with
  | finTest =>
    have hsettled : Settled t v := hat
    simp only [receiveStep] at hstep
    split_ifs at hstep with hstatus hlen <;> cases hstep
    · exact leads_to_cxl hsettled.shown
    · exact leads_to_cxl hsettled.shown
    · rw [not_not] at hstatus
      exact leads_to ⟨hstatus, hsettled.shown.done hstatus⟩ (hkind rfl)
  | finStatus =>
    cases hstep
    exact leads_to ⟨rfl, hat.2.announces.version⟩ (hkind rfl)
  | finDead =>
    cases hstep
    exact leads_to ⟨hat.1, rfl, hat.2⟩ (hkind rfl)
  | finCall =>
    obtain ⟨-, hdead, -⟩ := hat
    cases hstep
    refine ⟨fun _ hnext => by contradiction, fun _ halive => ?_⟩
    rw [hdead] at halive
    contradiction
  | _ => contradiction

/-- The branch for CXL. -/
theorem leads_of_cxl (hat : AtPos t verified v r pos) (hpos : pos.kind? = some .cxl)
    (hheard : r.id? = some .cxl ∧ r.msg.intact r.len = true)
    (hstep : c.receiveStep r ops v pos = some (w, e, next)) : Leads t verified w r next := by
  have hkind {p : ReceivePos} (hp : p.kind? = some .cxl) (kind : MessageId) (hk : p.kind? = some kind) :
      r.id? = some kind ∧ r.msg.intact r.len = true := by
    cases hp.symm.trans hk
    exact hheard
  cases pos with
  | cxlOpen =>
    have hsettled : Settled t v := hat
    simp only [receiveStep] at hstep
    split_ifs at hstep with hopen <;> cases hstep
    · refine leads_to ⟨hsettled.shown, fun hdone => ?_⟩ (hkind rfl)
      rw [(hsettled.shown.done hdone).closed] at hopen
      contradiction
    · exact leads_to hsettled.shown (hkind rfl)
  | cxlClose =>
    obtain ⟨hshown, hne⟩ := hat
    have hframe := ClientVars.closeStream_eq v ops
    have hwritten := closeStream_written v ops
    have hsame : (v.closeStream ops).status = v.status := by rw [hframe]
    cases hstep
    refine leads_to ⟨⟨fun hdata => ?_, fun hdone => absurd (hsame ▸ hdone) hne⟩, hsame ▸ hne⟩ (hkind rfl)
    obtain ⟨ha, hprefix⟩ := hshown.data (hsame ▸ hdata)
    rw [hwritten, hframe]
    exact ⟨⟨ha.version, ha.size, ha.crc, ha.total⟩, hprefix⟩
  | cxlRemove =>
    obtain ⟨hshown, hne⟩ := hat
    cases hstep
    refine leads_to ⟨fun hdata => ?_, fun hdone => absurd hdone hne⟩ (hkind rfl)
    obtain ⟨ha, hprefix⟩ := hshown.data hdata
    exact ⟨⟨ha.version, ha.size, ha.crc, ha.total⟩, hprefix⟩
  | cxlStatus =>
    cases hstep
    exact leads_to_cxl (.of_quiet (show MessageId.Quiet .cxl by decide))
  | _ => contradiction

/-- `SendMessage`, in the receive loop. -/
theorem leads_of_sending (hat : AtPos t verified v r pos)
    (hpos : pos = .dead ∨ ∃ id, pos = .store id ∨ pos = .send id)
    (hstep : c.receiveStep r ops v pos = some (w, e, next)) : Leads t verified w r next := by
  rcases hpos with rfl | ⟨id, rfl | rfl⟩
  · cases hstep
    exact leads_to ⟨hat, rfl⟩ fun _ hk => by contradiction
  · cases id with
    | cxl =>
      cases hstep
      exact leads_to (show MessageId.Quiet .cxl by decide) fun _ hk => by contradiction
    | rdy =>
      obtain ⟨-, hreceiving⟩ := hat
      have ha := hreceiving.announces
      cases hstep
      exact leads_to (show Settled t { v with status := .rdy } from
        ⟨⟨ha.version, ha.size, ha.crc, ha.total⟩, hreceiving.isOpen, hreceiving.good, hreceiving.range,
          hreceiving.written⟩) fun _ hk => by contradiction
    | done =>
      obtain ⟨-, -, hdelivered, hverified⟩ := hat
      have ha := hdelivered.announces
      cases hstep
      exact leads_to ⟨rfl, ⟨⟨ha.version, ha.size, ha.crc, ha.total⟩, hdelivered.closed, hdelivered.file,
        hdelivered.cover, hdelivered.transferable⟩, hverified⟩ fun _ hk => by contradiction
    | ntf | chk | info | rtx | data | fin => exact hat.elim
  · cases hstep
    refine ⟨fun _ hnext => by contradiction, fun _ halive => ?_⟩
    cases id with
    | cxl =>
      rw [hat.2] at halive
      contradiction
    | rdy | rtx => exact hat
    | done =>
      obtain ⟨hstatus, hdelivered, -⟩ := hat
      unfold Settled
      rw [hstatus]
      exact hdelivered
    | ntf | chk | info | data | fin => exact hat.elim

end ClientTransaction

/-- The served file may have been verified since. -/
theorem AtPos.mono {verified verified' : Prop} {r : Received} {pos : ReceivePos} (h : AtPos t verified v r pos)
    (hmono : verified → verified') : AtPos t verified' v r pos := by
  cases pos with
  | store id =>
    cases id with
    | done => exact ⟨h.1, h.2.1, h.2.2.1, hmono h.2.2.2⟩
    | _ => exact h
  | send id =>
    cases id with
    | done => exact ⟨h.1, h.2.1, hmono h.2.2⟩
    | _ => exact h
  | _ => exact h

/-- So may what a statement leads to. -/
theorem Leads.mono {verified verified' : Prop} {r : Received} {next : Option ReceivePos}
    (h : Leads t verified w r next) (hmono : verified → verified') : Leads t verified' w r next :=
  ⟨fun p hp => ⟨(h.position p hp).1.mono hmono, (h.position p hp).2⟩, h.settled⟩

/-- What the bytes written are in front of each statement: the packets that are counted, and one more between
a write and its counting. -/
theorem AtPos.written {verified : Prop} {r : Received} {pos : ReceivePos} (h : AtPos t verified v r pos) :
    (v.status = .rdy ∨ v.status = .data → Announces t v ∧ v.newFileStream.written =
      firstChunks sizeofPayload t.served
        (v.packetSequenceNumber.toNat + pos.uncounted v.newFileStream.failed)) ∧
    (v.status = .done → Delivered t v) := by
  have hshown (h : Shown t v) : (v.status = .rdy ∨ v.status = .data → Announces t v ∧
      v.newFileStream.written = firstChunks sizeofPayload t.served (v.packetSequenceNumber.toNat + 0)) ∧
      (v.status = .done → Delivered t v) := ⟨h.data, h.done⟩
  have hquiet {id : MessageId} (hstatus : v.status = id) (hid : id.Quiet) : Shown t v := .of_quiet (hstatus ▸ hid)
  have hwritten (hdata : v.status = .rdy ∨ v.status = .data) (h : Written t v) :
      (v.status = .rdy ∨ v.status = .data → Announces t v ∧
        v.newFileStream.written = firstChunks sizeofPayload t.served (v.packetSequenceNumber.toNat + 1)) ∧
      (v.status = .done → Delivered t v) := by
    refine ⟨fun _ => ⟨h.announces, ?_⟩, fun hdone => ?_⟩
    · rw [h.written, Lib.toNat_succ_of_lt (UInt32.lt_iff_toNat_lt.mp h.range)]
    · rcases hdata with hdata | hdata <;> rw [hdata] at hdone <;> contradiction
  have hnot {header : TrftpHeader} (hstatus : v.status = ClientTransaction.dataStatus header) : v.status ≠ .done := by
    rw [hstatus, ClientTransaction.dataStatus]
    split_ifs <;> simp
  have hchk : MessageId.Quiet .chk := by decide
  have hinfo : MessageId.Quiet .info := by decide
  have hfin : MessageId.Quiet .fin := by decide
  cases pos with
  | hear | check | ntfStatus | infoTest | dataTest | finTest | cxlOpen => exact hshown (Settled.shown h)
  | ntfVersion | ntfJoin | dead => exact hshown (.of_quiet h)
  | infoMatch | infoStatus => exact hshown (hquiet h.1 hchk)
  | infoSize | infoCrc | infoTotal | infoOpen | infoOpened => exact hshown (hquiet h.1 hinfo)
  | dataLength => exact hshown (h.2.shown (hnot h.1))
  | dataNumber => exact hshown (h.2.2.shown (hnot h.1))
  | dataWrite => exact hshown (h.2.shown (hnot h.1.status))
  | dataWritten =>
    rcases h.2 with ⟨hfailed, h'⟩ | ⟨hgood, h'⟩
    · rw [hfailed]
      exact hshown h'
    · rw [hgood]
      exact hwritten h.1 h'
  | dataStatus => exact hwritten h.1 h.2
  | dataCount => exact hwritten (Or.inr h.1) h.2
  | dataLast =>
    refine hshown ⟨fun _ => ⟨h.2.announces, h.2.written⟩, fun hdone => ?_⟩
    cases h.1.symm.trans hdone
  | dataClose =>
    refine hshown ⟨fun _ => ⟨h.2.1.announces, h.2.1.written⟩, fun hdone => ?_⟩
    cases h.1.symm.trans hdone
  | dataSize => exact hshown (h.2.shown h.1)
  | dataCrc => exact hshown (h.2.1.shown h.1)
  | finStatus =>
    refine hshown ⟨fun hdata => ?_, fun _ => h.2⟩
    rw [h.1] at hdata
    rcases hdata with hdata | hdata <;> contradiction
  | finDead | finCall => exact hshown (hquiet h.1 hfin)
  | cxlClose | cxlRemove => exact hshown h.1
  | cxlStatus => exact hshown h
  | ntfStart => exact h.elim
  | store id =>
    cases id with
    | cxl => exact hshown h
    | rdy => exact hshown (hquiet h.1 hinfo)
    | done => exact hshown (h.2.1.shown h.1)
    | _ => exact h.elim
  | send id =>
    cases id with
    | cxl => exact hshown (.of_quiet h.1)
    | rdy | rtx => exact hshown (Settled.shown h)
    | done =>
      refine hshown ⟨fun hdata => ?_, fun _ => h.2.1⟩
      rw [h.1] at hdata
      rcases hdata with hdata | hdata <;> contradiction
    | _ => exact h.elim

namespace ClientTransaction

variable {c : ClientTransaction} {r : Received} {ops : FileOps} {e : List ClientEvent} {pos : ReceivePos}
  {next : Option ReceivePos} {verified : Prop}

/-- Every statement of `OnReceive` in the receive loop leads to what holds in front of the next one. -/
theorem receiveStep_leads (hat : AtPos t verified v r pos) (hheard : Heard t r)
    (hkind : ∀ kind, pos.kind? = some kind → r.id? = some kind ∧ r.msg.intact r.len = true)
    (hstep : c.receiveStep r ops v pos = some (w, e, next)) :
    Leads t (verified ∨ .verified t.served ∈ e) w r next := by
  cases pos with
  | hear => exact (leads_of_front hat (Or.inl rfl) hstep).mono Or.inl
  | check => exact (leads_of_front hat (Or.inr rfl) hstep).mono Or.inl
  | ntfStatus | ntfVersion | ntfJoin | ntfStart =>
    exact (leads_of_ntf hat rfl (hkind _ rfl) hstep).mono Or.inl
  | infoTest | infoMatch | infoStatus | infoSize | infoCrc | infoTotal | infoOpen | infoOpened =>
    exact (leads_of_info hat rfl (hkind _ rfl) (hheard.info (hkind _ rfl).1) hstep).mono Or.inl
  | dataTest | dataLength | dataNumber =>
    exact (leads_of_data hat (by simp) (hkind _ rfl) hstep).mono Or.inl
  | dataWrite =>
    exact (leads_of_write hat.1 hat.2 (hkind _ rfl) (hheard.data (hkind _ rfl).1) hstep).mono Or.inl
  | dataWritten | dataStatus | dataCount | dataLast =>
    exact (leads_of_written hat (by simp) (hkind _ rfl) hstep).mono Or.inl
  | dataClose | dataSize | dataCrc => exact leads_of_last hat (by simp) (hkind _ rfl) hstep
  | finTest | finStatus | finDead | finCall =>
    exact (leads_of_fin hat rfl (hkind _ rfl) hstep).mono Or.inl
  | cxlOpen | cxlClose | cxlRemove | cxlStatus =>
    exact (leads_of_cxl hat rfl (hkind _ rfl) hstep).mono Or.inl
  | dead => exact (leads_of_sending hat (Or.inl rfl) hstep).mono Or.inl
  | store id => exact (leads_of_sending hat (Or.inr ⟨id, Or.inl rfl⟩) hstep).mono Or.inl
  | send id => exact (leads_of_sending hat (Or.inr ⟨id, Or.inr rfl⟩) hstep).mono Or.inl

/-- What a statement sends in the receive loop: DONE goes out behind the verification of the served file. -/
theorem receiveStep_sent (hat : AtPos t verified v r pos) (hstep : c.receiveStep r ops v pos = some (w, e, next))
    {id : MessageId} {p : Packet} (hmem : .sent id p ∈ e) :
    p = c.packet v id ∧ ((id = .rdy ∨ id = .rtx ∨ id = .cxl) ∨ (id = .done ∧ Delivered t v ∧ verified)) := by
  rcases (receiveStep_ends hstep).events with rfl | ⟨x, rfl, hx⟩
  · contradiction
  · cases List.mem_singleton.mp hmem
    rcases hx with ⟨id', rfl, heq⟩ | ⟨-, heq⟩ | ⟨hsent, -⟩
    · cases heq
      refine ⟨rfl, ?_⟩
      cases id with
      | rdy | rtx | cxl => simp
      | done => exact Or.inr ⟨rfl, hat.2⟩
      | ntf | chk | info | data | fin => exact hat.elim
    · cases heq
    · exact absurd rfl (hsent _ _)

/-- What a statement hands over: the callback gets the version of the served file. -/
theorem receiveStep_fileReceived (hat : AtPos t verified v r pos)
    (hstep : c.receiveStep r ops v pos = some (w, e, next)) {file : Option (List UInt8)} {version : UInt32}
    (hmem : .fileReceived file version ∈ e) : pos = .finCall ∧ version = t.newFileVersion := by
  rcases (receiveStep_ends hstep).events with rfl | ⟨x, rfl, hx⟩
  · contradiction
  · cases List.mem_singleton.mp hmem
    rcases hx with ⟨id', -, heq⟩ | ⟨rfl, heq⟩ | ⟨-, hreceived⟩
    · cases heq
    · cases heq
      exact ⟨rfl, hat.2.2⟩
    · exact absurd rfl (hreceived _ _)

/-- As long as the main loop has not stored CHK, the receive loop refuses every message. -/
theorem receiveStep_early (hearly : pos.early = true) (huntold : Untold t v)
    (hstatus : v.status = .ntf ∨ v.status = .cxl) (hheard : Heard t r)
    (hkind : ∀ kind, pos.kind? = some kind → r.id? = some kind ∧ r.msg.intact r.len = true)
    (hstep : c.receiveStep r ops v pos = some (w, e, next)) :
    Untold t w ∧ (w.status = .ntf ∨ w.status = .cxl) ∧ ∀ p, next = some p → p.early = true := by
  have hsame := And.intro huntold (And.intro hstatus fun (p : ReceivePos) (hp : some (.store .cxl) = some p) =>
    show p.early = true by cases hp; rfl)
  cases pos with
  | hear =>
    cases hstep
    exact ⟨⟨huntold.version, huntold.closed, huntold.psn⟩, hstatus, fun p hp => by cases hp; rfl⟩
  | check =>
    simp only [receiveStep] at hstep
    split_ifs at hstep <;> cases hstep
    · exact ⟨huntold, hstatus, fun p hp => by contradiction⟩
    · refine ⟨huntold, hstatus, fun p hp => ?_⟩
      rcases branch_cases hp with rfl | rfl | rfl | rfl | rfl | rfl <;> rfl
  | ntfStatus =>
    cases hstep
    exact ⟨⟨huntold.version, huntold.closed, huntold.psn⟩, Or.inl rfl, fun p hp => by cases hp; rfl⟩
  | ntfVersion =>
    cases hstep
    exact ⟨⟨(hheard.ntf (hkind _ rfl).1).word 0 _ rfl, huntold.closed, huntold.psn⟩, hstatus,
      fun p hp => by cases hp; rfl⟩
  | infoTest =>
    simp only [receiveStep] at hstep
    split_ifs at hstep with hchk <;> cases hstep
    · exact hsame
    · exact hsame
    · rw [not_not.mp hchk] at hstatus
      rcases hstatus with h | h <;> contradiction
  | dataTest =>
    simp only [receiveStep] at hstep
    split_ifs at hstep with hdata <;> cases hstep
    · exact hsame
    · rw [not_not.mp hdata, dataStatus] at hstatus
      split_ifs at hstatus <;> rcases hstatus with h | h <;> contradiction
  | finTest =>
    simp only [receiveStep] at hstep
    split_ifs at hstep with hdone <;> cases hstep
    · exact hsame
    · exact hsame
    · rw [not_not.mp hdone] at hstatus
      rcases hstatus with h | h <;> contradiction
  | cxlOpen =>
    simp only [receiveStep] at hstep
    split_ifs at hstep with hopen <;> cases hstep
    · rw [huntold.closed] at hopen
      contradiction
    · exact ⟨huntold, hstatus, fun p hp => by cases hp; rfl⟩
  | cxlStatus =>
    cases hstep
    exact ⟨⟨huntold.version, huntold.closed, huntold.psn⟩, Or.inr rfl, fun p hp => by cases hp; rfl⟩
  | dead =>
    cases hstep
    exact ⟨⟨huntold.version, huntold.closed, huntold.psn⟩, hstatus, fun p hp => by cases hp; rfl⟩
  | store id =>
    cases id with
    | cxl =>
      cases hstep
      exact ⟨⟨huntold.version, huntold.closed, huntold.psn⟩, Or.inr rfl, fun p hp => by cases hp; rfl⟩
    | _ => contradiction
  | send id =>
    cases hstep
    exact ⟨huntold, hstatus, fun p hp => by contradiction⟩
  | _ => contradiction

end ClientTransaction

/-- The main loop stores CHK while the receive loop is at one of these positions. -/
theorem AtPos.storeChk {verified : Prop} {r : Received} {pos : ReceivePos} (h : AtPos t verified v r pos)
    (hearly : pos.early = true) (huntold : Untold t v) : AtPos t verified { v with status := .chk } r pos := by
  have hsettled : Settled t { v with status := .chk } := ⟨huntold.version, huntold.closed, huntold.psn⟩
  have hquiet : MessageId.Quiet .chk := by decide
  cases pos with
  | hear | check | ntfStatus | infoTest | dataTest | finTest | cxlOpen => exact hsettled
  | ntfVersion | ntfJoin | dead => exact hquiet
  | cxlStatus => exact Shown.of_quiet hquiet
  | store id =>
    cases id with
    | cxl => exact Shown.of_quiet hquiet
    | _ => contradiction
  | send id =>
    cases id with
    | cxl => exact ⟨hquiet, h.2⟩
    | _ => contradiction
  | _ => contradiction

end Trftp
