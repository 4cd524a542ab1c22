import Trftp.System.LossyRun

/-!
# The way of a file that loses packets

While the file is on its way, the client has the packets up to the first one that was lost. It asks for
that one as soon as a later one arrives, and the sender thread goes back to it before it sends anything
else. Every step lowers what is left to do, a loss apart.
-/

namespace Trftp

open Lib (EventMachine chunk)

/-- Packets that the client misses were lost behind the first one, and there is one more behind them to tell. -/
def Transfer.Ahead (tr : Transfer) (received sent : ℕ) : Prop :=
  received ≤ sent ∧ (received < sent → 0 < received ∧ sent + 1 < tr.server.totalPacketNumber.toNat)

/-- The datagram asks for this packet. -/
def Transfer.IsRequest (tr : Transfer) (received : ℕ) (p : Packet) : Prop :=
  ∃ w : ClientVars, p = tr.client.packet w .rtx ∧ w.serverAddress = tr.server.udpSocket ∧
    w.packetSequenceNumber.toNat = received

/-- Statements of the sender thread up to the sending of the packet that was asked for. -/
def SenderPos.returnSteps : SenderPos → ℕ
  | .eofTest => 8
  | .increment => 7
  | .loopTest => 6
  | .cxlCheck => 5
  | .rtxCheck => 4
  | .rtxTake => 3
  | .rtxStore _ => 2
  | .notStarted | .opening | .init | .send | .eofCheck | .eofTake | .eofStore _ | .failing | .cancelling | .stopped
  | .finished => 0

/-- The sender thread is on its way back to this packet. -/
def ServerState.Returning (t : ServerTransaction) (s : ServerState) (received : ℕ) : Prop :=
  match s.sender with
  | .eofTest | .increment =>
    s.vars.retransmitPsn.toNat = received ∧
      s.vars.packetSequenceNumber.toNat + 1 < t.totalPacketNumber.toNat
  | .loopTest | .cxlCheck | .rtxCheck | .rtxTake =>
    s.vars.retransmitPsn.toNat = received ∧ s.vars.packetSequenceNumber.toNat < t.totalPacketNumber.toNat
  | .rtxStore psn => psn.toNat = received ∧ s.vars.retransmitPsn = noRetransmit
  | _ => False

/-- The sender thread has sent a packet behind the one that the client expects. -/
structure ServerState.Overtaken (t : ServerTransaction) (s : ServerState) (received : ℕ) : Prop where
  sender : s.sender = .eofTest
  slot : s.vars.retransmitPsn = noRetransmit
  pos : 0 < received
  less : received < s.vars.packetSequenceNumber.toNat
  more : s.vars.packetSequenceNumber.toNat + 1 < t.totalPacketNumber.toNat

/-- What is left to do for a client that has so many packets, at most. -/
def Transfer.repairRank (tr : Transfer) (received extra : ℕ) : ℕ :=
  6 * (7 * tr.server.totalPacketNumber.toNat + extra + 20 * (tr.server.totalPacketNumber.toNat - received))

/-- What the server and the queues can be like while the file is on its way, and how much is left to do. -/
inductive Repairing (tr : Transfer) (received : ℕ) : ServerState → List Packet → List Packet → ℕ → Prop
  /-- a packet is to be sent: the expected one, or a later one -/
  | sending {server : ServerState} (sent : ℕ) (hidle : server.receiver = .idle)
      (hslot : server.vars.retransmitPsn = noRetransmit)
      (hsent : server.sender.HasSent tr.server server.vars.packetSequenceNumber.toNat sent)
      (hahead : tr.Ahead received sent) (hmore : sent < tr.server.totalPacketNumber.toNat) :
      Repairing tr received server [] []
        (6 * (server.senderRemaining tr.server + 7 * sent + (if received = sent then 3 else 11) +
          20 * (tr.server.totalPacketNumber.toNat - received)))
  /-- a packet is on its way -/
  | inFlight {server : ServerState} (sent : ℕ) (hidle : server.receiver = .idle)
      (hslot : server.vars.retransmitPsn = noRetransmit) (hsender : server.sender = .eofTest)
      (hpsn : server.vars.packetSequenceNumber.toNat = sent) (hahead : tr.Ahead received sent)
      (hmore : sent < tr.server.totalPacketNumber.toNat) :
      Repairing tr received server [] [tr.dataAt sent]
        (tr.repairRank received (if received = sent then 0 else 8) + 5)
  /-- a request is on its way -/
  | requested {server : ServerState} {p : Packet} (hidle : server.receiver = .idle)
      (hovertaken : server.Overtaken tr.server received) (hp : tr.IsRequest received p) :
      Repairing tr received server [p] [] (tr.repairRank received 8 + 4)
  /-- `OnReceive` works on the request -/
  | hearing {server : ServerState} {p : Packet} {r : Received} (hhears : server.receiver.Hears .data r)
      (hfrom : r.From p) (hovertaken : server.Overtaken tr.server received) (hp : tr.IsRequest received p) :
      Repairing tr received server [] [] (tr.repairRank received 8 + server.receiver.remaining)
  /-- the request was accepted -/
  | returning {server : ServerState} (hidle : server.receiver = .idle)
      (hreturning : server.Returning tr.server received) :
      Repairing tr received server [] [] (tr.repairRank received server.sender.returnSteps)

namespace ServerState

variable {t : ServerTransaction} {s s' : ServerState} {es : List ServerEvent} {received : ℕ}

/-- A statement of the sender thread on its way back. -/
theorem senderStep_returning (h : s.senderStep t true = some (s', es)) (hreturning : s.Returning t received)
    (hstatus : s.vars.status = .data) (hless : received < t.totalPacketNumber.toNat) :
    es.filterMap ServerEvent.packet? = [] ∧ s'.vars.status = .data ∧
      ((s'.Returning t received ∧ s'.sender.returnSteps < s.sender.returnSteps) ∨
        (s'.sender = .send ∧ s'.vars.packetSequenceNumber.toNat = received ∧
          s'.vars.retransmitPsn = noRetransmit ∧ s.sender.returnSteps = 2)) := by
  obtain ⟨v, driver, sender, receiver, aborts⟩ := s
  have hdata : v.status = .data := hstatus
  cases sender with
  | eofTest =>
    obtain ⟨hslot, hmore⟩ : v.retransmitPsn.toNat = received ∧
        v.packetSequenceNumber.toNat + 1 < t.totalPacketNumber.toNat := hreturning
    have hother : ¬v.packetSequenceNumber = t.totalPacketNumber - 1 := by
      intro hlast
      have heq := (Lib.eq_pred_iff (by omega)).mp hlast
      omega
    simp only [senderStep, if_neg hother] at h
    cases h
    exact ⟨rfl, hdata, Or.inl ⟨⟨hslot, hmore⟩, Nat.lt_succ_self _⟩⟩
  | increment =>
    obtain ⟨hslot, hmore⟩ : v.retransmitPsn.toNat = received ∧
        v.packetSequenceNumber.toNat + 1 < t.totalPacketNumber.toNat := hreturning
    have hnext : (v.packetSequenceNumber + 1).toNat = v.packetSequenceNumber.toNat + 1 :=
      Lib.toNat_succ_of_lt (Nat.lt_of_succ_lt hmore)
    cases h
    refine ⟨rfl, hdata, Or.inl ⟨⟨hslot, ?_⟩, Nat.lt_succ_self _⟩⟩
    simpa [setPsn, hnext] using hmore
  | loopTest =>
    obtain ⟨hslot, hmore⟩ : v.retransmitPsn.toNat = received ∧
        v.packetSequenceNumber.toNat < t.totalPacketNumber.toNat := hreturning
    simp only [senderStep, if_pos (UInt32.lt_iff_toNat_lt.mpr hmore)] at h
    cases h
    exact ⟨rfl, hdata, Or.inl ⟨⟨hslot, hmore⟩, Nat.lt_succ_self _⟩⟩
  | cxlCheck =>
    have hgoes : ¬v.status = .cxl := by
      rw [hdata]
      decide
    simp only [senderStep, if_neg hgoes] at h
    cases h
    exact ⟨rfl, hdata, Or.inl ⟨hreturning, Nat.lt_succ_self _⟩⟩
  | rtxCheck =>
    obtain ⟨hslot, hmore⟩ : v.retransmitPsn.toNat = received ∧
        v.packetSequenceNumber.toNat < t.totalPacketNumber.toNat := hreturning
    have hfilled : v.retransmitPsn ≠ noRetransmit := ServerTransaction.ne_noRetransmit_of_le (t := t) (by omega)
    simp only [senderStep, if_pos hfilled] at h
    cases h
    exact ⟨rfl, hdata, Or.inl ⟨⟨hslot, hmore⟩, Nat.lt_succ_self _⟩⟩
  | rtxTake =>
    cases h
    exact ⟨rfl, hdata, Or.inl ⟨⟨hreturning.1, rfl⟩, Nat.lt_succ_self _⟩⟩
  | rtxStore psn =>
    cases h
    exact ⟨rfl, hdata, Or.inr ⟨rfl, hreturning.1, hreturning.2, rfl⟩⟩
  | notStarted | opening | init | send | eofCheck | eofTake | eofStore | failing | cancelling | stopped | finished =>
    exact hreturning.elim

/-- The statement that sends a packet. -/
theorem senderStep_send (hpos : s.sender = .send) (hless : s.vars.packetSequenceNumber < t.totalPacketNumber) :
    s.senderStep t true = some ({ s with sender := .eofTest },
      [.transmitted s.vars.packetSequenceNumber (t.dataPacket s.vars.clientAddress s.vars.packetSequenceNumber
        (chunk sizeofPayload t.served s.vars.packetSequenceNumber.toNat))]) := by
  simp only [senderStep, hpos, ServerTransaction.readData_eq hless]

/-- The other statements of the sender thread send nothing but CXL. -/
theorem senderStep_silent (h : s.senderStep t true = some (s', es)) (hpos : s.sender ≠ .send)
    (hgoes : s.sender ≠ .cancelling) : es.filterMap ServerEvent.packet? = [] := by
  revert h
  fun_cases ServerState.senderStep t s true <;> intro h <;> cases h <;> first | rfl | contradiction

/-- `OnReceive` takes a request for an earlier packet. -/
theorem receiverStep_requested {tr : Transfer} {r : Received} {p : Packet}
    (h : s.receiverStep tr.server = some (s', es)) (hhears : s.receiver.Hears .data r)
    (hstatus : s.vars.status = .data) (hle : received ≤ s.vars.packetSequenceNumber.toNat) (hfrom : r.From p)
    (hp : tr.IsRequest received p) :
    (∃ receiver : ReceiverPos, s' = { s with receiver := receiver } ∧ receiver.Hears .data r ∧
        receiver.remaining < s.receiver.remaining) ∨
      ∃ slot : UInt32, slot.toNat = received ∧ 0 < s.receiver.remaining ∧
        s' = { s with vars := { s.vars with retransmitPsn := slot }, receiver := .idle } := by
  obtain ⟨w, rfl, -, hnumber⟩ := hp
  have harrived := ClientTransaction.arrived_of_from hfrom
  have hlen : r.payloadLen = 4 := harrived.payloadLen
  have hslot : r.msg.rtx.retransmitPsn = w.packetSequenceNumber := harrived.word 0 _ rfl
  unfold receiverStep at h
  rcases hhears with hpos | ⟨-, hpos⟩ | hpos
  · simp only [hpos, harrived.id, if_pos hstatus] at h
    cases h
    exact Or.inl ⟨_, rfl, Or.inr (Or.inl ⟨rfl, rfl⟩), by rw [hpos]; exact Nat.lt_succ_self _⟩
  · have hvalid : ServerTransaction.validateRtx r.msg.rtx r.payloadLen s.vars.packetSequenceNumber = true := by
      have hnot : ¬s.vars.packetSequenceNumber < w.packetSequenceNumber := by
        rw [UInt32.lt_iff_toNat_lt, hnumber]
        exact Nat.not_lt.mpr hle
      rw [ServerTransaction.validateRtx, if_neg (not_not.mpr hlen), hslot, if_neg hnot]
    simp only [hpos, harrived.id, if_pos hvalid] at h
    cases h
    exact Or.inl ⟨_, rfl, Or.inr (Or.inr rfl), by rw [hpos]; exact Nat.lt_succ_self _⟩
  · simp only [hpos, harrived.id] at h
    cases h
    exact Or.inr ⟨w.packetSequenceNumber, hnumber, by rw [hpos]; exact Nat.one_pos, by rw [← hslot]; rfl⟩

end ServerState

namespace Transfer

variable {tr : Transfer} {number number' received : ℕ} {r : Received}

/-- A packet of the file arrives with its number. -/
theorem dataAt_arrived (hnumber : number < tr.server.totalPacketNumber.toNat) (hfrom : r.From (tr.dataAt number)) :
    (UInt32.ofNat number).toNat = number ∧ UInt32.ofNat number < tr.server.totalPacketNumber ∧
      tr.server.DataArrived r (UInt32.ofNat number) := by
  have hsame : (UInt32.ofNat number).toNat = number :=
    UInt32.toNat_ofNat_of_lt' (hnumber.trans tr.server.totalPacketNumber.toNat_lt)
  have hpsn : UInt32.ofNat number < tr.server.totalPacketNumber := by
    rw [UInt32.lt_iff_toNat_lt, hsame]
    exact hnumber
  exact ⟨hsame, hpsn, ServerTransaction.dataArrived_of_from hpsn hfrom⟩

/-- A packet of the file can be received. -/
theorem exists_from_dataAt (hnumber : number < tr.server.totalPacketNumber.toNat) :
    ∃ r : Received, r.From (tr.dataAt number) := by
  have hsame : (UInt32.ofNat number).toNat = number :=
    UInt32.toNat_ofNat_of_lt' (hnumber.trans tr.server.totalPacketNumber.toNat_lt)
  have hpsn : UInt32.ofNat number < tr.server.totalPacketNumber := by
    rw [UInt32.lt_iff_toNat_lt, hsame]
    exact hnumber
  exact ⟨tr.server.receivedData _ _ (ServerTransaction.dataLen_le hpsn), Received.ofMessage_from _ _ _ _⟩

/-- Packets with different numbers differ. -/
theorem dataAt_injective (hnumber : number < tr.server.totalPacketNumber.toNat)
    (hnumber' : number' < tr.server.totalPacketNumber.toNat) (h : tr.dataAt number = tr.dataAt number') :
    number = number' := by
  obtain ⟨r, hfrom⟩ := exists_from_dataAt hnumber
  obtain ⟨hsame, -, harrived⟩ := dataAt_arrived hnumber hfrom
  obtain ⟨hsame', -, harrived'⟩ := dataAt_arrived hnumber' (h ▸ hfrom)
  rw [← hsame, ← hsame', ← harrived.number, harrived'.number]

/-- The other messages of the server cannot be lost. -/
theorem not_expendable (dst : SockAddr) {id : MessageId} (hid : id ≠ .data) :
    ¬tr.Expendable (tr.server.packet dst id) := by
  rintro ⟨number, hnumber, -, -, heq⟩
  obtain ⟨r, hfrom⟩ := exists_from_dataAt hnumber
  obtain ⟨-, -, harrived⟩ := dataAt_arrived hnumber hfrom
  have hother := ServerTransaction.arrived_of_from (heq ▸ hfrom)
  exact hid (Option.some.inj (hother.id.symm.trans harrived.id))

end Transfer

namespace CleanState

variable {tr : Transfer} {s : CleanState} {r : Received} {received number : ℕ}

/-- The client asks for the packet that it misses. -/
theorem arrival_ahead (ops : FileOps) (ht : tr.server.Transferable)
    (hat : s.sys.client.At tr.server (.receiving received))
    (hpos : 0 < received) (hless : received < number) (hnumber : number < tr.server.totalPacketNumber.toNat)
    (hnet : tr.dataAt number ∈ s.sys.net) (hfrom : r.From (tr.dataAt number)) :
    ∃ client q, s.sys.step tr (s.arrival tr (tr.dataAt number) r ops) =
        some (s.sys.clientDone (client, [.sent .rtx q])) ∧
      client.At tr.server (.receiving received) ∧ tr.IsRequest received q := by
  obtain ⟨hterminated, hreceiving⟩ := hat
  obtain ⟨hsame, hpsn, harrived⟩ := Transfer.dataAt_arrived hnumber hfrom
  have hrun := ClientTransaction.onReceive_ahead tr.client ops ht hpsn harrived hreceiving hpos (by omega)
  have hloop := ClientState.receiving_of_running hreceiving.running
  refine ⟨⟨s.sys.client.vars.heardFrom r.addr, false⟩, _, ?_, ⟨rfl, ?_⟩,
    s.sys.client.vars.heardFrom r.addr, rfl, harrived.addr, hreceiving.psn⟩
  · rw [arrival, if_pos ⟨rfl, hloop⟩, SystemState.step, if_pos ⟨hnet, hfrom, rfl⟩,
      ClientState.step_loop hterminated hloop hrun]
    rfl
  · exact ⟨⟨hreceiving.running.isActive, hreceiving.running.joinable, hreceiving.running.status⟩,
      ⟨hreceiving.announces.version, hreceiving.announces.size, hreceiving.announces.crc, hreceiving.announces.total⟩,
      hreceiving.psn, hreceiving.stream⟩

end CleanState

/-- The file is on its way, and the client has so many packets of it. -/
structure Streaming (tr : Transfer) (received : ℕ) (s : CleanState) : Prop where
  driver : s.sys.server.driver = .sample .data ∨ s.sys.server.driver = .waiting .data .data
  status : s.sys.server.vars.status = .data
  clientAddress : s.sys.server.vars.clientAddress = tr.client.udpSocket
  aborts : s.sys.server.aborts = 0
  client : s.sys.client.At tr.server (.receiving received)
  more : received < tr.server.totalPacketNumber.toNat

/-- The file is not on its way yet, or the client has it. -/
def CleanState.Quiet (s : CleanState) : Prop :=
  s.sys.server.sender = .notStarted ∨ s.sys.client.vars.status = .done ∨ s.sys.client.vars.isActive = false

/-- What is left to do, at most, when the file is not on its way: as much as in a clean run, and the repairs if
the file is still to be sent. -/
def CleanState.lossyRemaining (tr : Transfer) (s : CleanState) : ℕ :=
  s.remaining tr.server +
    if s.sys.server.sender = .notStarted then 120 * tr.server.totalPacketNumber.toNat + 18 else 0

/-- The stages of a lossy run, with what is left to do, at most. -/
inductive LossyStage (tr : Transfer) (s : CleanState) (rank : ℕ) : Prop
  | clean (h : Stage tr s) (hquiet : s.Quiet)
      (hrank : s.lossyRemaining tr ≤ rank)
  | streaming (received left : ℕ) (h : Streaming tr received s)
      (hpos : Repairing tr received s.sys.server s.toServer s.toClient left)
      (hrank : 6 * s.sys.server.driver.remaining + left ≤ rank)

namespace Repairing

variable {tr : Transfer} {received left : ℕ} {server : ServerState} {toServer toClient : List Packet}

/-- Where `StartFileTransfer` is makes no difference. -/
theorem move (h : Repairing tr received server toServer toClient left) (driver : DriverPos) :
    Repairing tr received { server with driver := driver } toServer toClient left := by
  cases h with
  | sending sent hidle hslot hsent hahead hmore => exact .sending sent hidle hslot hsent hahead hmore
  | inFlight sent hidle hslot hsender hpsn hahead hmore => exact .inFlight sent hidle hslot hsender hpsn hahead hmore
  | requested hidle hovertaken hp =>
    exact .requested hidle ⟨hovertaken.sender, hovertaken.slot, hovertaken.pos, hovertaken.less, hovertaken.more⟩ hp
  | hearing hhears hfrom hovertaken hp =>
    exact .hearing hhears hfrom
      ⟨hovertaken.sender, hovertaken.slot, hovertaken.pos, hovertaken.less, hovertaken.more⟩ hp
  | returning hidle hreturning => exact .returning hidle hreturning

/-- The packet that is due goes on its way. -/
theorem senderStep_sends {server' : ServerState} {es : List ServerEvent} {sent : ℕ}
    (h : server.senderStep tr.server true = some (server', es)) (hsends : server.sender = .send)
    (haddr : server.vars.clientAddress = tr.client.udpSocket) (hidle : server.receiver = .idle)
    (hslot : server.vars.retransmitPsn = noRetransmit)
    (hcount : server.vars.packetSequenceNumber.toNat = sent) (hahead : tr.Ahead received sent)
    (hmore : sent < tr.server.totalPacketNumber.toNat) :
    Repairing tr received server' [] (es.filterMap ServerEvent.packet?)
      (tr.repairRank received (if received = sent then 0 else 8) + 5) := by
  have hless : server.vars.packetSequenceNumber < tr.server.totalPacketNumber := by
    rw [UInt32.lt_iff_toNat_lt, hcount]
    exact hmore
  have hpacket : tr.server.dataPacket server.vars.clientAddress server.vars.packetSequenceNumber
      (chunk sizeofPayload tr.server.served server.vars.packetSequenceNumber.toNat) = tr.dataAt sent := by
    have hnumber : UInt32.ofNat sent = server.vars.packetSequenceNumber := by
      rw [← hcount, UInt32.ofNat_toNat]
    rw [haddr, Transfer.dataAt, hnumber]
  have hsame := (ServerState.senderStep_send hsends hless).symm.trans h
  simp only [Option.some.injEq, Prod.mk.injEq] at hsame
  obtain ⟨rfl, rfl⟩ := hsame
  have hqueue : [ServerEvent.transmitted server.vars.packetSequenceNumber
      (tr.server.dataPacket server.vars.clientAddress server.vars.packetSequenceNumber
        (chunk sizeofPayload tr.server.served server.vars.packetSequenceNumber.toNat))].filterMap
          ServerEvent.packet? = [tr.dataAt sent] := by
    rw [← hpacket]
    rfl
  rw [hqueue]
  exact .inFlight sent hidle hslot rfl hcount hahead hmore

/-- With a packet to send, the sender thread comes nearer to it or sends it. -/
theorem senderStep_sending {server' : ServerState} {es : List ServerEvent} {sent : ℕ}
    (h : server.senderStep tr.server true = some (server', es)) (hstatus : server.vars.status = .data)
    (haddr : server.vars.clientAddress = tr.client.udpSocket) (hidle : server.receiver = .idle)
    (hslot : server.vars.retransmitPsn = noRetransmit)
    (hsent : server.sender.HasSent tr.server server.vars.packetSequenceNumber.toNat sent)
    (hahead : tr.Ahead received sent) (hmore : sent < tr.server.totalPacketNumber.toNat) :
    server'.vars.status = .data ∧ ∃ left', Repairing tr received server' [] (es.filterMap ServerEvent.packet?) left' ∧
      left' < 6 * (server.senderRemaining tr.server + 7 * sent + (if received = sent then 3 else 11) +
        20 * (tr.server.totalPacketNumber.toNat - received)) := by
  have hmove := ServerState.senderStep_move h hsent hslot hstatus
  have hstatus' : server'.vars.status = .data := by
    rw [hmove.frame]
    exact hstatus
  refine ⟨hstatus', ?_⟩
  by_cases hsends : server.sender = .send
  · have hcount : server.vars.packetSequenceNumber.toNat = sent := by
      rw [hsends] at hsent
      exact hsent.1
    refine ⟨_, senderStep_sends h hsends haddr hidle hslot hcount hahead hmore, ?_⟩
    simp only [Transfer.repairRank, ServerState.senderRemaining, hsends]
    split_ifs <;> omega
  · have hgoes : server.sender ≠ .cancelling := by
      intro hcancels
      rw [hcancels] at hsent
      exact hsent
    have hsilent := ServerState.senderStep_silent h hsends hgoes
    have hslot' : server'.vars.retransmitPsn = noRetransmit := by
      rw [hmove.frame]
      exact hslot
    rcases hmove.sent with ⟨-, hsent'⟩ | ⟨hpacket, -⟩
    · rw [hsilent]
      refine ⟨_, .sending sent ((ServerState.senderStep_frame h).receiver.trans hidle) hslot' hsent' hahead hmore, ?_⟩
      have hless := hmove.less
      omega
    · rw [hsilent] at hpacket
      contradiction

/-- On its way back, the sender thread goes on, or it is there with the packet that was asked for to be sent. -/
theorem senderStep_goesBack {server' : ServerState} {es : List ServerEvent}
    (h : server.senderStep tr.server true = some (server', es)) (hstatus : server.vars.status = .data)
    (hidle : server.receiver = .idle) (hreturning : server.Returning tr.server received)
    (hmore : received < tr.server.totalPacketNumber.toNat) :
    server'.vars.status = .data ∧ ∃ left', Repairing tr received server' [] (es.filterMap ServerEvent.packet?) left' ∧
      left' < tr.repairRank received server.sender.returnSteps := by
  have hidle' : server'.receiver = .idle := (ServerState.senderStep_frame h).receiver.trans hidle
  obtain ⟨hsilent, hstatus', hnext⟩ := ServerState.senderStep_returning h hreturning hstatus hmore
  rw [hsilent]
  refine ⟨hstatus', ?_⟩
  rcases hnext with ⟨hreturning', hless⟩ | ⟨hsender, hpsn, hslot, hsteps⟩
  · refine ⟨_, .returning hidle' hreturning', ?_⟩
    simp only [Transfer.repairRank]
    omega
  · have hsent : server'.sender.HasSent tr.server server'.vars.packetSequenceNumber.toNat received := by
      rw [hsender]
      exact ⟨hpsn, hmore⟩
    refine ⟨_, .sending received hidle' hslot hsent ⟨le_rfl, fun hlt => absurd hlt (Nat.lt_irrefl _)⟩ hmore, ?_⟩
    simp only [Transfer.repairRank, ServerState.senderRemaining, hsender, hpsn, hsteps, if_true]
    omega

end Repairing

namespace Streaming

variable {tr : Transfer} {received left : ℕ} {s s' : CleanState} {e : List SystemEvent}

/-- The client has not sent DONE. -/
theorem status_ne (h : Streaming tr received s) : s.sys.client.vars.status ≠ .done := by
  have hstatus := h.client.2.running.status
  rw [hstatus]
  split_ifs <;> decide

/-- `StartFileTransfer` goes to its wait. -/
theorem driver_step (h : Streaming tr received s)
    (hpos : Repairing tr received s.sys.server s.toServer s.toClient left)
    (hstep : s.step tr .driver = some (s', e)) :
    LossyStage tr s' (6 * s'.sys.server.driver.remaining + left) ∧
      s'.sys.server.driver.remaining < s.sys.server.driver.remaining := by
  obtain ⟨server, es, hserver, rfl, -⟩ := CleanState.follow_local rfl hstep
  have hless := ServerState.driverStep_remaining hserver
  rcases h.driver with hsample | hwaiting
  · simp only [ServerState.step, ServerState.driverStep, hsample, h.status] at hserver
    cases hserver
    refine ⟨.streaming received left ⟨Or.inr rfl, h.status, h.clientAddress, h.aborts, h.client, h.more⟩ ?_ le_rfl,
      hless⟩
    have hsilent : s.toClient ++ [ServerEvent.sampled .data].filterMap ServerEvent.packet? = s.toClient :=
      List.append_nil _
    rw [hsilent]
    exact hpos.move (.waiting .data .data)
  · simp [ServerState.step, ServerState.driverStep, hwaiting, h.status] at hserver

/-- The sender thread sends the next packet, or goes back to the one that was asked for. -/
theorem sender_step (h : Streaming tr received s)
    (hpos : Repairing tr received s.sys.server s.toServer s.toClient left) (hsettled : s.Settled)
    (hstep : s.step tr .sender = some (s', e)) :
    ∃ left', LossyStage tr s' (6 * s.sys.server.driver.remaining + left') ∧ left' < left := by
  obtain ⟨hclient, hidle, hserverQueue⟩ := hsettled
  have hserverQueue := hserverQueue.resolve_right h.status_ne
  obtain ⟨server, es, hserver, rfl, -⟩ := CleanState.follow_local rfl hstep
  have hframe := ServerState.senderStep_frame hserver
  obtain ⟨⟨old, client, net⟩, toServer, toClient⟩ := s
  obtain rfl : toClient = [] := hclient
  obtain rfl : toServer = [] := hserverQueue
  have hstreaming (hstatus : server.vars.status = .data) (queue : List Packet) :
      Streaming tr received ⟨⟨server, client, net ++ es.filterMap ServerEvent.packet?⟩, [], queue⟩ :=
    ⟨by rw [hframe.driver]; exact h.driver, hstatus, hframe.clientAddress.trans h.clientAddress,
      hframe.aborts.trans h.aborts, h.client, h.more⟩
  have hrank (n : ℕ) : 6 * server.driver.remaining + n ≤ 6 * old.driver.remaining + n := by
    rw [hframe.driver]
  cases hpos with
  | sending sent hidle hslot hsent hahead hmore =>
    obtain ⟨hstatus, left', hnext, hless⟩ :=
      Repairing.senderStep_sending hserver h.status h.clientAddress hidle hslot hsent hahead hmore
    exact ⟨left', .streaming received left' (hstreaming hstatus _) hnext (hrank left'), hless⟩
  | hearing hhears =>
    rw [show old.receiver = .idle from hidle] at hhears
    rcases hhears with hpos | ⟨-, hpos⟩ | hpos <;> contradiction
  | returning hidle hreturning =>
    obtain ⟨hstatus, left', hnext, hless⟩ :=
      Repairing.senderStep_goesBack hserver h.status hidle hreturning h.more
    exact ⟨left', .streaming received left' (hstreaming hstatus _) hnext (hrank left'), hless⟩

/-- `OnReceive` hears the request. -/
theorem receiver_step (h : Streaming tr received s)
    (hpos : Repairing tr received s.sys.server s.toServer s.toClient left)
    (hstep : s.step tr .receiver = some (s', e)) :
    ∃ left', LossyStage tr s' (6 * s.sys.server.driver.remaining + left') ∧ left' < left := by
  obtain ⟨server, es, hserver, rfl, -⟩ := CleanState.follow_local rfl hstep
  have hsilent := ServerState.receiverStep_silent hserver
  obtain ⟨⟨old, client, net⟩, toServer, toClient⟩ := s
  have hblocked (hidle : old.receiver = .idle) : False := by
    simp [ServerState.step, ServerState.receiverStep, hidle] at hserver
  simp only [hsilent, List.append_nil]
  cases hpos with
  | sending _ hidle | inFlight _ hidle | requested hidle | returning hidle => exact (hblocked hidle).elim
  | hearing hhears hfrom hovertaken hp =>
    rcases ServerState.receiverStep_requested hserver hhears h.status hovertaken.less.le hfrom hp with
      ⟨receiver, rfl, hhears', hless⟩ | ⟨slot, hslot, hremaining, rfl⟩
    · refine ⟨tr.repairRank received 8 + receiver.remaining, .streaming received _
        ⟨h.driver, h.status, h.clientAddress, h.aborts, h.client, h.more⟩ ?_ le_rfl, by omega⟩
      exact .hearing hhears' hfrom
        ⟨hovertaken.sender, hovertaken.slot, hovertaken.pos, hovertaken.less, hovertaken.more⟩ hp
    · have hsteps : old.sender.returnSteps = 8 := by
        rw [hovertaken.sender]
        rfl
      refine ⟨tr.repairRank received old.sender.returnSteps, .streaming received _
        ⟨h.driver, h.status, h.clientAddress, h.aborts, h.client, h.more⟩ ?_ le_rfl, by rw [hsteps]; omega⟩
      refine .returning rfl ?_
      have hsender : old.sender = .eofTest := hovertaken.sender
      unfold ServerState.Returning
      simp only [hsender]
      exact ⟨hslot, hovertaken.more⟩

/-- The request is handed to `OnReceive`. -/
theorem toServer_step (h : Streaming tr received s)
    (hpos : Repairing tr received s.sys.server s.toServer s.toClient left) {p : Packet} {r : Received}
    {rest : List Packet} (hqueue : s.toServer = p :: rest)
    (hfollow : s.follow tr (.toServer p r) rest s.toClient = some (s', e)) :
    ∃ left', LossyStage tr s' (6 * s.sys.server.driver.remaining + left') ∧ left' < left := by
  obtain ⟨hfrom, server, hserver, rfl, -⟩ := CleanState.follow_delivery hfollow
  obtain ⟨⟨old, client, net⟩, toServer, toClient⟩ := s
  obtain ⟨-, -, rfl⟩ := ServerState.deliverStep_eq hserver
  cases hpos with
  | sending | inFlight | hearing | returning => contradiction
  | requested hidle hovertaken hp =>
    obtain ⟨rfl, rfl⟩ := List.cons.inj hqueue
    obtain ⟨w, rfl, -, hnumber⟩ := id hp
    have harrived := ClientTransaction.arrived_of_from hfrom
    have hintact : ServerTransaction.validateMessageIntegrity r.msg r.len = true := harrived.intact
    refine ⟨tr.repairRank received 8 + 3, .streaming received _
      ⟨h.driver, h.status, harrived.addr, h.aborts, h.client, h.more⟩ ?_ le_rfl, by omega⟩
    simp only [if_pos hintact]
    exact .hearing (Or.inl rfl) hfrom
      ⟨hovertaken.sender, hovertaken.slot, hovertaken.pos, hovertaken.less, hovertaken.more⟩ hp

/-- What is left to do when a packet of the file is on its way. -/
theorem left_of_inFlight {server : ServerState} {toServer toClient rest : List Packet} {p : Packet}
    (hpos : Repairing tr received server toServer toClient left) (hqueue : toClient = p :: rest) :
    ∃ sent, toServer = [] ∧ p = tr.dataAt sent ∧ rest = [] ∧ server.receiver = .idle ∧
      server.vars.retransmitPsn = noRetransmit ∧ server.sender = .eofTest ∧
      server.vars.packetSequenceNumber.toNat = sent ∧ tr.Ahead received sent ∧
      sent < tr.server.totalPacketNumber.toNat ∧
      left = tr.repairRank received (if received = sent then 0 else 8) + 5 := by
  cases hpos with
  | sending | requested | hearing | returning => contradiction
  | inFlight sent hidle hslot hsender hpsn hahead hmore =>
    obtain ⟨rfl, rfl⟩ := List.cons.inj hqueue
    exact ⟨sent, rfl, rfl, rfl, hidle, hslot, hsender, hpsn, hahead, hmore, rfl⟩

/-- A lost packet is sent again later. -/
theorem lose_step (h : Streaming tr received s)
    (hpos : Repairing tr received s.sys.server s.toServer s.toClient left) {p : Packet} {rest : List Packet}
    (hqueue : s.toClient = p :: rest) (hexpendable : tr.Expendable p) :
    ∃ left', LossyStage tr ⟨s.sys, s.toServer, rest⟩ (6 * s.sys.server.driver.remaining + left') ∧
      left' + 1 ≤ left + 86 := by
  obtain ⟨sent, hempty, rfl, rfl, hidle, hslot, hsender, hpsn, hahead, hmore, rfl⟩ :=
    left_of_inFlight hpos hqueue
  obtain ⟨number, hnumber, hfirst, hlast, heq⟩ := hexpendable
  obtain rfl := Transfer.dataAt_injective hmore hnumber heq
  have hsent : s.sys.server.sender.HasSent tr.server s.sys.server.vars.packetSequenceNumber.toNat (sent + 1) := by
    rw [hsender]
    exact ⟨by rw [hpsn], hmore⟩
  refine ⟨6 * (s.sys.server.senderRemaining tr.server + 7 * (sent + 1) + (if received = sent + 1 then 3 else 11) +
      20 * (tr.server.totalPacketNumber.toNat - received)), .streaming received _
    ⟨h.driver, h.status, h.clientAddress, h.aborts, h.client, h.more⟩ ?_ le_rfl, ?_⟩
  · rw [hempty]
    refine .sending (sent + 1) hidle hslot hsent ⟨Nat.le_succ_of_le hahead.1, fun _ => ⟨?_, by omega⟩⟩ (by omega)
    rcases Nat.eq_or_lt_of_le hahead.1 with rfl | hbehind
    · exact hfirst
    · exact (hahead.2 hbehind).1
  · have hle := hahead.1
    simp only [Transfer.repairRank, ServerState.senderRemaining, hsender, hpsn]
    split_ifs <;> omega

/-- The client takes the packet that it expects, or asks for it. -/
theorem toClient_step (ht : tr.server.Transferable) (hserved : tr.server.served = tr.server.file)
    (h : Streaming tr received s) (hpos : Repairing tr received s.sys.server s.toServer s.toClient left)
    {r : Received} {ops : FileOps} (hstep : s.step tr (.toClient r ops) = some (s', e)) :
    ∃ left', LossyStage tr s' (6 * s.sys.server.driver.remaining + left') ∧ left' < left := by
  obtain ⟨p, rest, hqueue, hops, hfollow⟩ := CleanState.step_toClient hstep
  obtain ⟨hsystem, htoServer, htoClient⟩ := CleanState.follow_cases hfollow
  obtain ⟨hnet, hfrom⟩ := CleanState.arrival_delivers hsystem
  obtain ⟨sent, hempty, rfl, rfl, hidle, hslot, hsender, hpsn, hahead, hmore, rfl⟩ :=
    left_of_inFlight hpos hqueue
  obtain ⟨hsame, hless, -⟩ := Transfer.dataAt_arrived hmore hfrom
  obtain ⟨sys', toServer', toClient'⟩ := s'
  simp only at htoServer htoClient
  have hnext (client : ClientState) (events : List ClientEvent)
      (hanswered : s.sys.step tr (s.arrival tr (tr.dataAt sent) r ops) = some (s.sys.clientDone (client, events))) :
      sys' = ⟨s.sys.server, client, s.sys.net ++ events.filterMap ClientEvent.packet?⟩ ∧
        toServer' = events.filterMap ClientEvent.packet? ∧ toClient' = [] := by
    rw [hanswered, SystemState.clientDone, Option.some.injEq, Prod.mk.injEq] at hsystem
    obtain ⟨hsys, rfl⟩ := hsystem
    refine ⟨hsys.symm, ?_, ?_⟩
    · rw [htoServer, (CleanState.filterMap_client events).1, hempty]
      rfl
    · rw [htoClient, (CleanState.filterMap_client events).2]
      rfl
  rcases Nat.eq_or_lt_of_le hahead.1 with rfl | hbehind
  · by_cases hlast : received + 1 = tr.server.totalPacketNumber.toNat
    · -- the file is complete
      obtain ⟨client, events, hanswered, hat, hsends⟩ := CleanState.answered_of_expects ht hserved h.client
        (.last hless hsame hlast) hnet hfrom hops
      obtain ⟨rfl, rfl, rfl⟩ := hnext client events hanswered
      obtain ⟨id, q, hid, hone, hreply⟩ := hsends.packets.resolve_left (by simp)
      obtain rfl := Option.some.inj hid
      have hsent : s.sys.server.sender.HasSent tr.server s.sys.server.vars.packetSequenceNumber.toNat
          tr.server.totalPacketNumber.toNat := by
        rw [hsender]
        exact ⟨by rw [hpsn, hlast], le_rfl⟩
      have hstage : Stage tr ⟨⟨s.sys.server, client, s.sys.net ++ events.filterMap ClientEvent.packet?⟩,
          events.filterMap ClientEvent.packet?, []⟩ := by
        rw [hone]
        have hserver : s.sys.server =
            ⟨s.sys.server.vars, s.sys.server.driver, s.sys.server.sender, .idle, 0⟩ := by
          rw [← hidle, ← h.aborts]
        rw [hserver]
        exact .replied .data h.driver ⟨h.status, h.clientAddress, hslot⟩ (Or.inr ⟨rfl, hsent⟩) hreply hat
      refine ⟨28, .clean hstage (Or.inr (Or.inl hat.2.status)) ?_, ?_⟩
      · have hfresh : s.sys.server.sender ≠ .notStarted := by
          rw [hsender]
          decide
        rw [CleanState.lossyRemaining, if_neg hfresh, hone]
        simp only [CleanState.remaining, ServerState.senderRemaining, hsender, hpsn, hidle, ReceiverPos.remaining,
          List.length_nil, List.length_singleton]
        omega
      · simp only [Transfer.repairRank]
        omega
    · obtain ⟨client, events, hanswered, hat, hsends⟩ := CleanState.answered_of_expects ht hserved h.client
        (.packet hless hsame (by omega)) hnet hfrom hops
      obtain ⟨rfl, rfl, rfl⟩ := hnext client events hanswered
      have hnone := hsends.packets.resolve_right (by simp)
      have hsent : s.sys.server.sender.HasSent tr.server s.sys.server.vars.packetSequenceNumber.toNat
          (received + 1) := by
        rw [hsender]
        exact ⟨by rw [hpsn], hmore⟩
      refine ⟨6 * (s.sys.server.senderRemaining tr.server + 7 * (received + 1) +
          (if received + 1 = received + 1 then 3 else 11) +
          20 * (tr.server.totalPacketNumber.toNat - (received + 1))), .streaming (received + 1) _
        ⟨h.driver, h.status, h.clientAddress, h.aborts, hat, by omega⟩ ?_ le_rfl, ?_⟩
      · rw [hnone.2]
        exact .sending (received + 1) hidle hslot hsent ⟨le_rfl, fun hlt => absurd hlt (Nat.lt_irrefl _)⟩ (by omega)
      · simp only [Transfer.repairRank, ServerState.senderRemaining, hsender, hpsn, if_true]
        omega
  · obtain ⟨hfirst, hroom⟩ := hahead.2 hbehind
    obtain ⟨client, q, hanswered, hat, hrequest⟩ :=
      CleanState.arrival_ahead ops ht h.client hfirst hbehind hmore hnet hfrom
    obtain ⟨rfl, rfl, rfl⟩ := hnext client _ hanswered
    have hovertaken : s.sys.server.Overtaken tr.server received :=
      ⟨hsender, hslot, hfirst, by rw [hpsn]; exact hbehind, by rw [hpsn]; exact hroom⟩
    refine ⟨tr.repairRank received 8 + 4, .streaming received _
      ⟨h.driver, h.status, h.clientAddress, h.aborts, hat, h.more⟩ ?_ le_rfl, ?_⟩
    · exact .requested hidle hovertaken hrequest
    · rw [if_neg (Nat.ne_of_lt hbehind)]
      omega

end Streaming

end Trftp
