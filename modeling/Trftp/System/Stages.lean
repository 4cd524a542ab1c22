import Trftp.System.Answers
import Trftp.System.Completion
import Trftp.Server.Progress

/-!
# The stages of a clean run

A clean run goes through each of the three exchanges of the protocol in the same way: the request
is stored and sent, the client answers, the answer is heard by the wait, and the caller goes on. In
the last exchange the request is the whole file, packet by packet, with the sender thread and the
client each somewhere in it. In every stage something can be done, and it lowers a measure, so a
clean run ends, and it ends behind the last stage.
-/

namespace Trftp

open Lib (chunk)

/-- Where the server sends the request of a phase. -/
def Phase.address (tr : Transfer) : Phase → SockAddr
  | .ntf => tr.server.addr
  | .info | .data => tr.client.udpSocket

/-- How far the client is when the request of a phase is sent. -/
def Phase.before : Phase → ClientStage
  | .ntf => .idle
  | .info => .checked
  | .data => .receiving 0

/-- How far the client is when it has answered. -/
def Phase.after : Phase → ClientStage
  | .ntf => .checked
  | .info => .receiving 0
  | .data => .verified

/-- The sender thread when the answer is heard. -/
def Phase.sender : Phase → SenderPos
  | .ntf | .info => .notStarted
  | .data => .finished

/-- The members of the server in a clean run. -/
structure ServerVars.Clean (v : ServerVars) (status : MessageId) (address : SockAddr) : Prop where
  status : v.status = status
  clientAddress : v.clientAddress = address
  slot : v.retransmitPsn = noRetransmit

/-- The sender thread has sent so many packets. -/
def SenderPos.HasSent (t : ServerTransaction) (sender : SenderPos) (psn count : ℕ) : Prop :=
  match sender with
  | .opening | .init => count = 0
  | .loopTest => psn = count ∧ count ≤ t.totalPacketNumber.toNat
  | .cxlCheck | .rtxCheck | .send => psn = count ∧ count < t.totalPacketNumber.toNat
  | .eofTest | .eofCheck | .increment => psn + 1 = count ∧ count ≤ t.totalPacketNumber.toNat
  | .finished => psn = count ∧ count = t.totalPacketNumber.toNat
  | _ => False

/-- No more packets are sent than there are. -/
theorem SenderPos.HasSent.le {t : ServerTransaction} {sender : SenderPos} {psn count : ℕ}
    (h : sender.HasSent t psn count) : count ≤ t.totalPacketNumber.toNat := by
  cases sender with
  | opening | init =>
    have hzero : count = 0 := h
    omega
  | loopTest | eofTest | eofCheck | increment => exact h.2
  | cxlCheck | rtxCheck | send => exact h.2.le
  | finished => exact h.2.le
  | notStarted | rtxTake | rtxStore | eofTake | eofStore | failing | cancelling | stopped => exact h.elim

/-- The packet with this number, on its way to the client. -/
def Transfer.dataAt (tr : Transfer) (number : ℕ) : Packet :=
  tr.server.dataPacket tr.client.udpSocket (UInt32.ofNat number)
    (chunk sizeofPayload tr.server.served (UInt32.ofNat number).toNat)

/-- The packets that were sent and not received. -/
def Transfer.dataInFlight (tr : Transfer) (received sent : ℕ) : List Packet :=
  (List.range' received (sent - received)).map tr.dataAt

/-- The sender thread adds the next packet at the end. -/
theorem Transfer.dataInFlight_sent (tr : Transfer) {received sent : ℕ} (h : received ≤ sent) :
    tr.dataInFlight received sent ++ [tr.dataAt sent] = tr.dataInFlight received (sent + 1) := by
  have hcount : sent + 1 - received = sent - received + 1 := by omega
  rw [dataInFlight, dataInFlight, hcount, List.range'_1_concat, List.map_append, Nat.add_sub_cancel' h]
  rfl

/-- The client is given the first one. -/
theorem Transfer.dataInFlight_received (tr : Transfer) {received sent : ℕ} (h : received < sent) :
    tr.dataInFlight received sent = tr.dataAt received :: tr.dataInFlight (received + 1) sent := by
  have hcount : sent - received = sent - (received + 1) + 1 := by omega
  rw [dataInFlight, dataInFlight, hcount, List.range'_succ, List.map_cons]

/-- What the server's `OnReceive` does with the answer of a phase. -/
def ReceiverPos.Hears (receiver : ReceiverPos) (phase : Phase) (r : Received) : Prop :=
  receiver = .phaseCheck r ∨ (phase = .data ∧ receiver = .psnCheck r) ∨ receiver = .commit r

/-- The stages of a clean run. -/
inductive Stage (tr : Transfer) : CleanState → Prop
  /-- nothing was done -/
  | start {v : ServerVars} {client : ClientState} {net : List Packet} {status : MessageId}
      (hv : v.Clean status tr.server.addr) (hclient : client.At tr.server .idle) :
      Stage tr ⟨⟨⟨v, .start, .notStarted, .idle, 0⟩, client, net⟩, [], []⟩
  /-- the request of a phase is stored -/
  | requesting {v : ServerVars} {client : ClientState} {net : List Packet} (phase : Phase)
      (hv : v.Clean phase.request (phase.address tr)) (hclient : client.At tr.server phase.before) :
      Stage tr ⟨⟨⟨v, .sending phase, .notStarted, .idle, 0⟩, client, net⟩, [], []⟩
  /-- the request is on its way -/
  | asked {v : ServerVars} {driver : DriverPos} {client : ClientState} {net : List Packet} (phase : Phase)
      (hphase : phase ≠ .data) (hdriver : driver = .sample phase ∨ driver = .waiting phase phase.request)
      (hv : v.Clean phase.request (phase.address tr)) (hclient : client.At tr.server phase.before) :
      Stage tr ⟨⟨⟨v, driver, .notStarted, .idle, 0⟩, client, net⟩, [],
        [tr.server.packet (phase.address tr) phase.request]⟩
  /-- the file is on its way -/
  | streaming {v : ServerVars} {driver : DriverPos} {sender : SenderPos} {client : ClientState}
      {net : List Packet} (received sent : ℕ) (hdriver : driver = .sample .data ∨ driver = .waiting .data .data)
      (hv : v.Clean .data tr.client.udpSocket)
      (hsent : sender.HasSent tr.server v.packetSequenceNumber.toNat sent) (hle : received ≤ sent)
      (hmore : received < tr.server.totalPacketNumber.toNat)
      (hclient : client.At tr.server (.receiving received)) :
      Stage tr ⟨⟨⟨v, driver, sender, .idle, 0⟩, client, net⟩, [], tr.dataInFlight received sent⟩
  /-- the answer is on its way -/
  | replied {v : ServerVars} {driver : DriverPos} {sender : SenderPos} {client : ClientState}
      {net : List Packet} {p : Packet} (phase : Phase)
      (hdriver : driver = .sample phase ∨ driver = .waiting phase phase.request)
      (hv : v.Clean phase.request (phase.address tr))
      (hsender : (phase ≠ .data ∧ sender = .notStarted) ∨
        (phase = .data ∧
          sender.HasSent tr.server v.packetSequenceNumber.toNat tr.server.totalPacketNumber.toNat))
      (hreply : IsReply tr phase.reply p) (hclient : client.At tr.server phase.after) :
      Stage tr ⟨⟨⟨v, driver, sender, .idle, 0⟩, client, net⟩, [p], []⟩
  /-- `OnReceive` works on the answer -/
  | heard {v : ServerVars} {receiver : ReceiverPos} {client : ClientState} {net : List Packet} {p : Packet}
      {r : Received} (phase : Phase) (hv : v.Clean phase.request tr.client.udpSocket)
      (hpsn : phase = .data → v.packetSequenceNumber = tr.server.totalPacketNumber)
      (hreceiver : receiver.Hears phase r) (hfrom : r.From p) (hreply : IsReply tr phase.reply p)
      (hclient : client.At tr.server phase.after) :
      Stage tr ⟨⟨⟨v, .waiting phase phase.request, phase.sender, receiver, 0⟩, client, net⟩, [], []⟩
  /-- the answer was accepted -/
  | answered {v : ServerVars} {driver : DriverPos} {client : ClientState} {net : List Packet} (phase : Phase)
      (hdriver : driver = .waiting phase phase.request ∨ driver = .woken phase ∨
        driver = .decide phase (some phase.reply))
      (hv : v.Clean phase.reply tr.client.udpSocket) (hclient : client.At tr.server phase.after) :
      Stage tr ⟨⟨⟨v, driver, phase.sender, .idle, 0⟩, client, net⟩, [], []⟩
  /-- FIN is stored -/
  | finishing {v : ServerVars} {client : ClientState} {net : List Packet}
      (hv : v.Clean .fin tr.client.udpSocket) (hclient : client.At tr.server .verified) :
      Stage tr ⟨⟨⟨v, .finishing, .finished, .idle, 0⟩, client, net⟩, [], []⟩
  /-- FIN is on its way -/
  | finSent {v : ServerVars} {driver : DriverPos} {client : ClientState} {net : List Packet}
      (hdriver : driver = .erase .fin ∨ driver = .returned .fin) (hclient : client.At tr.server .verified) :
      Stage tr ⟨⟨⟨v, driver, .finished, .idle, 0⟩, client, net⟩, [],
        [tr.server.packet tr.client.udpSocket .fin]⟩
  /-- the client was told -/
  | told {v : ServerVars} {driver : DriverPos} {client : ClientState} {net : List Packet}
      (hdriver : driver = .erase .fin ∨ driver = .returned .fin) (hclient : client.At tr.server .told) :
      Stage tr ⟨⟨⟨v, driver, .finished, .idle, 0⟩, client, net⟩, [], []⟩

/-! ## The measure -/

/-- Statements of the sender thread that are left, at most, where no packet is sent again. -/
def ServerState.senderRemaining (t : ServerTransaction) (s : ServerState) : ℕ :=
  let left := t.totalPacketNumber.toNat - s.vars.packetSequenceNumber.toNat
  match s.sender with
  | .notStarted => 7 * t.totalPacketNumber.toNat + 4
  | .opening => 7 * t.totalPacketNumber.toNat + 3
  | .init => 7 * t.totalPacketNumber.toNat + 2
  | .loopTest => 7 * left + 1
  | .cxlCheck => 7 * left
  | .rtxCheck => 7 * left - 1
  | .send => 7 * left - 2
  | .eofTest => 7 * left - 3
  | .eofCheck => 7 * left - 4
  | .increment => 7 * left - 5
  | .rtxTake | .rtxStore _ | .eofTake | .eofStore _ | .failing | .cancelling | .stopped | .finished => 0

/-- Statements of `OnReceive` that are left, at most. -/
def ReceiverPos.remaining : ReceiverPos → ℕ
  | .idle => 0
  | .phaseCheck _ => 3
  | .psnCheck _ => 2
  | .commit _ => 1

/-- What is left to do. A statement of the server can send a message, which weighs less than the statement;
the client can answer it, and the server receives the answer with three statements. -/
def CleanState.remaining (t : ServerTransaction) (s : CleanState) : ℕ :=
  6 * (s.sys.server.driver.remaining + s.sys.server.senderRemaining t) + 5 * s.toClient.length +
    4 * s.toServer.length + s.sys.server.receiver.remaining

namespace ServerState

variable {t : ServerTransaction} {s s' : ServerState} {es : List ServerEvent} {count : ℕ}

/-- What a step of the sender thread comes to when nobody asks for a retransmission. -/
structure SenderMove (t : ServerTransaction) (s s' : ServerState) (es : List ServerEvent) (count : ℕ) : Prop where
  frame : s' = { s with
    vars := { s.vars with packetSequenceNumber := s'.vars.packetSequenceNumber }, sender := s'.sender }
  sent : (es.filterMap ServerEvent.packet? = [] ∧
      s'.sender.HasSent t s'.vars.packetSequenceNumber.toNat count) ∨
    (es.filterMap ServerEvent.packet? = [t.dataPacket s.vars.clientAddress (UInt32.ofNat count)
        (chunk sizeofPayload t.served (UInt32.ofNat count).toNat)] ∧
      s'.sender.HasSent t s'.vars.packetSequenceNumber.toNat (count + 1))
  less : s'.senderRemaining t < s.senderRemaining t

/-- Every step of the sender thread is such a move. -/
theorem senderStep_move (h : s.senderStep t true = some (s', es))
    (hsent : s.sender.HasSent t s.vars.packetSequenceNumber.toNat count)
    (hslot : s.vars.retransmitPsn = noRetransmit) (hstatus : s.vars.status = .data) :
    SenderMove t s s' es count := by
  obtain ⟨v, driver, sender, receiver, aborts⟩ := s
  cases sender with
  | opening =>
    cases h
    refine ⟨rfl, Or.inl ⟨rfl, hsent⟩, ?_⟩
    simp only [senderRemaining, if_true]
    omega
  | init =>
    cases h
    have hzero : count = 0 := hsent
    refine ⟨rfl, Or.inl ⟨rfl, hzero.symm, hzero ▸ Nat.zero_le _⟩, ?_⟩
    simp only [senderRemaining, setPsn, UInt32.toNat_zero]
    omega
  | loopTest =>
    obtain ⟨hpsn, hle⟩ : v.packetSequenceNumber.toNat = count ∧ count ≤ t.totalPacketNumber.toNat := hsent
    simp only [senderStep] at h
    split_ifs at h with hmore
    · cases h
      have hlt := UInt32.lt_iff_toNat_lt.mp hmore
      refine ⟨rfl, Or.inl ⟨rfl, hpsn, by omega⟩, ?_⟩
      simp only [senderRemaining]
      omega
    · cases h
      have hge : ¬v.packetSequenceNumber.toNat < t.totalPacketNumber.toNat := fun hlt =>
        hmore (UInt32.lt_iff_toNat_lt.mpr hlt)
      refine ⟨rfl, Or.inl ⟨rfl, hpsn, by omega⟩, ?_⟩
      simp only [senderRemaining]
      omega
  | cxlCheck =>
    obtain ⟨hpsn, hlt⟩ : v.packetSequenceNumber.toNat = count ∧ count < t.totalPacketNumber.toNat := hsent
    have hgoes : ¬v.status = .cxl := by
      rw [show v.status = .data from hstatus]
      decide
    simp only [senderStep, if_neg hgoes] at h
    cases h
    refine ⟨rfl, Or.inl ⟨rfl, hpsn, hlt⟩, ?_⟩
    simp only [senderRemaining]
    omega
  | rtxCheck =>
    obtain ⟨hpsn, hlt⟩ : v.packetSequenceNumber.toNat = count ∧ count < t.totalPacketNumber.toNat := hsent
    simp only [senderStep, if_neg (not_not.mpr hslot)] at h
    cases h
    refine ⟨rfl, Or.inl ⟨rfl, hpsn, hlt⟩, ?_⟩
    simp only [senderRemaining]
    omega
  | send =>
    obtain ⟨hpsn, hlt⟩ : v.packetSequenceNumber.toNat = count ∧ count < t.totalPacketNumber.toNat := hsent
    have hless : v.packetSequenceNumber < t.totalPacketNumber := UInt32.lt_iff_toNat_lt.mpr (hpsn ▸ hlt)
    have hread := ServerTransaction.readData_eq hless
    simp only [senderStep, hread] at h
    cases h
    refine ⟨rfl, Or.inr ⟨?_, by rw [hpsn], hlt⟩, ?_⟩
    · rw [← hpsn, UInt32.ofNat_toNat]
      rfl
    · simp only [senderRemaining]
      omega
  | eofTest =>
    obtain ⟨hpsn, hle⟩ : v.packetSequenceNumber.toNat + 1 = count ∧ count ≤ t.totalPacketNumber.toNat := hsent
    simp only [senderStep] at h
    split_ifs at h with hlast <;> cases h
    · refine ⟨rfl, Or.inl ⟨rfl, hpsn, hle⟩, ?_⟩
      simp only [senderRemaining]
      omega
    · refine ⟨rfl, Or.inl ⟨rfl, hpsn, hle⟩, ?_⟩
      simp only [senderRemaining]
      omega
  | eofCheck =>
    obtain ⟨hpsn, hle⟩ : v.packetSequenceNumber.toNat + 1 = count ∧ count ≤ t.totalPacketNumber.toNat := hsent
    simp only [senderStep, if_neg (not_not.mpr hslot)] at h
    cases h
    refine ⟨rfl, Or.inl ⟨rfl, hpsn, hle⟩, ?_⟩
    simp only [senderRemaining]
    omega
  | increment =>
    obtain ⟨hpsn, hle⟩ : v.packetSequenceNumber.toNat + 1 = count ∧ count ≤ t.totalPacketNumber.toNat := hsent
    have hlt : v.packetSequenceNumber.toNat < t.totalPacketNumber.toNat := by omega
    have hnext : (v.packetSequenceNumber + 1).toNat = count := by rw [Lib.toNat_succ_of_lt hlt, hpsn]
    cases h
    refine ⟨rfl, Or.inl ⟨rfl, hnext, hle⟩, ?_⟩
    simp only [senderRemaining, setPsn, hnext]
    omega
  | finished | notStarted | stopped => contradiction
  | rtxTake | rtxStore | eofTake | eofStore | failing | cancelling => exact hsent.elim

/-- What a statement of `OnReceive` comes to while it works on the answer of a phase: it passes a check,
or it accepts the message. -/
inductive Hearing (s : ServerState) (phase : Phase) (r : Received) : ServerState → Prop
  | checked {receiver : ReceiverPos} (hreceiver : receiver.Hears phase r) :
      Hearing s phase r { s with receiver := receiver }
  | accepted {v : ServerVars} (hv : v.Clean phase.reply s.vars.clientAddress) :
      Hearing s phase r { s with vars := v, receiver := .idle }

/-- The answer of a phase passes every check. -/
theorem receiverStep_hearing {tr : Transfer} {phase : Phase} {r : Received} {p : Packet}
    (h : s.receiverStep tr.server = some (s', es)) (hreceiver : s.receiver.Hears phase r)
    (hv : s.vars.Clean phase.request s.vars.clientAddress)
    (hpsn : phase = .data → s.vars.packetSequenceNumber = tr.server.totalPacketNumber) (hfrom : r.From p)
    (hreply : IsReply tr phase.reply p) : Hearing s phase r s' := by
  obtain ⟨w, rfl, -, hdone⟩ := hreply
  have harrived := ClientTransaction.arrived_of_from hfrom
  have hlen := harrived.payloadLen
  obtain ⟨v, driver, sender, receiver, aborts⟩ := s
  have hstatus : v.status = phase.request := hv.status
  unfold receiverStep at h
  rcases hreceiver with rfl | ⟨rfl, rfl⟩ | rfl
  · cases phase with
    | ntf =>
      have hvalid : v.status = .ntf ∧ ServerTransaction.validateChk r.payloadLen = true :=
        ⟨hstatus, by rw [hlen]; rfl⟩
      simp only [harrived.id, Phase.reply, if_pos hvalid] at h
      cases h
      exact .checked (Or.inr (Or.inr rfl))
    | info =>
      have hvalid : v.status = .info ∧ ServerTransaction.validateRdy r.payloadLen = true :=
        ⟨hstatus, by rw [hlen]; rfl⟩
      simp only [harrived.id, Phase.reply, if_pos hvalid] at h
      cases h
      exact .checked (Or.inr (Or.inr rfl))
    | data =>
      have hdata : v.status = .data := hstatus
      simp only [harrived.id, Phase.reply, if_pos hdata] at h
      cases h
      exact .checked (Or.inr (Or.inl ⟨rfl, rfl⟩))
  · have hvalid : v.packetSequenceNumber = tr.server.totalPacketNumber ∧
        tr.server.validateDone r.msg.done r.payloadLen = true := ⟨hpsn rfl, (hdone rfl).validateDone hfrom⟩
    simp only [harrived.id, Phase.reply, if_pos hvalid] at h
    cases h
    exact .checked (Or.inr (Or.inr rfl))
  · cases phase with
    | ntf | info | data =>
      simp only [harrived.id, Phase.reply] at h
      cases h
      exact .accepted ⟨rfl, rfl, hv.slot⟩

/-- `OnReceive` sends nothing. -/
theorem receiverStep_silent (h : s.receiverStep t = some (s', es)) :
    es.filterMap ServerEvent.packet? = [] := by
  apply List.filterMap_eq_nil_iff.mpr
  intro x hx
  have hreports := step_reports_mem (a := .receiver) h hx
  cases x with
  | accepted => rfl
  | stored | sent | sampled | waited | returned | iteration | checked | transmitted | finished => contradiction

/-- A statement of `OnReceive` leaves fewer to do. -/
theorem receiverStep_remaining (h : s.receiverStep t = some (s', es)) :
    s'.receiver.remaining < s.receiver.remaining := by
  revert h
  fun_cases ServerState.receiverStep t s <;> intro h <;> cases h
  all_goals
    simp [*, ReceiverPos.remaining, accept]

end ServerState

namespace Stage

variable {tr : Transfer} {s s' : CleanState} {e : List SystemEvent}

/-- The wait does not end before the status changes. -/
theorem waiting_blocks {v : ServerVars} {phase : Phase} {oldStatus : MessageId} {sender : SenderPos}
    {receiver : ReceiverPos} {client : ClientState} {net toServer toClient : List Packet}
    (hstatus : v.status = oldStatus) :
    CleanState.step tr ⟨⟨⟨v, .waiting phase oldStatus, sender, receiver, 0⟩, client, net⟩, toServer, toClient⟩
      .driver = none := by
  simp [CleanState.step, CleanState.follow, SystemState.step, ServerAction.isLocal, ServerState.step,
    ServerState.driverStep, hstatus]

/-- The answer of a phase lets the caller of `StartFileTransfer` proceed. -/
theorem verdict_reply (phase : Phase) : phase.verdict (some phase.reply) = .proceed := by
  cases phase <;> decide

/-- The caller of `StartFileTransfer` goes to the next stage. -/
theorem driver (ht : tr.server.Transferable) (h : Stage tr s) (hstep : s.step tr .driver = some (s', e)) :
    Stage tr s' := by
  cases h with
  | start hv hclient =>
    cases hstep
    exact .requesting .ntf ⟨rfl, hv.clientAddress, hv.slot⟩ hclient
  | requesting phase hv hclient =>
    cases phase with
    | ntf =>
      cases hstep
      rw [hv.clientAddress]
      exact .asked .ntf (by decide) (Or.inl rfl) hv hclient
    | info =>
      cases hstep
      rw [hv.clientAddress]
      exact .asked .info (by decide) (Or.inl rfl) hv hclient
    | data =>
      cases hstep
      have htotal : 0 < tr.server.totalPacketNumber.toNat := (Nat.zero_lt_one).trans ht.one_lt_total
      exact .streaming 0 0 (Or.inl rfl) hv rfl le_rfl htotal hclient
  | asked phase hphase hdriver hv hclient =>
    rcases hdriver with rfl | rfl
    · cases hstep
      refine .asked phase hphase (Or.inr ?_) hv hclient
      rw [hv.status]
    · rw [waiting_blocks hv.status] at hstep
      contradiction
  | streaming received sent hdriver hv hsent hle hmore hclient =>
    rcases hdriver with rfl | rfl
    · cases hstep
      change Stage tr ⟨_, _, tr.dataInFlight received sent ++ []⟩
      rw [List.append_nil]
      refine .streaming received sent (Or.inr ?_) hv hsent hle hmore hclient
      rw [hv.status]
    · rw [waiting_blocks hv.status] at hstep
      contradiction
  | replied phase hdriver hv hsender hreply hclient =>
    rcases hdriver with rfl | rfl
    · cases hstep
      refine .replied phase (Or.inr ?_) hv hsender hreply hclient
      rw [hv.status]
    · rw [waiting_blocks hv.status] at hstep
      contradiction
  | heard phase hv hpsn hreceiver hfrom hreply hclient =>
    rw [waiting_blocks hv.status] at hstep
    contradiction
  | answered phase hdriver hv hclient =>
    have hchanged : phase.reply ≠ phase.request := by cases phase <;> decide
    rcases hdriver with rfl | rfl | rfl
    · simp [CleanState.step, CleanState.follow, SystemState.step, ServerAction.isLocal, ServerState.step,
        ServerState.driverStep, hv.status, hchanged, SystemState.serverDone] at hstep
      obtain ⟨rfl, -⟩ := hstep
      exact .answered phase (Or.inr (Or.inl rfl)) hv hclient
    · cases hstep
      refine .answered phase (Or.inr (Or.inr ?_)) hv hclient
      rw [hv.status]
    · obtain ⟨server, es, hserver, rfl, -⟩ := CleanState.follow_local rfl hstep
      simp only [ServerState.step, ServerState.driverStep, verdict_reply, Option.some.injEq,
        Prod.mk.injEq] at hserver
      obtain ⟨rfl, rfl⟩ := hserver
      cases phase with
      | ntf => exact .requesting .info ⟨rfl, hv.clientAddress, hv.slot⟩ hclient
      | info => exact .requesting .data ⟨rfl, hv.clientAddress, hv.slot⟩ hclient
      | data => exact .finishing ⟨rfl, hv.clientAddress, hv.slot⟩ hclient
  | finishing hv hclient =>
    cases hstep
    rw [hv.clientAddress]
    exact .finSent (Or.inl rfl) hclient
  | finSent hdriver hclient =>
    rcases hdriver with rfl | rfl
    · cases hstep
      exact .finSent (Or.inr rfl) hclient
    · contradiction
  | told hdriver hclient =>
    rcases hdriver with rfl | rfl
    · cases hstep
      exact .told (Or.inr rfl) hclient
    · contradiction

/-- The sender thread goes to the next packet. -/
theorem sender (h : Stage tr s) (hstep : s.step tr .sender = some (s', e)) : Stage tr s' := by
  cases h with
  | start | requesting | asked | finishing | finSent | told => contradiction
  | heard phase | answered phase => cases phase <;> contradiction
  | @streaming v _ _ _ _ received sent hdriver hv hsent hle hmore hclient =>
    obtain ⟨server, es, hserver, rfl, -⟩ := CleanState.follow_local rfl hstep
    have hmove := ServerState.senderStep_move hserver hsent hv.slot hv.status
    rw [hmove.frame]
    rcases hmove.sent with ⟨hnone, hsent'⟩ | ⟨hpacket, hsent'⟩
    · simp only [hnone, List.append_nil]
      exact .streaming (v := { v with packetSequenceNumber := server.vars.packetSequenceNumber }) received sent
        hdriver ⟨hv.status, hv.clientAddress, hv.slot⟩ hsent' hle hmore hclient
    · rw [hpacket]
      have hnext : tr.server.dataPacket v.clientAddress (UInt32.ofNat sent)
          (chunk sizeofPayload tr.server.served (UInt32.ofNat sent).toNat) = tr.dataAt sent := by
        rw [hv.clientAddress]
        rfl
      rw [hnext, tr.dataInFlight_sent hle]
      exact .streaming (v := { v with packetSequenceNumber := server.vars.packetSequenceNumber })
        received (sent + 1) hdriver ⟨hv.status, hv.clientAddress, hv.slot⟩ hsent' (Nat.le_succ_of_le hle) hmore hclient
  | @replied v _ _ _ _ _ phase hdriver hv hsender hreply hclient =>
    rcases hsender with ⟨-, rfl⟩ | ⟨rfl, hsent⟩
    · contradiction
    · obtain ⟨server, es, hserver, rfl, -⟩ := CleanState.follow_local rfl hstep
      have hmove := ServerState.senderStep_move hserver hsent hv.slot hv.status
      rw [hmove.frame]
      rcases hmove.sent with ⟨hnone, hsent'⟩ | ⟨-, hsent'⟩
      · simp only [hnone, List.append_nil]
        exact .replied (v := { v with packetSequenceNumber := server.vars.packetSequenceNumber }) .data hdriver
          ⟨hv.status, hv.clientAddress, hv.slot⟩ (Or.inr ⟨rfl, hsent'⟩) hreply hclient
      · exact absurd hsent'.le (Nat.not_succ_le_self _)

/-- `OnReceive` goes on with the answer. -/
theorem receiver (h : Stage tr s) (hstep : s.step tr .receiver = some (s', e)) : Stage tr s' := by
  cases h with
  | start | requesting | asked | streaming | replied | answered | finishing | finSent | told => contradiction
  | heard phase hv hpsn hreceiver hfrom hreply hclient =>
    obtain ⟨server, es, hserver, rfl, -⟩ := CleanState.follow_local rfl hstep
    have hclean : ServerVars.Clean _ phase.request _ := ⟨hv.status, rfl, hv.slot⟩
    have hhearing := ServerState.receiverStep_hearing hserver hreceiver hclean hpsn hfrom hreply
    simp only [ServerState.receiverStep_silent hserver, List.append_nil]
    cases hhearing with
    | checked hreceiver' => exact .heard phase hv hpsn hreceiver' hfrom hreply hclient
    | accepted hv' =>
      refine .answered phase (Or.inl rfl) ⟨hv'.status, ?_, hv'.slot⟩ hclient
      exact hv'.clientAddress.trans hv.clientAddress

/-- The answer is handed to the wait for it. -/
theorem toServer {r : Received} (h : Stage tr s) (hstep : s.step tr (.toServer r) = some (s', e)) :
    Stage tr s' := by
  cases h with
  | start | requesting | asked | streaming | heard | answered | finishing | finSent | told => contradiction
  | @replied v driver sender client net p phase hdriver hv hsender hreply hclient =>
    obtain ⟨q, rest, hqueue, hawaits, hfollow⟩ := CleanState.step_toServer hstep
    obtain ⟨rfl, rfl⟩ := List.cons.inj hqueue
    obtain ⟨hfrom, server, hserver, rfl, -⟩ := CleanState.follow_delivery hfollow
    obtain ⟨w, hp, haddr, hdone⟩ := hreply
    have harrived := ClientTransaction.arrived_of_from (hp ▸ hfrom)
    rcases hdriver with rfl | rfl
    · contradiction
    have hended : sender = phase.sender ∧ (phase = .data →
        v.packetSequenceNumber = tr.server.totalPacketNumber) := by
      rcases hsender with ⟨hphase, rfl⟩ | ⟨rfl, hsent⟩
      · refine ⟨?_, fun hdata => absurd hdata hphase⟩
        cases phase with
        | ntf | info => rfl
        | data => exact absurd rfl hphase
      · have hfinished : sender = .finished := by
          simpa [ServerState.awaits, Phase.request] using hawaits
        subst hfinished
        exact ⟨rfl, fun _ => UInt32.toNat_inj.mp hsent.1⟩
    obtain ⟨rfl, hpsn⟩ := hended
    have hintact : ServerTransaction.validateMessageIntegrity r.msg r.len = true := harrived.intact
    simp only [ServerState.deliverStep, DriverPos.registered, hintact, and_self, if_true, Option.some.injEq,
      Prod.mk.injEq] at hserver
    obtain ⟨rfl, -⟩ := hserver
    exact .heard phase ⟨hv.status, harrived.addr, hv.slot⟩ hpsn (Or.inl rfl) hfrom ⟨w, hp, haddr, hdone⟩ hclient

end Stage

end Trftp
