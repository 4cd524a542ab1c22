import Trftp.Server.Transaction
import Trftp.Lib.EventMachine

/-!
# The threads that share a `ServerTransaction`

Four parties act on one transaction: the caller of `Server::StartFileTransfer`, the
receive loop inside `ServerTransaction::OnReceive`, the thread that `SendFileAsync`
starts, and callers of `Server::AbortFileTransfer`. Each has a position in its program;
a step executes the statement at one position, so a run is an interleaving of statements.
Statements that read and write members no other party touches are executed together.

`cv_.wait_for` tests its predicate before it blocks, after every wake-up and once more at
the timeout. A notification can be missed, which delays the wake-up and nothing else, so
the wait ends either by a test that finds a changed status or by a timeout that does not.
-/

namespace Trftp

open Lib (EventMachine)

/-- The three requests of `StartFileTransfer` that are followed by a wait. -/
inductive Phase where
  | ntf | info | data
  deriving DecidableEq, Repr

/-- The request of a phase. -/
def Phase.request : Phase → MessageId
  | .ntf => .ntf
  | .info => .info
  | .data => .data

/-- The client message that answers the request. -/
def Phase.reply : Phase → MessageId
  | .ntf => .chk
  | .info => .rdy
  | .data => .done

/-- Positions in `StartFileTransfer`, from the registration of the transaction on. -/
inductive DriverPos where
  /-- before `SendMessage(NTF)` -/
  | start
  /-- `SendMessage` has stored the request in `status_` and has the rest to do -/
  | sending (phase : Phase)
  /-- `SendMessage` has returned; `WaitForStatus` is about to load `old_status` -/
  | sample (phase : Phase)
  /-- in `cv_.wait_for` -/
  | waiting (phase : Phase) (oldStatus : MessageId)
  /-- the predicate held; about to load the status to return -/
  | woken (phase : Phase)
  /-- `WaitForStatus` has returned -/
  | decide (phase : Phase) (status : Option MessageId)
  /-- `SendMessage(FIN)` has stored the status -/
  | finishing
  /-- `SendMessage(CXL)` has stored the status -/
  | cancelling
  /-- about to erase the map entry and to return -/
  | erase (result : MessageId)
  | returned (result : MessageId)
  deriving DecidableEq, Repr

/-- Positions in the thread of `SendFileAsync`. -/
inductive SenderPos where
  /-- the thread does not exist yet -/
  | notStarted
  /-- before the file is opened -/
  | opening
  /-- before `packet_sequence_number_ = 0` -/
  | init
  /-- before the loop condition -/
  | loopTest
  /-- before the cancellation check -/
  | cxlCheck
  /-- before the retransmission check -/
  | rtxCheck
  /-- before `retransmit_psn_.exchange(-1)` -/
  | rtxTake
  /-- before the exchanged value is stored in the counter -/
  | rtxStore (psn : UInt32)
  /-- before reading the file and sending -/
  | send
  /-- before the test for the last packet -/
  | eofTest
  /-- waiting after the last packet, before the second retransmission check -/
  | eofCheck
  /-- before the second exchange -/
  | eofTake
  /-- before the second store -/
  | eofStore (psn : UInt32)
  /-- before the counter is incremented -/
  | increment
  /-- a file operation failed; `SendMessage(CXL)` is about to store the status -/
  | failing
  /-- `SendMessage(CXL)` has stored the status -/
  | cancelling
  /-- the thread returned without completing the loop -/
  | stopped
  /-- the loop condition was false -/
  | finished
  deriving DecidableEq, Repr

/-- Positions in `OnReceive`. -/
inductive ReceiverPos where
  /-- in the receive loop -/
  | idle
  /-- the message is intact; before the test of `status_` -/
  | phaseCheck (r : Received)
  /-- before `packet_sequence_number_` is loaded -/
  | psnCheck (r : Received)
  /-- every check passed; before the assignments -/
  | commit (r : Received)
  deriving DecidableEq

/-- A transaction with the positions of the threads that work on it. -/
structure ServerState where
  vars : ServerVars
  driver : DriverPos
  sender : SenderPos
  receiver : ReceiverPos
  /-- calls of `AbortFileTransfer` that have stored the status and have the sending to do -/
  aborts : ℕ
  deriving DecidableEq

/-- What happens next. -/
inductive ServerAction where
  /-- the next statement of `StartFileTransfer` -/
  | driver
  /-- the wait of `StartFileTransfer` times out -/
  | timeout
  /-- the next statement of the sender thread, and whether its file operation succeeds -/
  | sender (fileOk : Bool)
  /-- the receive loop dispatches a datagram to the transaction -/
  | deliver (r : Received)
  /-- the next statement of `OnReceive` -/
  | receiver
  /-- `AbortFileTransfer` stores the status -/
  | abort
  /-- `AbortFileTransfer` sends its message -/
  | abortSend

/-- What a step lets be seen. -/
inductive ServerEvent where
  /-- `SendMessage` stored this status -/
  | stored (id : MessageId)
  /-- `SendMessage` sent this message -/
  | sent (id : MessageId) (p : Packet)
  /-- `WaitForStatus` loaded `old_status` -/
  | sampled (phase : Phase)
  /-- `WaitForStatus` returned -/
  | waited (phase : Phase) (status : Option MessageId)
  /-- `StartFileTransfer` returned -/
  | returned (result : MessageId)
  /-- the loop condition of the sender held -/
  | iteration
  /-- the sender made its cancellation check -/
  | checked
  /-- the sender transmitted a packet -/
  | transmitted (psn : UInt32) (p : Packet)
  /-- the loop condition of the sender failed -/
  | finished
  /-- `OnReceive` accepted a message -/
  | accepted (id : MessageId) (r : Received)
  deriving DecidableEq

/-- The transaction is in `active_transactions_`. -/
def DriverPos.registered : DriverPos → Bool
  | .returned _ => false
  | _ => true

/-- What `StartFileTransfer` does with the result of a wait. -/
inductive Verdict where
  | proceed
  | giveUp (result : MessageId)
  | cancel
  deriving DecidableEq

/-- The branches behind the three waits; only the first treats a missing status by itself. -/
def Phase.verdict (phase : Phase) (status : Option MessageId) : Verdict :=
  if phase = .ntf ∧ status = none then .giveUp .ntf
  else if status = some .cxl then .giveUp .cxl
  else if status ≠ some phase.reply then .cancel
  else .proceed

/-- The message that `StartFileTransfer` sends when the phase succeeded. -/
def Phase.nextId : Phase → MessageId
  | .ntf => .info
  | .info => .data
  | .data => .fin

/-- The position inside the sending of that message. -/
def Phase.nextPos : Phase → DriverPos
  | .ntf => .sending .info
  | .info => .sending .data
  | .data => .finishing

namespace ServerState

variable (t : ServerTransaction) (s : ServerState)

/-- `status_ = id`. -/
def setStatus (id : MessageId) : ServerState := { s with vars := { s.vars with status := id } }

/-- `packet_sequence_number_.store(psn)`. -/
def setPsn (psn : UInt32) : ServerState := { s with vars := { s.vars with packetSequenceNumber := psn } }

/-- `retransmit_psn_.store(psn)`. -/
def setRetransmit (psn : UInt32) : ServerState := { s with vars := { s.vars with retransmitPsn := psn } }

/-- The next statement of `StartFileTransfer`. -/
def driverStep : Option (ServerState × List ServerEvent) :=
  match s.driver with
  | .start => some ({ s.setStatus .ntf with driver := .sending .ntf }, [.stored .ntf])
  | .sending .data =>
    -- SendMessage(DATA) starts the sender thread and sends nothing itself
    some ({ s with driver := .sample .data, sender := .opening }, [])
  | .sending phase =>
    some ({ s with driver := .sample phase },
      [.sent phase.request (t.packet s.vars.clientAddress phase.request)])
  | .sample phase => some ({ s with driver := .waiting phase s.vars.status }, [.sampled phase])
  | .waiting phase oldStatus =>
    if s.vars.status ≠ oldStatus then some ({ s with driver := .woken phase }, []) else none
  | .woken phase =>
    some ({ s with driver := .decide phase (some s.vars.status) }, [.waited phase (some s.vars.status)])
  | .decide phase status =>
    match phase.verdict status with
    | .giveUp result => some ({ s with driver := .erase result }, [])
    | .cancel => some ({ s.setStatus .cxl with driver := .cancelling }, [.stored .cxl])
    | .proceed => some ({ s.setStatus phase.nextId with driver := phase.nextPos }, [.stored phase.nextId])
  | .finishing =>
    some ({ s with driver := .erase .fin }, [.sent .fin (t.packet s.vars.clientAddress .fin)])
  | .cancelling =>
    some ({ s with driver := .erase .cxl }, [.sent .cxl (t.packet s.vars.clientAddress .cxl)])
  | .erase result => some ({ s with driver := .returned result }, [.returned result])
  | .returned _ => none

/-- The timeout of `cv_.wait_for`, which tests the predicate a last time. -/
def timeoutStep : Option (ServerState × List ServerEvent) :=
  match s.driver with
  | .waiting phase oldStatus =>
    if s.vars.status = oldStatus then
      some ({ s with driver := .decide phase none }, [.waited phase none])
    else none
  | _ => none

/-- The next statement of the sender thread. -/
def senderStep (fileOk : Bool) : Option (ServerState × List ServerEvent) :=
  match s.sender with
  | .notStarted => none
  | .opening => some ({ s with sender := if fileOk then .init else .failing }, [])
  | .init => some ({ s.setPsn 0 with sender := .loopTest }, [])
  | .loopTest =>
    if s.vars.packetSequenceNumber < t.totalPacketNumber then
      some ({ s with sender := .cxlCheck }, [.iteration])
    else some ({ s with sender := .finished }, [.finished])
  | .cxlCheck =>
    if s.vars.status = .cxl then some ({ s with sender := .stopped }, [.checked])
    else some ({ s with sender := .rtxCheck }, [.checked])
  | .rtxCheck =>
    if s.vars.retransmitPsn ≠ noRetransmit then some ({ s with sender := .rtxTake }, [])
    else some ({ s with sender := .send }, [])
  | .rtxTake =>
    some ({ s.setRetransmit noRetransmit with sender := .rtxStore s.vars.retransmitPsn }, [])
  | .rtxStore psn => some ({ s.setPsn psn with sender := .send }, [])
  | .send =>
    match t.readData s.vars.packetSequenceNumber, fileOk with
    | some newFileData, true =>
      some ({ s with sender := .eofTest },
        [.transmitted s.vars.packetSequenceNumber
          (t.dataPacket s.vars.clientAddress s.vars.packetSequenceNumber newFileData)])
    | _, _ => some ({ s with sender := .failing }, [])
  | .eofTest =>
    if s.vars.packetSequenceNumber = t.totalPacketNumber - 1 then some ({ s with sender := .eofCheck }, [])
    else some ({ s with sender := .increment }, [])
  | .eofCheck =>
    if s.vars.retransmitPsn ≠ noRetransmit then some ({ s with sender := .eofTake }, [])
    else some ({ s with sender := .increment }, [])
  | .eofTake =>
    some ({ s.setRetransmit noRetransmit with sender := .eofStore s.vars.retransmitPsn }, [])
  | .eofStore psn => some ({ s.setPsn psn with sender := .increment }, [])
  | .increment => some ({ s.setPsn (s.vars.packetSequenceNumber + 1) with sender := .loopTest }, [])
  | .failing => some ({ s.setStatus .cxl with sender := .cancelling }, [.stored .cxl])
  | .cancelling =>
    some ({ s with sender := .stopped }, [.sent .cxl (t.packet s.vars.clientAddress .cxl)])
  | .stopped => none
  | .finished => none

/-- `Server::HandleIncomingMessages` finds the transaction and enters `OnReceive`, which records the
sender's address and checks the integrity of the message. -/
def deliverStep (r : Received) : Option (ServerState × List ServerEvent) :=
  if s.receiver = .idle ∧ s.driver.registered then
    if ServerTransaction.validateMessageIntegrity r.msg r.len then
      some ({ s with vars := { s.vars with clientAddress := r.addr }, receiver := .phaseCheck r }, [])
    else some ({ s with vars := { s.vars with clientAddress := r.addr } }, [])
  else none

/-- The assignments behind the checks of `OnReceive`, which then returns. -/
def accept (vars : ServerVars) : ServerState := { s with vars := vars, receiver := .idle }

/-- The next statement of `OnReceive`. -/
def receiverStep : Option (ServerState × List ServerEvent) :=
  match s.receiver with
  | .idle => none
  | .phaseCheck r =>
    match r.id? with
    | some .chk =>
      if s.vars.status = .ntf ∧ ServerTransaction.validateChk r.payloadLen then
        some ({ s with receiver := .commit r }, [])
      else some ({ s with receiver := .idle }, [])
    | some .rdy =>
      if s.vars.status = .info ∧ ServerTransaction.validateRdy r.payloadLen then
        some ({ s with receiver := .commit r }, [])
      else some ({ s with receiver := .idle }, [])
    | some .done =>
      if s.vars.status = .data then some ({ s with receiver := .psnCheck r }, [])
      else some ({ s with receiver := .idle }, [])
    | some .cxl =>
      if ServerTransaction.validateCxl r.payloadLen then some ({ s with receiver := .commit r }, [])
      else some ({ s with receiver := .idle }, [])
    | some .rtx =>
      if s.vars.status = .data then some ({ s with receiver := .psnCheck r }, [])
      else some ({ s with receiver := .idle }, [])
    | _ => some ({ s with receiver := .idle }, [])
  | .psnCheck r =>
    match r.id? with
    | some .done =>
      if s.vars.packetSequenceNumber = t.totalPacketNumber ∧ t.validateDone r.msg.done r.payloadLen then
        some ({ s with receiver := .commit r }, [])
      else some ({ s with receiver := .idle }, [])
    | some .rtx =>
      if ServerTransaction.validateRtx r.msg.rtx r.payloadLen s.vars.packetSequenceNumber then
        some ({ s with receiver := .commit r }, [])
      else some ({ s with receiver := .idle }, [])
    | _ => some ({ s with receiver := .idle }, [])
  | .commit r =>
    match r.id? with
    | some .chk =>
      some (s.accept { s.vars with curFileVersion := r.msg.chk.curFileVersion, status := .chk },
        [.accepted .chk r])
    | some .rdy =>
      some (s.accept { s.vars with
          interPacketGap := ServerTransaction.clampGap r.msg.rdy.interPacketGap, status := .rdy },
        [.accepted .rdy r])
    | some .done => some (s.accept { s.vars with status := .done }, [.accepted .done r])
    | some .cxl => some (s.accept { s.vars with status := .cxl }, [.accepted .cxl r])
    | some .rtx =>
      some (s.accept { s.vars with retransmitPsn := r.msg.rtx.retransmitPsn }, [.accepted .rtx r])
    | _ => some (s.accept s.vars, [])

/-- `AbortFileTransfer` finds the transaction and stores CXL in its status. -/
def abortStep : Option (ServerState × List ServerEvent) :=
  if s.driver.registered then
    some ({ s.setStatus .cxl with aborts := s.aborts + 1 }, [.stored .cxl])
  else none

/-- `AbortFileTransfer` sends its message. -/
def abortSendStep : Option (ServerState × List ServerEvent) :=
  if 0 < s.aborts then
    some ({ s with aborts := s.aborts - 1 }, [.sent .cxl (t.packet s.vars.clientAddress .cxl)])
  else none

/-- One statement of one party. -/
def step : ServerAction → Option (ServerState × List ServerEvent)
  | .driver => s.driverStep t
  | .timeout => s.timeoutStep
  | .sender fileOk => s.senderStep t fileOk
  | .deliver r => s.deliverStep r
  | .receiver => s.receiverStep t
  | .abort => s.abortStep
  | .abortSend => s.abortSendStep t

end ServerState

/-- A transaction that `StartFileTransfer` has just registered. -/
def ServerTransaction.registeredState (t : ServerTransaction) : ServerState where
  vars := t.initialVars
  driver := .start
  sender := .notStarted
  receiver := .idle
  aborts := 0

/-- The server's side of one transfer, for datagrams of any content and order. -/
def serverMachine (t : ServerTransaction) : EventMachine ServerState ServerAction ServerEvent where
  initial s := s = t.registeredState
  step s a := s.step t a

end Trftp
