import Trftp.Client.Transaction
import Trftp.Lib.EventMachine

/-!
# The two threads of the client

`Client::HandleIncomingMessages` runs in one thread and calls `Begin`, `Reset` and `OnReceive`;
`ClientTransaction::HandleIncomingMessages` runs in another one, which the branch for NTF
starts, and calls `OnReceive` and `SendMessage`. Both work on the same members. Each thread has
a position in its program, and a step executes the statement at one position. What a statement
reads of its own message takes no step of its own, and `SendMessage` builds and sends a message
in one step.

The loops read datagrams of any length and content. An exception that leaves a loop ends the
process.
-/

namespace Trftp

open Lib (EventMachine)

/-- Positions in `OnReceive`, and in `SendMessage` behind it. -/
inductive ReceivePos where
  /-- before `server_address_ = addr` -/
  | hear
  /-- before the check of the message; what follows it looks at the message alone -/
  | check
  /-- NTF: before `status_ = id` -/
  | ntfStatus
  | ntfVersion
  /-- before `if (thread_.joinable()) thread_.join()` -/
  | ntfJoin
  /-- before `thread_ = std::thread(..)` -/
  | ntfStart
  /-- INFO: before the test of `status_` -/
  | infoTest
  | infoMatch
  | infoStatus
  | infoSize
  | infoCrc
  | infoTotal
  | infoOpen
  | infoOpened
  /-- DATA: before the test of `status_` -/
  | dataTest
  | dataLength
  | dataNumber
  | dataWrite
  | dataWritten
  | dataStatus
  | dataCount
  | dataLast
  | dataClose
  | dataSize
  | dataCrc
  /-- FIN: before the test of `status_` -/
  | finTest
  | finStatus
  | finDead
  /-- before the call of `OnFileReceived` -/
  | finCall
  /-- CXL: before the test of `is_open()` -/
  | cxlOpen
  | cxlClose
  | cxlRemove
  | cxlStatus
  /-- `SendMessage(id)`: before `status_ = id` -/
  | store (id : MessageId)
  /-- `SendMessage(CXL)`: before `is_active_ = false` -/
  | dead
  /-- `SendMessage(id)`: before the sending -/
  | send (id : MessageId)
  deriving DecidableEq, Repr

/-- Positions in `Reset`, each before the statement. -/
inductive ResetPos where
  | address | total | psn | close | version | size | crc | join
  deriving DecidableEq, Repr

/-- Positions in `Client::HandleIncomingMessages`. -/
inductive MainPos where
  /-- between two iterations -/
  | idle
  /-- before `IsAlive()` -/
  | aliveTest (r : Received)
  /-- `Begin`: before the assignment of `is_active_` -/
  | setActive (r : Received)
  /-- `Begin`: before the test of `is_active_` -/
  | activeTest (r : Received)
  | reset (pos : ResetPos) (r : Received)
  | onReceive (pos : ReceivePos) (r : Received)
  deriving DecidableEq

/-- Positions in `ClientTransaction::HandleIncomingMessages`. -/
inductive LoopPos where
  /-- no such thread runs -/
  | absent
  /-- before the loop condition -/
  | test
  /-- in `Receive` -/
  | receive
  /-- timed out; `SendMessage(CXL)`: before `status_ = id` -/
  | timeoutStore
  | timeoutDead
  /-- before the sending, behind which the loop is left -/
  | timeoutSend
  | onReceive (pos : ReceivePos) (r : Received)
  deriving DecidableEq

/-- The two threads. -/
inductive ClientThread where
  | main | loop
  deriving DecidableEq

/-- The members of the transaction, and where the threads are. -/
structure ClientProcess where
  vars : ClientVars
  main : MainPos
  loop : LoopPos
  /-- an exception has ended the process -/
  terminated : Bool
  deriving DecidableEq

/-- What happens next. -/
inductive ClientProcessAction where
  /-- a datagram reaches the main socket while the main loop waits for one -/
  | mainDatagram (buffer : TrftpMessage) (d : Datagram)
  /-- a datagram reaches the transaction's socket while its loop waits for one -/
  | loopDatagram (buffer : TrftpMessage) (d : Datagram)
  /-- the receive loop of the transaction times out -/
  | loopTimeout
  /-- the next statement of the main loop -/
  | main (ops : FileOps)
  /-- the next statement of the receive loop of the transaction -/
  | loop (ops : FileOps)

/-- What a step lets be seen. -/
inductive ClientProcessEvent where
  /-- a thread took a datagram from its socket -/
  | received (thread : ClientThread) (d : Datagram) (r : Option Received)
  /-- `Begin` stored true in `is_active_`; whether the receive loop was over then -/
  | begun (wasOver : Bool)
  /-- the NTF of `Begin` failed the integrity check; whether `is_active_` held then -/
  | rejected (alive : Bool)
  /-- the receive loop was started for an NTF with this version -/
  | started (version : UInt32)
  /-- the branch for FIN stored false in `is_active_` -/
  | finished
  /-- an event of a function of the transaction -/
  | of (thread : ClientThread) (e : ClientEvent)
  /-- an exception left the loop of this thread -/
  | threw (thread : ClientThread)
  deriving DecidableEq

/-- A loop that does nothing any more but send the message of its timeout. -/
def LoopPos.over : LoopPos → Bool
  | .absent | .timeoutSend => true
  | .test | .receive | .timeoutStore | .timeoutDead | .onReceive _ _ => false

namespace ClientTransaction

variable (c : ClientTransaction) (r : Received) (ops : FileOps) (v : ClientVars)

/-- The branch of `OnReceive` for the kind of the message. -/
def branch : Option ReceivePos :=
  match r.id? with
  | some .ntf => if r.payloadLen ≠ 4 then some (.store .cxl) else some .ntfStatus
  | some .info => some .infoTest
  | some .data => some .dataTest
  | some .fin => some .finTest
  | some .cxl => some .cxlOpen
  | _ => none

/-- A statement of `OnReceive` or of `SendMessage`: the members, what is seen, and the next position,
or none behind the last statement. The two statements about `thread_` are those of the process. -/
def receiveStep : ReceivePos → Option (ClientVars × List ClientEvent × Option ReceivePos)
  | .hear => some (v.heardFrom r.addr, [], some .check)
  | .check =>
    if !validateMessageIntegrity r.msg r.len then some (v, [], none) else some (v, [], branch r)
  | .ntfStatus => some ({ v with status := .ntf }, [], some .ntfVersion)
  | .ntfVersion => some ({ v with newFileVersion := r.msg.ntf.newFileVersion }, [], some .ntfJoin)
  | .ntfJoin | .ntfStart => none
  | .infoTest =>
    if v.status ≠ .chk then some (v, [], some (.store .cxl))
    else if r.payloadLen ≠ 12 then some (v, [], some (.store .cxl))
    else some (v, [], some .infoMatch)
  | .infoMatch =>
    if v.newFileVersion ≠ r.msg.info.newFileVersion then some (v, [], some (.store .cxl))
    else if r.msg.info.fileLength = 0 then some (v, [], some (.store .cxl))
    else some (v, [], some .infoStatus)
  | .infoStatus => some ({ v with status := .info }, [], some .infoSize)
  | .infoSize => some ({ v with newFileSize := r.msg.info.fileLength }, [], some .infoCrc)
  | .infoCrc => some ({ v with newFileCrc32 := r.msg.info.crc32 }, [], some .infoTotal)
  | .infoTotal =>
    some
      ({ v with
          totalPacketNumber := UInt32.ofNat ((v.newFileSize.toNat + sizeofPayload - 1) / sizeofPayload) },
        [], some .infoOpen)
  | .infoOpen => some (v.openStream ops, [], some .infoOpened)
  | .infoOpened =>
    if !v.newFileStream.isOpen then some (v, [], some (.store .cxl))
    else some (v, [.informed v.newFileVersion v.newFileSize v.newFileCrc32], some (.store .rdy))
  | .dataTest =>
    if v.status ≠ dataStatus r.msg.header then some (v, [], some (.store .cxl))
    else some (v, [], some .dataLength)
  | .dataLength =>
    if r.payloadLen ≠ dataLen v r.msg.header then some (v, [], some (.store .cxl))
    else some (v, [], some .dataNumber)
  | .dataNumber =>
    if r.msg.header.psn ≠ v.packetSequenceNumber then some (v, [], some (.send .rtx))
    else some (v, [], some .dataWrite)
  | .dataWrite =>
    some (v.writeStream ops (r.msg.payload.bytes.take r.payloadLen),
      [.wrote (r.msg.payload.bytes.take r.payloadLen)], some .dataWritten)
  | .dataWritten =>
    if v.newFileStream.failed then some (v, [], some (.store .cxl)) else some (v, [], some .dataStatus)
  | .dataStatus => some ({ v with status := .data }, [], some .dataCount)
  | .dataCount =>
    some ({ v with packetSequenceNumber := v.packetSequenceNumber + 1 }, [], some .dataLast)
  | .dataLast =>
    if v.packetSequenceNumber = v.totalPacketNumber then some (v, [], some .dataClose)
    else some (v, [], none)
  | .dataClose => some (v.closeStream ops, [], some .dataSize)
  | .dataSize =>
    match v.tempFile with
    | none => none
    | some file =>
      if v.newFileSize.toNat ≠ file.length then some (v, [], some (.store .cxl))
      else some (v, [], some .dataCrc)
  | .dataCrc =>
    if v.newFileCrc32 ≠ calculateFileCrc32 v.tempFile then some (v, [], some (.store .cxl))
    else some (v, [.verified (v.tempFile.getD [])], some (.store .done))
  | .finTest =>
    if v.status ≠ .done then some (v, [], some (.store .cxl))
    else if r.payloadLen ≠ 0 then some (v, [], some (.store .cxl))
    else some (v, [], some .finStatus)
  | .finStatus => some ({ v with status := .fin }, [], some .finDead)
  | .finDead => some ({ v with isActive := false }, [], some .finCall)
  | .finCall =>
    some (v, if c.hasClient then [.fileReceived v.tempFile v.newFileVersion] else [], none)
  | .cxlOpen =>
    if v.newFileStream.isOpen then some (v, [], some .cxlClose) else some (v, [], some .cxlStatus)
  | .cxlClose => some (v.closeStream ops, [], some .cxlRemove)
  | .cxlRemove => some ({ v with tempFile := none }, [], some .cxlStatus)
  | .cxlStatus => some ({ v with status := .cxl }, [], some (.store .cxl))
  | .store id => some ({ v with status := id }, [], some (if id = .cxl then .dead else .send id))
  | .dead => some ({ v with isActive := false }, [], some (.send .cxl))
  | .send id => some (v, [.sent id (c.packet v id)], none)

/-- A statement of `Reset`, up to the joining, and the next one. -/
def resetStep : ResetPos → ClientVars × ResetPos
  | .address => ({ v with serverAddress := .unset }, .total)
  | .total => ({ v with totalPacketNumber := 0 }, .psn)
  | .psn => ({ v with packetSequenceNumber := 0 }, .close)
  | .close => (v.closeStream ops, .version)
  | .version => ({ v with newFileVersion := 0 }, .size)
  | .size => ({ v with newFileSize := 0 }, .crc)
  | .crc => ({ v with newFileCrc32 := 0 }, .join)
  | .join => (v, .join)

end ClientTransaction

namespace ClientProcess

variable (c : ClientTransaction) (S : ClientProcess)

/-- An exception leaves the loop of a thread. -/
def throws (thread : ClientThread) : ClientProcess × List ClientProcessEvent :=
  ({ S with terminated := true }, [.threw thread])

/-- `if (thread_.joinable()) thread_.join()` in the main loop: waits for the end of the receive loop. -/
def join (next : MainPos) : Option (ClientProcess × List ClientProcessEvent) :=
  if S.vars.joinable then
    if S.loop = .absent then some ({ S with vars := { S.vars with joinable := false }, main := next }, [])
    else none
  else some ({ S with main := next }, [])

/-- A statement of `OnReceive` in the main loop. -/
def mainReceive (ops : FileOps) (pos : ReceivePos) (r : Received) :
    Option (ClientProcess × List ClientProcessEvent) :=
  match pos with
  | .ntfJoin => S.join (.onReceive .ntfStart r)
  | .ntfStart =>
    some ({ S with
        vars := { S.vars with joinable := true }, main := .onReceive (.store .chk) r, loop := .test },
      [.started S.vars.newFileVersion])
  | pos =>
    match c.receiveStep r ops S.vars pos with
    | none => some (S.throws .main)
    | some (vars, e, next) =>
      some ({ S with vars := vars, main := next.elim .idle (.onReceive · r) },
        (if pos = .check ∧ ¬ClientTransaction.validateMessageIntegrity r.msg r.len then [.rejected S.vars.isActive]
          else []) ++ e.map (.of .main))

/-- The next statement of the main loop. -/
def mainStep (ops : FileOps) : Option (ClientProcess × List ClientProcessEvent) :=
  match S.main with
  | .idle => none
  | .aliveTest r =>
    if S.vars.isActive then some ({ S with main := .idle }, []) else some ({ S with main := .setActive r }, [])
  | .setActive r =>
    if r.id? = some .ntf then
      some ({ S with vars := { S.vars with isActive := true }, main := .activeTest r }, [.begun S.loop.over])
    else some ({ S with vars := { S.vars with isActive := false }, main := .activeTest r }, [])
  | .activeTest r =>
    if S.vars.isActive then some ({ S with main := .reset .address r }, [])
    else some ({ S with main := .idle }, [])
  | .reset .join r => S.join (.onReceive .hear r)
  | .reset pos r =>
    some ({ S with
      vars := (ClientTransaction.resetStep ops S.vars pos).1
      main := .reset (ClientTransaction.resetStep ops S.vars pos).2 r }, [])
  | .onReceive pos r => S.mainReceive c ops pos r

/-- A statement of `OnReceive` in the receive loop. While the loop runs, `thread_` is the joinable handle
of the thread that it runs in, and a thread that joins itself throws. -/
def loopReceive (ops : FileOps) (pos : ReceivePos) (r : Received) :
    Option (ClientProcess × List ClientProcessEvent) :=
  match pos with
  | .ntfJoin => if S.vars.joinable then some (S.throws .loop) else none
  | .ntfStart => none
  | pos =>
    match c.receiveStep r ops S.vars pos with
    | none => some (S.throws .loop)
    | some (vars, e, next) =>
      some ({ S with vars := vars, loop := next.elim .test (.onReceive · r) },
        (if pos = .finDead then [.finished] else []) ++ e.map (.of .loop))

/-- The next statement of the receive loop. -/
def loopStep (ops : FileOps) : Option (ClientProcess × List ClientProcessEvent) :=
  match S.loop with
  | .absent => none
  | .test =>
    if S.vars.isActive then some ({ S with loop := .receive }, []) else some ({ S with loop := .absent }, [])
  | .receive => none
  | .timeoutStore => some ({ S with vars := { S.vars with status := .cxl }, loop := .timeoutDead }, [])
  | .timeoutDead => some ({ S with vars := { S.vars with isActive := false }, loop := .timeoutSend }, [])
  | .timeoutSend => some ({ S with loop := .absent }, [.of .loop (.sent .cxl (c.packet S.vars .cxl))])
  | .onReceive pos r => S.loopReceive c ops pos r

/-- One statement of one thread, or the return of one `Receive`. -/
def step : ClientProcessAction → Option (ClientProcess × List ClientProcessEvent)
  | .mainDatagram buffer d =>
    if S.terminated ∨ S.main ≠ .idle then none
    else
      match udpReceive buffer d with
      | none => some ({ S with terminated := true }, [.received .main d none, .threw .main])
      | some r => some ({ S with main := .aliveTest r }, [.received .main d (some r)])
  | .loopDatagram buffer d =>
    if S.terminated ∨ S.loop ≠ .receive then none
    else
      match udpReceive buffer d with
      | none => some ({ S with terminated := true }, [.received .loop d none, .threw .loop])
      | some r => some ({ S with loop := .onReceive .hear r }, [.received .loop d (some r)])
  | .loopTimeout =>
    if S.terminated ∨ S.loop ≠ .receive then none else some ({ S with loop := .timeoutStore }, [])
  | .main ops => if S.terminated then none else S.mainStep c ops
  | .loop ops => if S.terminated then none else S.loopStep c ops

end ClientProcess

/-- The client, for datagrams of any content and order at both sockets, and for any answers of the
file system. -/
def clientProcess (c : ClientTransaction) :
    EventMachine ClientProcess ClientProcessAction ClientProcessEvent where
  initial S := ∃ tempFile, S = ⟨ClientTransaction.initialVars tempFile, .idle, .absent, false⟩
  step S a := S.step c a

end Trftp
