import Trftp.Server.Progress
import Trftp.InetAddr
import Mathlib.Logic.Function.Basic

/-!
# `Server`

Calls of `StartFileTransfer` and `AbortFileTransfer` share the map of active transactions with
the receive loop. A call of `StartFileTransfer` parses its arguments and registers a new
transaction under the text of the client's address; the receive loop looks transactions up
under the printed address of a datagram's sender.

The calls are numbered. A call that has registered its transaction goes through the statements
of `Server.Threads`; in addition `UdpSocket::Send` can throw where `SendMessage` sends. The
exception leaves the call where it is, or ends the process if it leaves a thread; a sending of
`AbortFileTransfer` that throws is one that is never made. Between the parsing and the
registration a call touches nothing that others see, so both are one step.
-/

namespace Trftp

open Lib (EventMachine)

/-- The arguments of `StartFileTransfer`, with the contents of the file if there is one. -/
structure StartArgs where
  clientUri : Text
  filePath : Text
  file : Option (List UInt8)
  fileVersion : UInt32
  device : UInt32

/-- The exceptions that leave `StartFileTransfer`. -/
inductive StartError where
  | invalidClientAddress (clientUri : Text)
  | invalidClientIp (clientIp : Text)
  | fileNotFound (filePath : Text)
  /-- thrown by `std::stoi` -/
  | stoi
  | alreadyExists (clientIp : Text)
  /-- thrown by `UdpSocket::Send` -/
  | sendFailed
  deriving DecidableEq

/-- The text of the `std::runtime_error`s that `StartFileTransfer` throws itself. -/
def StartError.what : StartError → Option Text
  | .invalidClientAddress clientUri => some ("Invalid client address (".toList ++ clientUri ++ [')'])
  | .invalidClientIp clientIp => some ("Invalid client IP (".toList ++ clientIp ++ [')'])
  | .fileNotFound filePath => some ("File(".toList ++ filePath ++ ") not found".toList)
  | .alreadyExists clientIp => some ("Transaction already exists for <".toList ++ clientIp ++ ['>'])
  | .stoi | .sendFailed => none

namespace StartArgs

variable (a : StartArgs)

/-- `client_ip`: what stands before the first colon. -/
def clientIp : Text := a.clientUri.takeWhile (· ≠ ':')

/-- `client_port`: what stands behind it. -/
def clientPort : Text := (a.clientUri.dropWhile (· ≠ ':')).tail

/-- `inet_addr(client_ip.c_str())`. -/
def address : UInt32 := inetAddr (cStr a.clientIp)

/-- `StartFileTransfer` up to the creation of the transaction. -/
def createTransaction (udpSocket : SockAddr) : Except StartError ServerTransaction :=
  if ':' ∉ a.clientUri then .error (.invalidClientAddress a.clientUri)
  else if inetAddrStrLen ≤ a.clientIp.length then .error (.invalidClientIp a.clientIp)
  else
    match a.file with
    | none => .error (.fileNotFound a.filePath)
    | some file =>
      match stoi a.clientPort with
      | none => .error .stoi
      | some port =>
        .ok
          { file := file, newFileVersion := a.fileVersion, deviceId := a.device
            addr := ⟨a.address, UInt16.ofInt port⟩, udpSocket := udpSocket }

end StartArgs

/-- A call of `StartFileTransfer` that has registered its transaction under `client_ip`. `thrown` says
that an exception of `Send` has left it. -/
structure Call where
  clientIp : Text
  tran : ServerTransaction
  state : ServerState
  thrown : Bool

/-- Whether a call was made, and how far it came. -/
inductive CallStatus where
  | unused
  /-- it was left by an exception before it registered a transaction -/
  | refused
  | entered (call : Call)

/-- The transaction of a call that has one. -/
def CallStatus.call? : CallStatus → Option Call
  | .entered call => some call
  | .unused | .refused => none

/-- The members of `Server`, with its calls. -/
structure ServerProcess where
  /-- `active_transactions_`; a transaction is named by the call that created it -/
  activeTransactions : Text → Option ℕ
  calls : ℕ → CallStatus
  /-- the transaction in whose `OnReceive` the receive loop is -/
  receiving : Option ℕ
  /-- an exception has left the receive loop, or a sender thread, and ended the process -/
  terminated : Bool

/-- What happens next. -/
inductive ProcessAction where
  /-- call `i` of `StartFileTransfer` -/
  | start (i : ℕ) (a : StartArgs)
  /-- a statement of call `i` or of the sender thread of its transaction, or the sending of an
  `AbortFileTransfer` -/
  | call (i : ℕ) (a : ServerAction)
  /-- the sending that call `i` is about to do throws -/
  | sendThrows (i : ℕ)
  /-- the sending that the sender thread of call `i` is about to do throws -/
  | senderThrows (i : ℕ)
  /-- `AbortFileTransfer` -/
  | abort (clientIp : Text)
  /-- a datagram reaches the socket while the receive loop waits for one -/
  | datagram (buffer : TrftpMessage) (d : Datagram)
  /-- the next statement of `OnReceive` -/
  | receiver

/-- What a step lets be seen. -/
inductive ProcessEvent where
  /-- call `i` has registered its transaction -/
  | registered (i : ℕ)
  /-- call `i` has returned, or an exception has left it -/
  | exited (i : ℕ) (result : Except StartError MessageId)
  /-- an event of the transaction of call `i` -/
  | call (i : ℕ) (e : ServerEvent)
  /-- a sending of call `i` threw -/
  | sendThrew (i : ℕ)
  /-- a sending of a sender thread threw -/
  | senderThrew (i : ℕ)
  /-- `AbortFileTransfer` found no transaction, and threw -/
  | noTransaction (clientIp : Text)
  /-- the receive loop took a datagram from the socket -/
  | received (d : Datagram)
  /-- the receive loop dispatches a datagram to the transaction of call `i` -/
  | dispatched (i : ℕ) (r : Received)
  /-- an exception has left the receive loop -/
  | receiveThrew

/-- `StartFileTransfer` is about to send. -/
def DriverPos.sends : DriverPos → Bool
  | .sending phase => phase ≠ .data
  | .finishing | .cancelling => true
  | .start | .sample _ | .waiting _ _ | .woken _ | .decide _ _ | .erase _ | .returned _ => false

/-- The steps that a thread other than the receive loop makes on a transaction. -/
def ServerAction.ofCall : ServerAction → Bool
  | .driver | .timeout | .sender _ | .abortSend => true
  | .deliver _ | .receiver | .abort => false

namespace ServerProcess

variable (S : ServerProcess)

/-- `active_transactions_.find(inet_ntoa(addr))`. -/
def dispatch (addr : UInt32) : Option ℕ := S.activeTransactions (inetNtoa addr)

/-- Store the new state of a call. The statement that returns from `StartFileTransfer` erases the entry
under `client_ip` on its way out. -/
def update (i : ℕ) (c : Call) (p : ServerState × List ServerEvent) : ServerProcess × List ProcessEvent :=
  match p.1.driver with
  | .returned result =>
    if c.state.driver.registered then
      ({ S with
          calls := Function.update S.calls i (.entered { c with state := p.1 })
          activeTransactions := Function.update S.activeTransactions c.clientIp none },
        p.2.map (.call i) ++ [.exited i (.ok result)])
    else
      ({ S with calls := Function.update S.calls i (.entered { c with state := p.1 }) }, p.2.map (.call i))
  | _ => ({ S with calls := Function.update S.calls i (.entered { c with state := p.1 }) }, p.2.map (.call i))

/-- `StartFileTransfer` up to and including `try_emplace`. -/
def start (udpSocket : SockAddr) (i : ℕ) (a : StartArgs) : ServerProcess × List ProcessEvent :=
  match a.createTransaction udpSocket with
  | .error e => ({ S with calls := Function.update S.calls i .refused }, [.exited i (.error e)])
  | .ok t =>
    match S.activeTransactions a.clientIp with
    | some _ =>
      ({ S with calls := Function.update S.calls i .refused }, [.exited i (.error (.alreadyExists a.clientIp))])
    | none =>
      ({ S with
          calls := Function.update S.calls i (.entered ⟨a.clientIp, t, t.registeredState, false⟩)
          activeTransactions := Function.update S.activeTransactions a.clientIp (some i) },
        [.registered i])

/-- One step of `Server::HandleIncomingMessages`, up to the entry of `OnReceive`. -/
def receive (buffer : TrftpMessage) (d : Datagram) : Option (ServerProcess × List ProcessEvent) :=
  match udpReceive buffer d with
  | none => some ({ S with terminated := true }, [.received d, .receiveThrew])
  | some r =>
    match S.dispatch r.addr.sinAddr with
    | none => some (S, [.received d])
    | some i =>
      match (S.calls i).call? with
      | none => none
      | some c =>
        (c.state.deliverStep r).map fun p =>
          ({ (S.update i c p).1 with receiving := if p.1.receiver = .idle then none else some i },
            .received d :: .dispatched i r :: (S.update i c p).2)

/-- The next statement of `OnReceive`. -/
def receiver : Option (ServerProcess × List ProcessEvent) :=
  match S.receiving with
  | none => none
  | some i =>
    match (S.calls i).call? with
    | none => none
    | some c =>
      (c.state.receiverStep c.tran).map fun p =>
        ({ (S.update i c p).1 with receiving := if p.1.receiver = .idle then none else some i },
          (S.update i c p).2)

/-- One statement of one thread. -/
def step (udpSocket : SockAddr) : ProcessAction → Option (ServerProcess × List ProcessEvent)
  | .start i a =>
    match S.terminated, S.calls i with
    | false, .unused => some (S.start udpSocket i a)
    | _, _ => none
  | .call i a =>
    match S.terminated, (S.calls i).call? with
    | false, some c =>
      if ¬a.ofCall ∨ (c.thrown ∧ a.ofDriver) then none
      else (c.state.step c.tran a).map (S.update i c)
    | _, _ => none
  | .sendThrows i =>
    match S.terminated, (S.calls i).call? with
    | false, some c =>
      if c.thrown ∨ ¬c.state.driver.sends then none
      else
        some ({ S with calls := Function.update S.calls i (.entered { c with thrown := true }) },
          [.sendThrew i, .exited i (.error .sendFailed)])
    | _, _ => none
  | .senderThrows i =>
    match S.terminated, (S.calls i).call? with
    | false, some c =>
      if c.state.sender = .send ∨ c.state.sender = .cancelling then
        some ({ S with terminated := true }, [.senderThrew i])
      else none
    | _, _ => none
  | .abort clientIp =>
    match S.terminated, S.activeTransactions clientIp with
    | false, none => some (S, [.noTransaction clientIp])
    | false, some i => (S.calls i).call?.bind fun c => (c.state.abortStep).map (S.update i c)
    | true, _ => none
  | .datagram buffer d =>
    match S.terminated, S.receiving with
    | false, none => S.receive buffer d
    | _, _ => none
  | .receiver => if S.terminated then none else S.receiver

end ServerProcess

/-- A server whose socket has this address, from its construction on. -/
def serverProcess (udpSocket : SockAddr) : EventMachine ServerProcess ProcessAction ProcessEvent where
  initial S := S = ⟨fun _ => none, fun _ => .unused, none, false⟩
  step S a := S.step udpSocket a

end Trftp
