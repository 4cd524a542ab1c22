import Trftp.Lib.EventMachine
import Trftp.Lib.Ownership
import Mathlib.Data.List.Basic

/-!
# Construction and destruction

A `Server` owns a socket and the thread of its receive loop. A `Client` owns a socket and a thread as well,
and a `ClientTransaction` with another socket and another thread. The members are constructed in the order
of their declaration, so the loop runs before the members behind `thread_` are there, and destroyed the other
way round. The constructor of `UdpSocket` makes four system calls, any of which can fail.

The kernel hands out the number of any descriptor that is not open. The rest of the process opens and closes
descriptors of its own. Where a thread would use a member that is not alive, the step says so and ends the
process. Of the messages only what a branch does with `is_active_`, the sockets and the threads is kept: behind
`Receive` a loop does any of what its branches do.
-/

namespace Trftp

open Lib (EventMachine Owned)

/-! ## The objects -/

/-- What is constructed. -/
inductive EndpointKind where
  | server | client
  deriving DecidableEq

/-- The sockets of an object: `udp_socket_`, and the one of `transaction_`. -/
inductive SocketSlot where
  | own | transaction
  deriving DecidableEq

/-- A system call on a descriptor. -/
inductive SocketCall where
  | opened (fd : ℕ)
  /-- `setsockopt`, `bind`, `recvfrom` or `sendto` -/
  | used (fd : ℕ)
  | closed (fd : ℕ)
  deriving DecidableEq

/-- Places in `UdpSocket::UdpSocket`. -/
inductive SocketPos where
  /-- before `socket` -/
  | create
  /-- before `setsockopt(SO_RCVTIMEO)` -/
  | readTimeout (fd : ℕ)
  /-- before `setsockopt(SO_REUSEADDR)` -/
  | reuseAddr (fd : ℕ)
  | bind (fd : ℕ)
  /-- behind a `throw`, before `socket_guard` closes the descriptor -/
  | guard (fd : ℕ)
  deriving DecidableEq

/-- What comes of a step of the constructor. -/
inductive SocketResult where
  | at (pos : SocketPos)
  | made (fd : ℕ)
  | failed
  deriving DecidableEq

/-- The next statement of the constructor; `ok` says whether the call succeeds, and `fd` what `socket` returns. -/
def SocketPos.next (ok : Bool) (fd : ℕ) : SocketPos → SocketResult × Option SocketCall
  | .create => if ok then (.at (.readTimeout fd), some (.opened fd)) else (.failed, none)
  | .readTimeout fd => (.at (if ok then .reuseAddr fd else .guard fd), some (.used fd))
  | .reuseAddr fd => (.at (if ok then .bind fd else .guard fd), some (.used fd))
  | .bind fd => (if ok then .made fd else .at (.guard fd), some (.used fd))
  | .guard fd => (.failed, some (.closed fd))

/-- The descriptor between its creation and the end of the constructor. -/
def SocketPos.fd? : SocketPos → Option ℕ
  | .create => none
  | .readTimeout fd | .reuseAddr fd | .bind fd | .guard fd => some fd

/-- The thread that constructs, uses and destroys the object. -/
inductive EndpointPos where
  /-- there is no object -/
  | absent
  /-- `udp_socket_` is constructed -/
  | socket (pos : SocketPos)
  /-- before `thread_` is started -/
  | thread (fd : ℕ)
  /-- `Server`: before `factory_` and `active_transactions_` are constructed -/
  | members (fd : ℕ)
  /-- `Client`: `transaction_` is constructed, and its `udp_socket_` -/
  | transaction (fd : ℕ) (pos : SocketPos)
  /-- `Client`: before `temp_directory_path` -/
  | path (fd fd' : ℕ)
  /-- `Client`: before `SetReadTimeout` -/
  | readTimeout (fd fd' : ℕ)
  /-- `Client`: `temp_directory_path` has thrown; before the socket of the transaction is destroyed -/
  | unwind (fd fd' : ℕ)
  /-- `Client`: before a running `thread_` is destroyed, which ends the process -/
  | unwound (fd : ℕ)
  /-- constructed -/
  | ready (fd : ℕ) (fd'? : Option ℕ)
  /-- behind `is_running_ = false`, before `thread_.join()` -/
  | join (fd : ℕ) (fd'? : Option ℕ)
  /-- `Server`: before the transactions that are left join their threads -/
  | transactions (fd : ℕ)
  /-- `Client`: before `Reset` joins the thread of the transaction -/
  | reset (fd fd' : ℕ)
  /-- `Client`: before the socket of the transaction is destroyed -/
  | closeTransaction (fd fd' : ℕ)
  /-- before `udp_socket_` is destroyed -/
  | close (fd : ℕ)
  deriving DecidableEq

/-- Places of the receive loop of an object. -/
inductive EndpointLoop where
  /-- no thread, or one that was joined -/
  | none
  /-- before the condition of the `while` -/
  | test
  /-- before `Receive` -/
  | receive
  /-- behind `Receive`, with a datagram -/
  | handle
  /-- `Client`: before `Reset`, called by `Begin`, joins the thread of the transaction -/
  | reset
  /-- `Client`: in `OnReceive`, called by `Begin` -/
  | begun
  /-- not joined yet -/
  | ended
  deriving DecidableEq

/-- Places of the receive loop of a `ClientTransaction`. -/
inductive TransactionLoop where
  /-- no thread, or one that was joined -/
  | none
  /-- before the condition of the `while` -/
  | test
  /-- before `Receive` -/
  | receive
  /-- behind `Receive`, with a datagram -/
  | handle
  /-- behind `Receive`, with none -/
  | cancel
  /-- not joined yet -/
  | ended
  deriving DecidableEq

/-- An object with its threads. -/
structure Endpoint where
  pos : EndpointPos
  /-- `thread_` -/
  loop : EndpointLoop
  /-- `transaction_.thread_` -/
  transactionLoop : TransactionLoop
  /-- `transaction_.is_active_` -/
  active : Bool
  /-- calls of member functions that have not returned -/
  calls : ℕ
  /-- threads of `SendFileAsync` -/
  senders : ℕ

/-- What a receive loop does next, where there is a choice. -/
inductive LoopOutcome where
  /-- `Receive` returns 0 -/
  | nothing
  | datagram
  /-- an exception leaves the loop -/
  | error
  /-- a message other than CXL is sent, which is the last that `OnReceive` does -/
  | sends
  /-- CXL is sent, behind `is_active_ = false` -/
  | cancels
  /-- FIN is accepted -/
  | ends
  /-- `Begin` finds an NTF -/
  | begins
  /-- the thread of the transaction is started -/
  | starts
  /-- nothing more is done with the datagram -/
  | done
  deriving DecidableEq

/-- What a thread of an object does. -/
inductive EndpointAction where
  /-- the thread that constructs and destroys -/
  | owner (ok : Bool) (fd : ℕ)
  | loop (o : LoopOutcome)
  | transactionLoop (o : LoopOutcome)
  /-- a member function is called, which the rules of the language allow on a whole object only -/
  | enter
  | callSends
  | startSender
  | leave
  | senderSends
  | senderEnds

/-- What else there is to say of a step. -/
inductive EndpointNote where
  /-- the receive loop of the object has called `Receive` -/
  | received
  /-- it took a datagram before the object was whole -/
  | early
  /-- a member was used that is not alive -/
  | undefined
  /-- the constructor has thrown -/
  | failed
  | destroyed
  deriving DecidableEq

/-- What comes of a step. -/
structure EndpointResult where
  next : Endpoint
  call? : Option (SocketSlot × SocketCall) := none
  notes : List EndpointNote := []
  terminates : Bool := false

namespace EndpointPos

/-- `is_running_` -/
def isRunning : EndpointPos → Bool
  | .join _ _ | .transactions _ | .reset _ _ | .closeTransaction _ _ | .close _ => false
  | _ => true

/-- All members are alive. -/
def whole : EndpointPos → Bool
  | .ready _ _ | .join _ _ => true
  | _ => false

/-- The descriptor of `udp_socket_`. -/
def own? : EndpointPos → Option ℕ
  | .absent => none
  | .socket pos => pos.fd?
  | .thread fd | .members fd | .transaction fd _ | .path fd _ | .readTimeout fd _ | .unwind fd _ | .unwound fd => some fd
  | .ready fd _ | .join fd _ | .transactions fd | .reset fd _ | .closeTransaction fd _ | .close fd => some fd

/-- The descriptor of `transaction_.udp_socket_`. -/
def transaction? : EndpointPos → Option ℕ
  | .transaction _ pos => pos.fd?
  | .path _ fd' | .readTimeout _ fd' | .unwind _ fd' | .reset _ fd' | .closeTransaction _ fd' => some fd'
  | .ready _ fd'? | .join _ fd'? => fd'?
  | .absent | .socket _ | .thread _ | .members _ | .unwound _ | .transactions _ | .close _ => none

end EndpointPos

namespace Endpoint

variable (e : Endpoint)

/-- The process ends at a member that is not alive. -/
def undefined : EndpointResult := { next := e, notes := [.undefined], terminates := true }

/-- The next statement of the constructor or of the destructor. -/
def ownerStep (kind : EndpointKind) (ok : Bool) (newFd : ℕ) : Option EndpointResult :=
  match e.pos with
  | .absent => some { next := { e with pos := .socket .create, active := false } }
  | .socket pos =>
    let call? := (pos.next ok newFd).2.map (.own, ·)
    match (pos.next ok newFd).1 with
    | .at pos' => some { next := { e with pos := .socket pos' }, call? := call? }
    | .made fd => some { next := { e with pos := .thread fd }, call? := call? }
    | .failed => some { next := { e with pos := .absent }, call? := call?, notes := [.failed] }
  | .thread fd =>
    if ok then
      match kind with
      | .server => some { next := { e with pos := .members fd, loop := .test } }
      | .client => some { next := { e with pos := .transaction fd .create, loop := .test } }
    else some { next := { e with pos := .close fd }, notes := [.failed] }
  | .members fd => some { next := { e with pos := .ready fd none } }
  | .transaction fd pos =>
    let call? := (pos.next ok newFd).2.map (.transaction, ·)
    match (pos.next ok newFd).1 with
    | .at pos' => some { next := { e with pos := .transaction fd pos' }, call? := call? }
    | .made fd' => some { next := { e with pos := .path fd fd' }, call? := call? }
    | .failed => some { next := { e with pos := .unwound fd }, call? := call? }
  | .path fd fd' => some { next := { e with pos := if ok then .readTimeout fd fd' else .unwind fd fd' } }
  | .readTimeout fd fd' =>
    some { next := { e with pos := .ready fd (some fd') }, call? := some (.transaction, .used fd') }
  | .unwind fd fd' => some { next := { e with pos := .unwound fd }, call? := some (.transaction, .closed fd') }
  | .unwound _ => some { next := e, terminates := true }
  | .ready fd fd'? => if e.calls = 0 then some { next := { e with pos := .join fd fd'? } } else none
  | .join fd none =>
    if e.loop = .ended then some { next := { e with pos := .transactions fd, loop := .none } } else none
  | .join fd (some fd') =>
    if e.loop = .ended then some { next := { e with pos := .reset fd fd', loop := .none } } else none
  | .transactions fd => if e.senders = 0 then some { next := { e with pos := .close fd } } else none
  | .reset fd fd' =>
    if e.transactionLoop = .none ∨ e.transactionLoop = .ended then
      some { next := { e with pos := .closeTransaction fd fd', transactionLoop := .none } }
    else none
  | .closeTransaction fd fd' =>
    some { next := { e with pos := .close fd }, call? := some (.transaction, .closed fd') }
  | .close fd => some { next := { e with pos := .absent }, call? := some (.own, .closed fd), notes := [.destroyed] }

/-- The next statement of the receive loop behind `Receive`. -/
def handleStep (o : LoopOutcome) : Option EndpointResult :=
  match e.loop, o with
  | .handle, .done | .begun, .done => some { next := { e with loop := .test } }
  | .handle, .error | .begun, .error => some { next := e, terminates := true }
  | .handle, .begins =>
    if e.active then none else e.pos.transaction?.map fun _ => { next := { e with loop := .reset, active := true } }
  | .reset, _ =>
    if e.transactionLoop = .none ∨ e.transactionLoop = .ended then
      some { next := { e with loop := .begun, transactionLoop := .none } }
    else none
  | .begun, .sends =>
    e.pos.transaction?.map fun fd' => { next := { e with loop := .test }, call? := some (.transaction, .used fd') }
  | .begun, .cancels =>
    e.pos.transaction?.map fun fd' =>
      { next := { e with loop := .test, active := false }, call? := some (.transaction, .used fd') }
  | .begun, .starts =>
    if e.transactionLoop = .none ∧ e.pos.transaction? ≠ none then
      some { next := { e with transactionLoop := .test } }
    else none
  | _, _ => none

/-- The next statement of `Server::HandleIncomingMessages` or `Client::HandleIncomingMessages`. -/
def loopStep (o : LoopOutcome) : Option EndpointResult :=
  match e.loop with
  | .none | .ended => none
  | .test => some { next := { e with loop := if e.pos.isRunning then .receive else .ended } }
  | .receive =>
    match e.pos.own? with
    | none => some e.undefined
    | some fd =>
      match o with
      | .nothing =>
        some { next := { e with loop := .test }, call? := some (.own, .used fd), notes := [.received] }
      | .datagram =>
        some { next := { e with loop := .handle }, call? := some (.own, .used fd),
               notes := if e.pos.whole then [.received] else [.received, .early] }
      | .error => some { next := e, call? := some (.own, .used fd), notes := [.received], terminates := true }
      | .sends | .cancels | .ends | .begins | .starts | .done => none
  | .handle | .reset | .begun =>
    -- the server looks into `active_transactions_`, the client asks `transaction_`
    if e.pos.whole then e.handleStep o else some e.undefined

/-- The next statement of `ClientTransaction::HandleIncomingMessages`. -/
def transactionLoopStep (o : LoopOutcome) : Option EndpointResult :=
  match e.transactionLoop, e.pos.transaction? with
  | .none, _ | .ended, _ => none
  | .test, _ => some { next := { e with transactionLoop := if e.active then .receive else .ended } }
  | .receive, none | .handle, none | .cancel, none => some e.undefined
  | .receive, some fd' =>
    match o with
    | .nothing => some { next := { e with transactionLoop := .cancel }, call? := some (.transaction, .used fd') }
    | .datagram => some { next := { e with transactionLoop := .handle }, call? := some (.transaction, .used fd') }
    | .error => some { next := e, call? := some (.transaction, .used fd'), terminates := true }
    | .sends | .cancels | .ends | .begins | .starts | .done => none
  | .handle, some fd' =>
    match o with
    | .done => some { next := { e with transactionLoop := .test } }
    | .ends => some { next := { e with transactionLoop := .test, active := false } }
    | .sends => some { next := { e with transactionLoop := .test }, call? := some (.transaction, .used fd') }
    | .cancels =>
      some { next := { e with transactionLoop := .test, active := false }, call? := some (.transaction, .used fd') }
    | .error => some { next := e, terminates := true }
    | .nothing | .datagram | .begins | .starts => none
  | .cancel, some fd' =>
    some { next := { e with transactionLoop := .ended, active := false }, call? := some (.transaction, .used fd') }

/-- Something is sent by a call of a member function, or by the thread of `SendFileAsync`. -/
def sendStep : EndpointResult :=
  match e.pos.own? with
  | none => e.undefined
  | some fd => { next := e, call? := some (.own, .used fd) }

/-- The next statement of a thread. -/
def step (kind : EndpointKind) : EndpointAction → Option EndpointResult
  | .owner ok fd => e.ownerStep kind ok fd
  | .loop o => e.loopStep o
  | .transactionLoop o => e.transactionLoopStep o
  | .enter =>
    match e.pos with
    | .ready _ none => some { next := { e with calls := e.calls + 1 } }
    | _ => none
  | .callSends => if 0 < e.calls then some e.sendStep else none
  | .startSender => if 0 < e.calls then some { next := { e with senders := e.senders + 1 } } else none
  | .leave => if 0 < e.calls then some { next := { e with calls := e.calls - 1 } } else none
  | .senderSends => if 0 < e.senders then some e.sendStep else none
  | .senderEnds => if 0 < e.senders then some { next := { e with senders := e.senders - 1 } } else none

/-- The descriptor of a socket. -/
def holds : SocketSlot → Option ℕ
  | .own => e.pos.own?
  | .transaction => e.pos.transaction?

end Endpoint

/-! ## The process -/

/-- Who holds a descriptor: a socket of an object, or the rest of the process. -/
inductive DescriptorOwner (ι : Type*) where
  | endpoint (i : ι) (slot : SocketSlot)
  | rest (fd : ℕ)
  deriving DecidableEq

/-- The objects of a process, and the descriptors that are open. -/
structure EndpointProcess (ι : Type*) where
  endpoint : ι → Endpoint
  descriptors : ℕ → Bool
  /-- those that the rest of the process has opened -/
  others : ℕ → Bool
  terminated : Bool

/-- What happens next. -/
inductive EndpointProcessAction (ι : Type*) where
  | endpoint (i : ι) (a : EndpointAction)
  /-- the rest of the process opens a descriptor -/
  | opens (fd : ℕ)
  /-- the rest of the process closes a descriptor of its own -/
  | closes (fd : ℕ)

/-- What a step lets be seen. -/
inductive EndpointProcessEvent (ι : Type*) where
  | system (i : ι) (slot : SocketSlot) (call : SocketCall)
  | note (i : ι) (note : EndpointNote)
  deriving DecidableEq

/-- The kernel: a number that is handed out is not open before. -/
def SocketCall.apply (descriptors : ℕ → Bool) : SocketCall → Option (ℕ → Bool)
  | .opened fd => if descriptors fd then none else some (Function.update descriptors fd true)
  | .used _ => some descriptors
  | .closed fd => some (Function.update descriptors fd false)

namespace EndpointProcess

variable {ι : Type*} [DecidableEq ι] (S : EndpointProcess ι)

/-- The descriptor that an owner holds. -/
def holds : DescriptorOwner ι → Option ℕ
  | .endpoint i slot => (S.endpoint i).holds slot
  | .rest fd => if S.others fd then some fd else none

/-- Store what comes of a step of one object. -/
def update (i : ι) (r : EndpointResult) : Option (EndpointProcess ι × List (EndpointProcessEvent ι)) :=
  let S' := { S with endpoint := Function.update S.endpoint i r.next, terminated := r.terminates }
  match r.call? with
  | none => some (S', r.notes.map (.note i))
  | some (slot, call) =>
    (call.apply S.descriptors).map fun descriptors =>
      ({ S' with descriptors := descriptors }, .system i slot call :: r.notes.map (.note i))

/-- One statement of one thread. -/
def step (kind : ι → EndpointKind) : EndpointProcessAction ι →
    Option (EndpointProcess ι × List (EndpointProcessEvent ι))
  | .endpoint i a => if S.terminated then none else ((S.endpoint i).step (kind i) a).bind (S.update i)
  | .opens fd =>
    if S.terminated ∨ S.descriptors fd then none
    else
      some ({ S with
        descriptors := Function.update S.descriptors fd true, others := Function.update S.others fd true }, [])
  | .closes fd =>
    if S.terminated ∨ ¬S.others fd then none
    else
      some ({ S with
        descriptors := Function.update S.descriptors fd false, others := Function.update S.others fd false }, [])

end EndpointProcess

/-- No object. -/
def Endpoint.absent : Endpoint :=
  { pos := .absent, loop := .none, transactionLoop := .none, active := false, calls := 0, senders := 0 }

/-- A process with any number of servers and clients. -/
def endpointMachine {ι : Type*} [DecidableEq ι] (kind : ι → EndpointKind) :
    EventMachine (EndpointProcess ι) (EndpointProcessAction ι) (EndpointProcessEvent ι) where
  initial S := (∀ i, S.endpoint i = .absent) ∧ (∀ fd, S.descriptors fd = false) ∧ (∀ fd, S.others fd = false) ∧
    S.terminated = false
  step S a := S.step kind a

end Trftp
