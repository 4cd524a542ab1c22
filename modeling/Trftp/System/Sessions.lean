import Trftp.System.Safety
import Trftp.System.Discarding

/-!
# Successive transfers

The client keeps one transaction and one socket for all its transfers, and the server dispatches
by the address of the sender's host. A session is one transfer behind another: the server
creates a new transaction, the client and the network stay as they are, so what an earlier
transfer sent can still arrive. As in one transfer, the client handles one datagram at a time.

No message names its transfer, so a late datagram is judged by the checks of `OnReceive` alone.
While the receive loop of the server works on a datagram that it is about to discard, the
transaction stands beside the one that never got it: they differ in the position of the loop.
-/

namespace Trftp

open Lib (EventMachine)

/-- The transfer that goes on, and how many datagrams were sent before it began. -/
structure Session where
  tr : Transfer
  sys : SystemState
  before : ℕ

/-- What happens next. -/
inductive SessionAction where
  /-- a step of the transfer that goes on -/
  | current (a : SystemAction)
  /-- `StartFileTransfer` is called again and registers this transaction -/
  | next (t : ServerTransaction)

/-- No thread works on the transaction any more: its destructor has joined the sender. -/
def ServerState.Gone (s : ServerState) : Prop :=
  s.driver.registered = false ∧ (s.sender = .notStarted ∨ s.sender = .stopped ∨ s.sender = .finished) ∧
    s.receiver = .idle ∧ s.aborts = 0

instance (s : ServerState) : Decidable s.Gone := inferInstanceAs (Decidable (_ ∧ _))

namespace Session

/-- A step of the transfer that goes on, or the beginning of the next one. -/
def step (S : Session) : SessionAction → Option (Session × List SystemEvent)
  | .current a => (S.sys.step S.tr a).map fun p => ({ S with sys := p.1 }, p.2)
  | .next t =>
    if h : S.sys.server.Gone ∧ t.addr = S.tr.server.addr ∧ t.udpSocket = S.tr.server.udpSocket then
      some
        ({ tr := ⟨t, S.tr.client, h.2.1 ▸ S.tr.sameHost⟩
           sys := { S.sys with server := t.registeredState }
           before := S.sys.net.length }, [])
    else none

end Session

/-- The datagram that arrives. -/
def SystemAction.packet? : SystemAction → Option Packet
  | .toServer p _ | .toMain p _ _ | .toLoop p _ _ => some p
  | .server _ | .clientTimeout => none

/-- One transfer behind another, between the same sockets. -/
def sessionMachine : EventMachine Session SessionAction SystemEvent where
  initial S := (systemMachine S.tr).initial S.sys ∧ S.before = 0
  step S a := S.step a

/-! ## The transaction beside -/

namespace ServerState

variable {t : ServerTransaction} {s s' : ServerState} {e : List ServerEvent} {r : Received}

/-- The transaction with the receive loop between two datagrams. -/
def unheard (s : ServerState) : ServerState := { s with receiver := .idle }

/-- The transaction with another address of its client. -/
def heard (s : ServerState) (addr : SockAddr) : ServerState :=
  { s with vars := { s.vars with clientAddress := addr } }

end ServerState

/-- The system with the receive loop of the server between two datagrams. -/
def SystemState.unheard (s : SystemState) : SystemState := { s with server := s.server.unheard }

namespace Session

variable {r : Received} {S T S' : Session} {e : List SystemEvent}

end Session

/-! ## What can be in the network -/

/-- A datagram of one of the transfers between these sockets. -/
inductive Posted (tr : Transfer) : Packet → Prop
  | request {t : ServerTransaction} {dst : SockAddr} {id : MessageId}
      (hid : id = .ntf ∨ id = .info ∨ id = .fin ∨ id = .cxl) : Posted tr (t.packet dst id)
  | data {t : ServerTransaction} {dst : SockAddr} {psn : UInt32} (hpsn : psn < t.totalPacketNumber) :
      Posted tr (t.dataPacket dst psn (Lib.chunk sizeofPayload t.served psn.toNat))
  | reply {v : ClientVars} {id : MessageId} (hid : id = .chk ∨ id = .rdy ∨ id = .done ∨ id = .rtx ∨ id = .cxl) :
      Posted tr (tr.client.packet v id)

/-- What the client puts into the network. -/
theorem ClientState.step_posted {tr : Transfer} {s s' : ClientState} {a : ClientAction} {e : List ClientEvent}
    (h : s.step tr.client a = some (s', e)) {x : ClientEvent} (hx : x ∈ e) {p : Packet} (hp : x.packet? = some p) :
    Posted tr p := by
  have hreact {v w : ClientVars} {r : Received} {ops : FileOps} {e : List ClientEvent}
      (hreact : ClientTransaction.Reaction tr.client v r ops w e) (hx : x ∈ e) : Posted tr p := by
    rcases hreact.sent hx hp with ⟨id, v', hid, rfl⟩ | ⟨-, -, -, rfl⟩
    · refine .reply ?_
      rcases hid with rfl | rfl | rfl | rfl <;> simp
    · exact .reply (by simp)
  cases ClientState.step_cases h with
  | dropped => contradiction
  | terminated =>
    rw [List.mem_singleton.mp hx] at hp
    contradiction
  | began _ hreaction _ =>
    rcases List.mem_cons.mp hx with rfl | hx
    · contradiction
    · exact hreact hreaction hx
  | received _ _ hreaction _ => exact hreact hreaction hx
  | timeout hcancel =>
    obtain ⟨v, rfl⟩ := hcancel.sent hx hp
    exact .reply (by simp)

/-- What a statement of the server puts into the network. -/
theorem ServerState.step_posted {tr : Transfer} {t : ServerTransaction} {s s' : ServerState} {a : ServerAction}
    {es e : List ServerEvent} (hinv : SendingInv t es s) (h : s.step t a = some (s', e)) {x : ServerEvent}
    (hx : x ∈ e) {p : Packet} (hp : x.packet? = some p) : Posted tr p := by
  rcases ServerState.step_packet hinv h hx hp with ⟨id, hid, rfl⟩ | ⟨-, -, rfl⟩ | ⟨psn, hpsn, rfl⟩
  · refine .request ?_
    rcases hid with rfl | rfl | rfl <;> simp
  · exact .request (by simp)
  · exact .data hpsn

/-- Both sides are components of their own in every session, and the network holds what they sent. -/
structure SessionInv (S : Session) : Prop where
  server : ∃ es, (serverMachine S.tr.server).Trace es S.sys.server
  client : ∃ es, (clientMachine S.tr.client).Trace es S.sys.client
  net : ∀ p ∈ S.sys.net, Posted S.tr p

/-- A step of the server keeps it. -/
theorem SessionInv.serverDone {S : Session} (hinv : SessionInv S) {a : ServerAction} {server : ServerState}
    {e : List ServerEvent} (h : S.sys.server.step S.tr.server a = some (server, e)) :
    SessionInv { S with sys := (S.sys.serverDone (server, e)).1 } := by
  obtain ⟨es, htrace⟩ := hinv.server
  refine ⟨⟨es ++ e, htrace.step h⟩, hinv.client, fun p hp => ?_⟩
  rcases List.mem_append.mp hp with hold | hnew
  · exact hinv.net p hold
  · obtain ⟨x, hx, hpacket⟩ := List.mem_filterMap.mp hnew
    exact ServerState.step_posted (sendingInv_of_trace htrace) h hx hpacket

/-- A step of the client keeps it. -/
theorem SessionInv.clientDone {S : Session} (hinv : SessionInv S) {a : ClientAction} {client : ClientState}
    {e : List ClientEvent} (h : S.sys.client.step S.tr.client a = some (client, e)) :
    SessionInv { S with sys := (S.sys.clientDone (client, e)).1 } := by
  obtain ⟨es, htrace⟩ := hinv.client
  refine ⟨hinv.server, ⟨es ++ e, htrace.step h⟩, fun p hp => ?_⟩
  rcases List.mem_append.mp hp with hold | hnew
  · exact hinv.net p hold
  · obtain ⟨x, hx, hpacket⟩ := List.mem_filterMap.mp hnew
    exact ClientState.step_posted h hx hpacket

/-- Every step of a session keeps it, and the next transfer begins with it. -/
theorem SessionInv.step {S S' : Session} (hinv : SessionInv S) {a : SessionAction} {e : List SystemEvent}
    (h : S.step a = some (S', e)) : SessionInv S' := by
  cases a with
  | next t =>
    simp only [Session.step] at h
    split_ifs at h with hnext
    cases h
    refine ⟨⟨[], .initial rfl⟩, hinv.client, fun p hp => ?_⟩
    cases hinv.net p hp with
    | request hid => exact .request hid
    | data hpsn => exact .data hpsn
    | reply hid =>
      exact (.reply hid : Posted ⟨t, S.tr.client, hnext.2.1 ▸ S.tr.sameHost⟩ _)
  | current b =>
    obtain ⟨⟨sys, e⟩, hsys, heq⟩ := Option.map_eq_some_iff.mp h
    obtain ⟨rfl, rfl⟩ := Prod.mk.inj heq
    cases SystemState.step_cases hsys with
    | server hstep | heard _ _ hstep => exact hinv.serverDone hstep
    | received _ _ _ hstep | timeout hstep => exact hinv.clientDone hstep

end Trftp
