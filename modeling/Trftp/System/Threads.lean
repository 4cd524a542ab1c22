import Trftp.System.Network
import Trftp.Client.Callback

/-!
# One transfer with the two threads of the client

The system of one transfer again, with the client as its two threads: a delivery puts the bytes of a
datagram into the buffer of a loop that waits for one, and every statement of either loop is a
step of its own. The network is the one of the system whose client handles one datagram at a
time, and the events of that system are found again in the events of this one.
-/

namespace Trftp

open Lib (EventMachine)
open Lib.EventMachine (Projection)

/-- Both parties, and every datagram that was sent. -/
structure ThreadedState where
  server : ServerState
  client : ClientProcess
  net : List Packet

/-- What happens next. -/
inductive ThreadedAction where
  /-- a statement of the server -/
  | server (a : ServerAction)
  /-- a datagram is delivered to the server -/
  | toServer (p : Packet) (r : Received)
  /-- a datagram is delivered to the client's main socket, into this buffer -/
  | toMain (p : Packet) (buffer : TrftpMessage)
  /-- a datagram is delivered to the socket of the client's transaction, into this buffer -/
  | toLoop (p : Packet) (buffer : TrftpMessage)
  /-- the client's receive loop times out -/
  | clientTimeout
  /-- the next statement of the client's main loop -/
  | main (ops : FileOps)
  /-- the next statement of the client's receive loop -/
  | loop (ops : FileOps)

/-- What either party lets be seen. -/
inductive ThreadedEvent where
  | server (e : ServerEvent)
  | client (e : ClientProcessEvent)
  deriving DecidableEq

@[inherit_doc ServerEvent.packet?]
def ClientProcessEvent.packet? : ClientProcessEvent → Option Packet
  | .of _ e => e.packet?
  | _ => none

/-- The server's part of an event. -/
def ThreadedEvent.server? : ThreadedEvent → Option ServerEvent
  | .server e => some e
  | .client _ => none

/-- The client's part of an event. -/
def ThreadedEvent.client? : ThreadedEvent → Option ClientProcessEvent
  | .server _ => none
  | .client e => some e

/-- The event as the system sees it whose client handles one datagram at a time. -/
def ThreadedEvent.system? : ThreadedEvent → Option SystemEvent
  | .server e => some (.server e)
  | .client e => e.client?.map .client

/-- The datagram of a delivery. -/
def Packet.datagram (p : Packet) : Datagram := ⟨p.src, p.bytes⟩

/-- The datagram that the client is given. -/
def ClientProcessAction.datagram? : ClientProcessAction → Option Datagram
  | .mainDatagram _ d | .loopDatagram _ d => some d
  | .loopTimeout | .main _ | .loop _ => none

namespace ThreadedState

/-- The server has made a step. -/
def serverDone (s : ThreadedState) (p : ServerState × List ServerEvent) : ThreadedState × List ThreadedEvent :=
  ({ s with server := p.1, net := s.net ++ p.2.filterMap ServerEvent.packet? }, p.2.map .server)

/-- The client has made a step. -/
def clientDone (s : ThreadedState) (p : ClientProcess × List ClientProcessEvent) :
    ThreadedState × List ThreadedEvent :=
  ({ s with client := p.1, net := s.net ++ p.2.filterMap ClientProcessEvent.packet? }, p.2.map .client)

/-- One statement, one delivery, or one timeout. -/
def step (tr : Transfer) (s : ThreadedState) : ThreadedAction → Option (ThreadedState × List ThreadedEvent)
  | .server a => if a.isLocal then (s.server.step tr.server a).map s.serverDone else none
  | .toServer p r =>
    if (p ∈ s.net ∧ r.From p ∧ p.dst = tr.server.udpSocket) ∧ p.src.sinAddr = tr.server.addr.sinAddr then
      (s.server.step tr.server (.deliver r)).map s.serverDone
    else none
  | .toMain p buffer =>
    if p ∈ s.net ∧ p.dst = tr.server.addr then
      (s.client.step tr.client (.mainDatagram buffer p.datagram)).map s.clientDone
    else none
  | .toLoop p buffer =>
    if p ∈ s.net ∧ p.dst = tr.client.udpSocket then
      (s.client.step tr.client (.loopDatagram buffer p.datagram)).map s.clientDone
    else none
  | .clientTimeout => (s.client.step tr.client .loopTimeout).map s.clientDone
  | .main ops => (s.client.step tr.client (.main ops)).map s.clientDone
  | .loop ops => (s.client.step tr.client (.loop ops)).map s.clientDone

end ThreadedState

/-- The transfer from the registration of the transaction on, with an idle client. -/
def threadedMachine (tr : Transfer) : EventMachine ThreadedState ThreadedAction ThreadedEvent where
  initial s := s.server = tr.server.registeredState ∧ (clientProcess tr.client).initial s.client ∧ s.net = []
  step s a := s.step tr a

/-- What one step can be. -/
inductive ThreadedStep (tr : Transfer) (s : ThreadedState) : ThreadedState → List ThreadedEvent → Prop
  | server {a : ServerAction} {server : ServerState} {e : List ServerEvent}
      (h : s.server.step tr.server a = some (server, e))
      (hdeliver : ∀ r, a = .deliver r → ∃ p ∈ s.net, r.From p) :
      ThreadedStep tr s { s with server := server, net := s.net ++ e.filterMap ServerEvent.packet? } (e.map .server)
  | client {a : ClientProcessAction} {client : ClientProcess} {e : List ClientProcessEvent}
      (h : s.client.step tr.client a = some (client, e))
      (hdeliver : ∀ d, a.datagram? = some d → ∃ p ∈ s.net, d = p.datagram) :
      ThreadedStep tr s { s with client := client, net := s.net ++ e.filterMap ClientProcessEvent.packet? }
        (e.map .client)

/-- Every step is one of these. -/
theorem ThreadedState.step_cases {tr : Transfer} {s s' : ThreadedState} {a : ThreadedAction}
    {e : List ThreadedEvent} (h : s.step tr a = some (s', e)) : ThreadedStep tr s s' e := by
  have hclient {b : ClientProcessAction} (hdeliver : ∀ d, b.datagram? = some d → ∃ p ∈ s.net, d = p.datagram)
      (h : (s.client.step tr.client b).map s.clientDone = some (s', e)) : ThreadedStep tr s s' e := by
    obtain ⟨q, hstep, heq⟩ := Option.map_eq_some_iff.mp h
    obtain ⟨rfl, rfl⟩ := Prod.mk.inj heq
    exact .client hstep hdeliver
  cases a with
  | server a =>
    simp only [step] at h
    split_ifs at h with hlocal
    obtain ⟨q, hstep, heq⟩ := Option.map_eq_some_iff.mp h
    obtain ⟨rfl, rfl⟩ := Prod.mk.inj heq
    refine .server hstep fun r hr => ?_
    subst hr
    contradiction
  | toServer p r =>
    simp only [step] at h
    split_ifs at h with hdeliver
    obtain ⟨q, hstep, heq⟩ := Option.map_eq_some_iff.mp h
    obtain ⟨rfl, rfl⟩ := Prod.mk.inj heq
    refine .server hstep fun r' hr => ?_
    cases hr
    exact ⟨p, hdeliver.1.1, hdeliver.1.2.1⟩
  | toMain p buffer | toLoop p buffer =>
    simp only [step] at h
    split_ifs at h with hdeliver
    refine hclient (fun d hd => ⟨p, hdeliver.1, ?_⟩) h
    cases hd
    rfl
  | clientTimeout | main ops | loop ops => exact hclient (fun d hd => by contradiction) h

/-- A statement of the server shows to the server only, and as it is. -/
theorem filterMap_threaded_server (e : List ServerEvent) :
    (e.map ThreadedEvent.server).filterMap ThreadedEvent.server? = e ∧
      (e.map ThreadedEvent.server).filterMap ThreadedEvent.client? = [] ∧
      (e.map ThreadedEvent.server).filterMap ThreadedEvent.system? = e.map .server := by
  induction e with
  | nil => exact ⟨rfl, rfl, rfl⟩
  | cons x e ih => simpa [ThreadedEvent.server?, ThreadedEvent.client?, ThreadedEvent.system?] using ih

/-- A statement of the client shows to the client only, and what it tells about the transaction. -/
theorem filterMap_threaded_client (e : List ClientProcessEvent) :
    (e.map ThreadedEvent.client).filterMap ThreadedEvent.client? = e ∧
      (e.map ThreadedEvent.client).filterMap ThreadedEvent.server? = [] ∧
      (e.map ThreadedEvent.client).filterMap ThreadedEvent.system? =
        (e.filterMap ClientProcessEvent.client?).map .client := by
  refine ⟨?_, ?_, ?_⟩
  · rw [List.filterMap_map]
    exact List.filterMap_some
  · rw [List.filterMap_map]
    exact List.filterMap_eq_nil_iff.mpr fun _ _ => rfl
  · rw [List.filterMap_map, List.map_filterMap]
    rfl

/-- The server is a component. -/
def threadedServerProjection (tr : Transfer) : Projection (threadedMachine tr) (serverMachine tr.server) where
  state := ThreadedState.server
  event := ThreadedEvent.server?
  initial _ h := h.1
  step h := by
    cases ThreadedState.step_cases h with
    | server hstep _ => exact Or.inr ⟨_, by rw [(filterMap_threaded_server _).1]; exact hstep⟩
    | client _ _ => exact Or.inl ⟨rfl, (filterMap_threaded_client _).2.1⟩

/-- The client is a component. -/
def threadedClientProjection (tr : Transfer) : Projection (threadedMachine tr) (clientProcess tr.client) where
  state := ThreadedState.client
  event := ThreadedEvent.client?
  initial _ h := h.2.1
  step h := by
    cases ThreadedState.step_cases h with
    | server _ _ => exact Or.inl ⟨rfl, (filterMap_threaded_server _).2.1⟩
    | client hstep _ => exact Or.inr ⟨_, by rw [(filterMap_threaded_client _).1]; exact hstep⟩

end Trftp
