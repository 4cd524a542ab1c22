import Trftp.Server.Threads
import Trftp.Client.Receiving

/-!
# One transfer over an unreliable network

The network keeps every datagram that was ever sent. A delivery hands one of them over and
leaves it in the network, so a datagram can be delivered late, again, out of order, or
never; it is not altered, and none is forged. What was in the receiver's buffer before is
arbitrary. The server dispatches by the address of the sender's host.

Both parties are components: a run of the system is a run of either one, if one looks at
its part of the state and of the events only. The client runs `Begin` and `OnReceive` to their
end before it takes the next datagram; the interleavings of its two threads belong to a system
of their own.
-/

namespace Trftp

open Lib (EventMachine)
open Lib.EventMachine (Projection)

/-- A server and a client, with the address to which the server sends its NTF belonging to the
client's host. -/
structure Transfer where
  server : ServerTransaction
  client : ClientTransaction
  sameHost : server.addr.sinAddr = client.udpSocket.sinAddr

/-- Both parties, and every datagram that was sent. -/
structure SystemState where
  server : ServerState
  client : ClientState
  net : List Packet

/-- What happens next. -/
inductive SystemAction where
  /-- a statement of the server -/
  | server (a : ServerAction)
  /-- a datagram is delivered to the server -/
  | toServer (p : Packet) (r : Received)
  /-- a datagram is delivered to the client's main socket -/
  | toMain (p : Packet) (r : Received) (ops : FileOps)
  /-- a datagram is delivered to the socket of the client's transaction -/
  | toLoop (p : Packet) (r : Received) (ops : FileOps)
  /-- the client's receive loop times out -/
  | clientTimeout

/-- What either party lets be seen. -/
inductive SystemEvent where
  | server (e : ServerEvent)
  | client (e : ClientEvent)
  deriving DecidableEq

/-- The datagram that an event puts into the network. -/
def ServerEvent.packet? : ServerEvent → Option Packet
  | .sent _ p | .transmitted _ p => some p
  | _ => none

@[inherit_doc ServerEvent.packet?]
def ClientEvent.packet? : ClientEvent → Option Packet
  | .sent _ p => some p
  | _ => none

/-- The server's part of an event. -/
def SystemEvent.server? : SystemEvent → Option ServerEvent
  | .server e => some e
  | .client _ => none

/-- The client's part of an event. -/
def SystemEvent.client? : SystemEvent → Option ClientEvent
  | .server _ => none
  | .client e => some e

/-- The step is not the arrival of a datagram. -/
def ServerAction.isLocal : ServerAction → Bool
  | .deliver _ => false
  | _ => true

/-- The message that the client is given. -/
def ClientAction.message? : ClientAction → Option Received
  | .main r _ | .loop r _ => some r
  | .timeout => none

namespace SystemState

/-- The server has made a step. -/
def serverDone (s : SystemState) (p : ServerState × List ServerEvent) : SystemState × List SystemEvent :=
  ({ s with server := p.1, net := s.net ++ p.2.filterMap ServerEvent.packet? }, p.2.map .server)

/-- The client has made a step. -/
def clientDone (s : SystemState) (p : ClientState × List ClientEvent) : SystemState × List SystemEvent :=
  ({ s with client := p.1, net := s.net ++ p.2.filterMap ClientEvent.packet? }, p.2.map .client)

/-- A datagram in the network is received at a socket with this address. -/
def Delivers (s : SystemState) (p : Packet) (r : Received) (dst : SockAddr) : Prop :=
  p ∈ s.net ∧ r.From p ∧ p.dst = dst

instance (s : SystemState) (p : Packet) (r : Received) (dst : SockAddr) : Decidable (s.Delivers p r dst) :=
  inferInstanceAs (Decidable (_ ∧ _))

/-- One statement, one delivery, or one timeout. -/
def step (tr : Transfer) (s : SystemState) : SystemAction → Option (SystemState × List SystemEvent)
  | .server a => if a.isLocal then (s.server.step tr.server a).map s.serverDone else none
  | .toServer p r =>
    if s.Delivers p r tr.server.udpSocket ∧ p.src.sinAddr = tr.server.addr.sinAddr then
      (s.server.step tr.server (.deliver r)).map s.serverDone
    else none
  | .toMain p r ops =>
    if s.Delivers p r tr.server.addr then (s.client.step tr.client (.main r ops)).map s.clientDone else none
  | .toLoop p r ops =>
    if s.Delivers p r tr.client.udpSocket then
      (s.client.step tr.client (.loop r ops)).map s.clientDone
    else none
  | .clientTimeout => (s.client.step tr.client .timeout).map s.clientDone

end SystemState

/-- The transfer from the registration of the transaction on, with an idle client that handles one datagram at a
time. -/
def systemMachine (tr : Transfer) : EventMachine SystemState SystemAction SystemEvent where
  initial s := s.server = tr.server.registeredState ∧ (clientMachine tr.client).initial s.client ∧ s.net = []
  step s a := s.step tr a

/-- What one step of the system can be. -/
inductive SystemStep (tr : Transfer) (s : SystemState) : SystemState → List SystemEvent → Prop
  | server {a : ServerAction} {server : ServerState} {e : List ServerEvent}
      (h : s.server.step tr.server a = some (server, e)) (hlocal : a.isLocal = true) :
      SystemStep tr s { s with server := server, net := s.net ++ e.filterMap ServerEvent.packet? } (e.map .server)
  | heard {p : Packet} {r : Received} {server : ServerState} {e : List ServerEvent} (hmem : p ∈ s.net)
      (hfrom : r.From p) (h : s.server.step tr.server (.deliver r) = some (server, e)) :
      SystemStep tr s { s with server := server, net := s.net ++ e.filterMap ServerEvent.packet? } (e.map .server)
  | received {p : Packet} {r : Received} {a : ClientAction} {client : ClientState} {e : List ClientEvent}
      (hmem : p ∈ s.net) (hfrom : r.From p) (haction : a.message? = some r)
      (h : s.client.step tr.client a = some (client, e)) :
      SystemStep tr s { s with client := client, net := s.net ++ e.filterMap ClientEvent.packet? } (e.map .client)
  | timeout {client : ClientState} {e : List ClientEvent}
      (h : s.client.step tr.client .timeout = some (client, e)) :
      SystemStep tr s { s with client := client, net := s.net ++ e.filterMap ClientEvent.packet? } (e.map .client)

/-- Every step is one of these. -/
theorem SystemState.step_cases {tr : Transfer} {s s' : SystemState} {a : SystemAction}
    {e : List SystemEvent} (h : s.step tr a = some (s', e)) : SystemStep tr s s' e := by
  cases a with
  | server a =>
    simp only [step] at h
    split_ifs at h with hlocal
    obtain ⟨q, hstep, heq⟩ := Option.map_eq_some_iff.mp h
    obtain ⟨rfl, rfl⟩ := Prod.mk.inj heq
    exact .server hstep hlocal
  | toServer p r =>
    simp only [step] at h
    split_ifs at h with hdeliver
    obtain ⟨q, hstep, heq⟩ := Option.map_eq_some_iff.mp h
    obtain ⟨rfl, rfl⟩ := Prod.mk.inj heq
    exact .heard hdeliver.1.1 hdeliver.1.2.1 hstep
  | toMain p r ops =>
    simp only [step] at h
    split_ifs at h with hdeliver
    obtain ⟨q, hstep, heq⟩ := Option.map_eq_some_iff.mp h
    obtain ⟨rfl, rfl⟩ := Prod.mk.inj heq
    exact .received hdeliver.1 hdeliver.2.1 rfl hstep
  | toLoop p r ops =>
    simp only [step] at h
    split_ifs at h with hdeliver
    obtain ⟨q, hstep, heq⟩ := Option.map_eq_some_iff.mp h
    obtain ⟨rfl, rfl⟩ := Prod.mk.inj heq
    exact .received hdeliver.1 hdeliver.2.1 rfl hstep
  | clientTimeout =>
    simp only [step] at h
    obtain ⟨q, hstep, heq⟩ := Option.map_eq_some_iff.mp h
    obtain ⟨rfl, rfl⟩ := Prod.mk.inj heq
    exact .timeout hstep

/-- A statement of the server shows to the server only. -/
theorem filterMap_server? (e : List ServerEvent) :
    (e.map SystemEvent.server).filterMap SystemEvent.server? = e ∧
      (e.map SystemEvent.server).filterMap SystemEvent.client? = [] := by
  induction e with
  | nil => exact ⟨rfl, rfl⟩
  | cons x e ih => simpa [SystemEvent.server?, SystemEvent.client?] using ih

/-- A step of the client shows to the client only. -/
theorem filterMap_client? (e : List ClientEvent) :
    (e.map SystemEvent.client).filterMap SystemEvent.client? = e ∧
      (e.map SystemEvent.client).filterMap SystemEvent.server? = [] := by
  induction e with
  | nil => exact ⟨rfl, rfl⟩
  | cons x e ih => simpa [SystemEvent.server?, SystemEvent.client?] using ih

/-- The server is a component of the system. -/
def serverProjection (tr : Transfer) : Projection (systemMachine tr) (serverMachine tr.server) where
  state := SystemState.server
  event := SystemEvent.server?
  initial _ h := h.1
  step h := by
    cases SystemState.step_cases h with
    | server hstep => exact Or.inr ⟨_, by rw [(filterMap_server? _).1]; exact hstep⟩
    | heard _ _ hstep => exact Or.inr ⟨.deliver _, by rw [(filterMap_server? _).1]; exact hstep⟩
    | received | timeout => exact Or.inl ⟨rfl, (filterMap_client? _).2⟩

/-- The client is a component of the system. -/
def clientProjection (tr : Transfer) : Projection (systemMachine tr) (clientMachine tr.client) where
  state := SystemState.client
  event := SystemEvent.client?
  initial _ h := h.2.1
  step h := by
    cases SystemState.step_cases h with
    | server | heard => exact Or.inl ⟨rfl, (filterMap_server? _).2⟩
    | received _ _ _ hstep => exact Or.inr ⟨_, by rw [(filterMap_client? _).1]; exact hstep⟩
    | timeout hstep => exact Or.inr ⟨.timeout, by rw [(filterMap_client? _).1]; exact hstep⟩

end Trftp
