import Trftp.System.Addresses
import Trftp.System.Safety

/-!
# One server and many clients

Calls of `StartFileTransfer` for several clients run at the same time, over one network that
may lose, repeat, delay and reorder the datagrams of all of them. The clients are on hosts of
their own, because the server tells them apart by host only. Nothing is assumed about the
calls: some may be refused, abandoned, aborted, or made for hosts where no client is. Each client
handles one datagram at a time.

A call that is the only one for the host of its client is a transfer of its own. What it and
its client do is a run of `systemMachine`, whatever the other parties do meanwhile, so every
property of a single transfer holds of it.
-/

namespace Trftp

open Lib (EventMachine EachWithPast firstChunks)
open Lib.EventMachine (Projection)

/-- A server, and clients on hosts of their own. -/
structure Deployment (ι : Type*) where
  udpSocket : SockAddr
  clients : ι → ClientTransaction
  /-- the sockets on which the clients wait for an NTF -/
  main : ι → SockAddr
  sameHost : ∀ k, (main k).sinAddr = (clients k).udpSocket.sinAddr
  ownHost : ∀ k l, (main k).sinAddr = (main l).sinAddr → k = l
  main_ne : ∀ k, main k ≠ udpSocket
  loop_ne : ∀ k, (clients k).udpSocket ≠ udpSocket

/-- The server with all its calls, the clients, and every datagram that was sent. -/
structure DeploymentState (ι : Type*) where
  server : ServerProcess
  clients : ι → ClientState
  net : List Packet

/-- What happens next. -/
inductive DeploymentAction (ι : Type*) where
  /-- a statement of the server -/
  | server (a : ProcessAction)
  /-- a datagram is delivered to the server -/
  | toServer (p : Packet) (r : Received)
  /-- a datagram is delivered to the main socket of a client -/
  | toMain (k : ι) (p : Packet) (r : Received) (ops : FileOps)
  /-- a datagram is delivered to the socket of the transaction of a client -/
  | toLoop (k : ι) (p : Packet) (r : Received) (ops : FileOps)
  /-- the receive loop of a client times out -/
  | clientTimeout (k : ι)

/-- What the parties let be seen. -/
inductive DeploymentEvent (ι : Type*) where
  | server (e : ProcessEvent)
  | client (k : ι) (e : ClientEvent)

/-- The step is not the arrival of a datagram. -/
def ProcessAction.isLocal : ProcessAction → Bool
  | .datagram _ _ => false
  | .start _ _ | .call _ _ | .sendThrows _ | .senderThrows _ | .abort _ | .receiver => true

@[inherit_doc ServerEvent.packet?]
def ProcessEvent.packet? : ProcessEvent → Option Packet
  | .call _ e => e.packet?
  | .registered _ | .exited _ _ | .sendThrew _ | .senderThrew _ | .noTransaction _ | .received _
  | .dispatched _ _ | .receiveThrew => none

@[inherit_doc ServerEvent.packet?]
def SystemEvent.packet? : SystemEvent → Option Packet
  | .server e => e.packet?
  | .client e => e.packet?

/-- The datagrams among the events of the server. -/
theorem SystemEvent.filterMap_server (e : List ServerEvent) :
    (e.map .server).filterMap SystemEvent.packet? = e.filterMap ServerEvent.packet? := by
  rw [List.filterMap_map]
  rfl

/-- The datagrams among the events of the client. -/
theorem SystemEvent.filterMap_client (e : List ClientEvent) :
    (e.map .client).filterMap SystemEvent.packet? = e.filterMap ClientEvent.packet? := by
  rw [List.filterMap_map]
  rfl

namespace DeploymentEvent

variable {ι : Type*}

@[inherit_doc ServerEvent.packet?]
def packet? : DeploymentEvent ι → Option Packet
  | .server e => e.packet?
  | .client _ e => e.packet?

/-- The server's part of an event. -/
def server? : DeploymentEvent ι → Option ProcessEvent
  | .server e => some e
  | .client _ _ => none

/-- An event of the transfer that call `i` makes to client `k`. -/
def of [DecidableEq ι] (i : ℕ) (k : ι) : DeploymentEvent ι → Option SystemEvent
  | .server e => (e.of i).map .server
  | .client l e => if l = k then some (.client e) else none

end DeploymentEvent

namespace DeploymentState

variable {ι : Type*} [DecidableEq ι] (d : Deployment ι) (S : DeploymentState ι)

/-- The server has made a step. -/
def serverDone (p : ServerProcess × List ProcessEvent) : DeploymentState ι × List (DeploymentEvent ι) :=
  ({ S with server := p.1, net := S.net ++ p.2.filterMap ProcessEvent.packet? }, p.2.map .server)

/-- A client has made a step. -/
def clientDone (k : ι) (p : ClientState × List ClientEvent) : DeploymentState ι × List (DeploymentEvent ι) :=
  ({ S with
      clients := Function.update S.clients k p.1
      net := S.net ++ p.2.filterMap ClientEvent.packet? },
    p.2.map (.client k))

/-- A datagram in the network is received at a socket with this address. -/
def Delivers (p : Packet) (r : Received) (dst : SockAddr) : Prop :=
  p ∈ S.net ∧ r.From p ∧ p.dst = dst

instance (p : Packet) (r : Received) (dst : SockAddr) : Decidable (S.Delivers p r dst) :=
  inferInstanceAs (Decidable (_ ∧ _))

/-- One statement, one delivery, or one timeout. -/
def step : DeploymentAction ι → Option (DeploymentState ι × List (DeploymentEvent ι))
  | .server a => if a.isLocal then (S.server.step d.udpSocket a).map S.serverDone else none
  | .toServer p r =>
    if S.Delivers p r d.udpSocket then
      (S.server.step d.udpSocket (.datagram r.msg ⟨p.src, p.bytes⟩)).map S.serverDone
    else none
  | .toMain k p r ops =>
    if S.Delivers p r (d.main k) then ((S.clients k).step (d.clients k) (.main r ops)).map (S.clientDone k)
    else none
  | .toLoop k p r ops =>
    if S.Delivers p r (d.clients k).udpSocket then
      ((S.clients k).step (d.clients k) (.loop r ops)).map (S.clientDone k)
    else none
  | .clientTimeout k => ((S.clients k).step (d.clients k) .timeout).map (S.clientDone k)

end DeploymentState

/-- The server and the clients from their construction on. -/
def deploymentMachine {ι : Type*} [DecidableEq ι] (d : Deployment ι) :
    EventMachine (DeploymentState ι) (DeploymentAction ι) (DeploymentEvent ι) where
  initial S := (serverProcess d.udpSocket).initial S.server ∧
    (∀ k, (clientMachine (d.clients k)).initial (S.clients k)) ∧ S.net = []
  step S a := S.step d a

section Steps

variable {ι : Type*} [DecidableEq ι] {d : Deployment ι} {S S' : DeploymentState ι}
  {e : List (DeploymentEvent ι)} {a : DeploymentAction ι}

/-- What one step can be. -/
inductive DeploymentStep (d : Deployment ι) (S : DeploymentState ι) :
    DeploymentState ι → List (DeploymentEvent ι) → Prop
  | server {act : ProcessAction} {server : ServerProcess} {e : List ProcessEvent}
      (h : S.server.step d.udpSocket act = some (server, e))
      (hdatagram : ∀ buffer dgram, act = .datagram buffer dgram → ∃ p ∈ S.net, ∃ r : Received, r.From p ∧
        p.dst = d.udpSocket ∧ buffer = r.msg ∧ dgram = ⟨p.src, p.bytes⟩) :
      DeploymentStep d S { S with server := server, net := S.net ++ e.filterMap ProcessEvent.packet? }
        (e.map .server)
  | client {k : ι} {act : ClientAction} {client : ClientState} {e : List ClientEvent}
      (h : (S.clients k).step (d.clients k) act = some (client, e))
      (hreceived : ∀ r, act.message? = some r → ∃ p ∈ S.net, r.From p ∧
        ((∃ ops, act = .main r ops ∧ p.dst = d.main k) ∨
          ∃ ops, act = .loop r ops ∧ p.dst = (d.clients k).udpSocket)) :
      DeploymentStep d S
        { S with
          clients := Function.update S.clients k client
          net := S.net ++ e.filterMap ClientEvent.packet? }
        (e.map (.client k))

/-- Every step is one of these. -/
theorem DeploymentState.step_cases (h : S.step d a = some (S', e)) : DeploymentStep d S S' e := by
  cases a with
  | server act =>
    simp only [step] at h
    split_ifs at h with hlocal
    obtain ⟨q, hstep, heq⟩ := Option.map_eq_some_iff.mp h
    cases heq
    refine .server hstep fun buffer dgram hact => ?_
    rw [hact] at hlocal
    contradiction
  | toServer p r =>
    simp only [step] at h
    split_ifs at h with hdeliver
    obtain ⟨q, hstep, heq⟩ := Option.map_eq_some_iff.mp h
    cases heq
    refine .server hstep fun buffer dgram hact => ?_
    cases hact
    exact ⟨p, hdeliver.1, r, hdeliver.2.1, hdeliver.2.2, rfl, rfl⟩
  | toMain k p r ops =>
    simp only [step] at h
    split_ifs at h with hdeliver
    obtain ⟨q, hstep, heq⟩ := Option.map_eq_some_iff.mp h
    cases heq
    refine .client hstep fun r' hr => ?_
    cases hr
    exact ⟨p, hdeliver.1, hdeliver.2.1, Or.inl ⟨ops, rfl, hdeliver.2.2⟩⟩
  | toLoop k p r ops =>
    simp only [step] at h
    split_ifs at h with hdeliver
    obtain ⟨q, hstep, heq⟩ := Option.map_eq_some_iff.mp h
    cases heq
    refine .client hstep fun r' hr => ?_
    cases hr
    exact ⟨p, hdeliver.1, hdeliver.2.1, Or.inr ⟨ops, rfl, hdeliver.2.2⟩⟩
  | clientTimeout k =>
    simp only [step] at h
    obtain ⟨q, hstep, heq⟩ := Option.map_eq_some_iff.mp h
    cases heq
    refine .client hstep fun r hr => ?_
    contradiction

/-- The network holds what the events put into it. -/
theorem net_of_trace {es : List (DeploymentEvent ι)} (h : (deploymentMachine d).Trace es S) :
    S.net = es.filterMap DeploymentEvent.packet? := by
  refine h.invariant (I := fun es S => S.net = es.filterMap DeploymentEvent.packet?) ?_ ?_
  · intro S hinit
    exact hinit.2.2
  · intro es S a S' e _ ih hstep
    cases DeploymentState.step_cases hstep with
    | @server act server e' _ _ =>
      rw [List.filterMap_append, List.filterMap_map, ← ih]
      rfl
    | @client k act client e' _ _ =>
      rw [List.filterMap_append, List.filterMap_map, ← ih]
      rfl

/-- The server is a component. -/
def processProjection (d : Deployment ι) : Projection (deploymentMachine d) (serverProcess d.udpSocket) where
  state := DeploymentState.server
  event := DeploymentEvent.server?
  initial _ h := h.1
  step h := by
    cases DeploymentState.step_cases h with
    | @server act server e hstep =>
      have hevents : (e.map (.server : _ → DeploymentEvent ι)).filterMap DeploymentEvent.server? = e := by
        rw [List.filterMap_map]
        exact List.filterMap_some
      exact Or.inr ⟨act, by rw [hevents]; exact hstep⟩
    | @client k act client e hstep =>
      refine Or.inl ⟨rfl, ?_⟩
      rw [List.filterMap_map, List.filterMap_eq_nil_iff]
      intro x _
      rfl

end Steps

/-! ## Who sent a datagram -/

section Origins

variable {ι : Type*} [DecidableEq ι] {d : Deployment ι} {S S' : DeploymentState ι}
  {es : List (DeploymentEvent ι)} {p : Packet}

/-- A datagram of the transaction of call `j`. -/
structure FromServer (d : Deployment ι) (es : List (DeploymentEvent ι)) (S : DeploymentState ι) (j : ℕ)
    (c : Call) (p : Packet) : Prop where
  entered : S.server.calls j = .entered c
  event : ∃ x, .server (.call j x) ∈ es ∧ x.packet? = some p
  src : p.src = d.udpSocket
  dst : p.dst.sinAddr = c.tran.addr.sinAddr

/-- A datagram of client `l`. -/
structure FromClient (d : Deployment ι) (es : List (DeploymentEvent ι)) (l : ι) (p : Packet) : Prop where
  event : ∃ x, .client l x ∈ es ∧ x.packet? = some p
  src : p.src = (d.clients l).udpSocket
  dst : p.dst = d.udpSocket

/-- What is known of the clients: they send to the server only, and a client that waits for a datagram
knows where the server is. -/
structure ClientsInv (d : Deployment ι) (es : List (DeploymentEvent ι)) (S : DeploymentState ι) : Prop where
  sent : ∀ l x p, .client l x ∈ es → x.packet? = some p → FromClient d es l p
  known : ∀ l, (S.clients l).vars.joinable = true → (S.clients l).vars.serverAddress = d.udpSocket

omit [DecidableEq ι] in
/-- What was sent stays sent. -/
theorem FromClient.append {l : ι} (h : FromClient d es l p) (e : List (DeploymentEvent ι)) :
    FromClient d (es ++ e) l p :=
  ⟨h.event.imp fun _ hx => ⟨List.mem_append_left e hx.1, hx.2⟩, h.src, h.dst⟩

/-- A datagram was sent by a transaction of the server or by a client. -/
theorem origin_of_mem (h : (deploymentMachine d).Trace es S) (hclients : ClientsInv d es S) (hp : p ∈ S.net) :
    (∃ j c, FromServer d es S j c p) ∨ ∃ l, FromClient d es l p := by
  rw [net_of_trace h] at hp
  obtain ⟨x, hx, hpacket⟩ := List.mem_filterMap.mp hp
  cases x with
  | server y =>
    cases y with
    | call j y =>
      have hserver : (serverProcess d.udpSocket).Trace (es.filterMap DeploymentEvent.server?) S.server :=
        (processProjection d).trace h
      have hy : .call j y ∈ es.filterMap DeploymentEvent.server? := List.mem_filterMap.mpr ⟨_, hx, rfl⟩
      obtain ⟨c, hcall⟩ := ServerProcess.entered_of_event hserver hy
      exact Or.inl ⟨j, c, hcall, ⟨y, hx, hpacket⟩, ServerProcess.sent_source hserver hy hpacket,
        ServerProcess.sent_address hserver hcall hy hpacket⟩
    | registered | exited | sendThrew | senderThrew | noTransaction | received | dispatched | receiveThrew =>
      contradiction
  | client l y => exact Or.inr ⟨l, hclients.sent l y p hx hpacket⟩

/-- What a client hears comes from the server. -/
theorem src_of_heard (h : (deploymentMachine d).Trace es S) (hclients : ClientsInv d es S) (hp : p ∈ S.net)
    {k : ι} (hdst : p.dst = d.main k ∨ p.dst = (d.clients k).udpSocket) : p.src = d.udpSocket := by
  rcases origin_of_mem h hclients hp with ⟨j, c, hfrom⟩ | ⟨l, hfrom⟩
  · exact hfrom.src
  · rcases hdst with hdst | hdst
    · exact absurd (hdst.symm.trans hfrom.dst) (d.main_ne k)
    · exact absurd (hdst.symm.trans hfrom.dst) (d.loop_ne k)

/-- Every step keeps what is known of the clients. -/
theorem DeploymentState.step_clientsInv {a : DeploymentAction ι} {e : List (DeploymentEvent ι)}
    (h : (deploymentMachine d).Trace es S) (hinv : ClientsInv d es S) (hstep : S.step d a = some (S', e)) :
    ClientsInv d (es ++ e) S' := by
  have hold : ∀ l x p, .client l x ∈ es → x.packet? = some p → FromClient d (es ++ e) l p :=
    fun l x p hx hp => (hinv.sent l x p hx hp).append e
  cases DeploymentState.step_cases hstep with
  | @server act server e _ _ =>
    refine ⟨fun l x p hx hp => ?_, hinv.known⟩
    rcases List.mem_append.mp hx with hx | hx
    · exact hold l x p hx hp
    · obtain ⟨y, -, heq⟩ := List.mem_map.mp hx
      contradiction
  | @client k act client e hmove hreceived =>
    have haddressed := ClientState.step_addressed hmove
    -- a client that answers answers the server
    have hserver : ∀ {w : ClientVars} {e : List ClientEvent}, ClientTransaction.Addressed (d.clients k)
        ((act.message?.map Received.addr).getD (S.clients k).vars.serverAddress) w e →
        (act.message? = none → (S.clients k).vars.joinable = true) →
          ClientTransaction.Addressed (d.clients k) d.udpSocket w e := by
      intro w e haddr hjoin
      cases hact : act.message? with
      | none =>
        rw [hact, Option.map_none, Option.getD_none, hinv.known k (hjoin hact)] at haddr
        exact haddr
      | some r =>
        obtain ⟨p, hp, hfrom, hdst⟩ := hreceived r hact
        have hsrc := src_of_heard h hinv hp (k := k)
          (hdst.imp (fun hmain => hmain.choose_spec.2) (fun hloop => hloop.choose_spec.2))
        rw [hact, Option.map_some, Option.getD_some, hfrom.2, hsrc] at haddr
        exact haddr
    constructor
    · intro l x p hx hp
      rcases List.mem_append.mp hx with hx' | hx'
      · exact hold l x p hx' hp
      · obtain ⟨y, hy, heq⟩ := List.mem_map.mp hx'
        cases heq
        rcases haddressed with ⟨-, hquiet⟩ | ⟨haddr, hjoin⟩
        · rw [hquiet x hy] at hp
          contradiction
        · obtain ⟨hsrc, hdst⟩ := (hserver haddr hjoin).sent x hy p hp
          exact ⟨⟨x, hx, hp⟩, hsrc, hdst⟩
    · intro l hjoin
      by_cases hl : l = k
      · subst hl
        simp only [Function.update_self] at hjoin ⊢
        rcases haddressed with ⟨hsame, -⟩ | ⟨haddr, hjoinable⟩
        · rw [hsame] at hjoin ⊢
          exact hinv.known l hjoin
        · exact (hserver haddr hjoinable).known
      · simp only [Function.update_of_ne hl] at hjoin ⊢
        exact hinv.known l hjoin

/-- It holds in every reachable state. -/
theorem clientsInv_of_trace (h : (deploymentMachine d).Trace es S) : ClientsInv d es S := by
  refine h.invariant ?_ fun htrace hinv hstep => DeploymentState.step_clientsInv htrace hinv hstep
  intro S hinit
  refine ⟨fun l x p hx => by contradiction, fun l hjoin => ?_⟩
  obtain ⟨tempFile, hclient⟩ := hinit.2.1 l
  rw [hclient] at hjoin
  contradiction

end Origins

/-! ## One transfer among many -/

section Transfers

variable {ι : Type*} [DecidableEq ι] {d : Deployment ι} {S S' : DeploymentState ι}
  {es e : List (DeploymentEvent ι)} {p : Packet} {i : ℕ} {k : ι} {c : Call}

/-- No call but call `i` is for the host of client `k`. -/
def DeploymentState.OnlyCall (d : Deployment ι) (S : DeploymentState ι) (k : ι) (i : ℕ) : Prop :=
  ∀ j b, S.server.calls j = .entered b → b.tran.addr.sinAddr = (d.main k).sinAddr → j = i

/-- Client `k` was told nothing yet. -/
structure Unheard (d : Deployment ι) (es : List (DeploymentEvent ι)) (S : DeploymentState ι) (k : ι) :
    Prop where
  initial : (clientMachine (d.clients k)).initial (S.clients k)
  events : ∀ x, .client k x ∉ es

/-- The transfer that a call makes to the client at its address. -/
def Deployment.transfer (d : Deployment ι) (k : ι) (t : ServerTransaction) (h : t.addr = d.main k) : Transfer where
  server := t
  client := d.clients k
  sameHost := by rw [h, d.sameHost]

/-- The part of the state that belongs to the transfer, with what its events put into the network. -/
def DeploymentState.transferState (S : DeploymentState ι) (es : List (DeploymentEvent ι)) (i : ℕ) (k : ι)
    (c : Call) : SystemState where
  server := c.state
  client := S.clients k
  net := (es.filterMap (DeploymentEvent.of i k)).filterMap SystemEvent.packet?

/-- The events of the server that belong to the transfer. -/
theorem filterMap_of_server (i : ℕ) (k : ι) (e : List ProcessEvent) :
    (e.map .server).filterMap (DeploymentEvent.of i k) = (e.filterMap (ProcessEvent.of i)).map .server := by
  rw [List.filterMap_map, List.map_filterMap]
  rfl

/-- The events of a client that belong to the transfer. -/
theorem filterMap_of_client (i : ℕ) (k l : ι) (e : List ClientEvent) :
    (e.map (.client l)).filterMap (DeploymentEvent.of i k) = if l = k then e.map .client else [] := by
  rw [List.filterMap_map]
  by_cases hl : l = k
  · rw [if_pos hl, ← List.filterMap_eq_map]
    congr 1
    funext x
    exact if_pos hl
  · rw [if_neg hl, List.filterMap_eq_nil_iff]
    intro x _
    exact if_neg hl

/-- A datagram of the call or of the client is among those of the transfer. -/
theorem mem_transfer_net {c : Call} {es : List (DeploymentEvent ι)}
    (h : (∃ c, FromServer d es S i c p) ∨ FromClient d es k p) : p ∈ (S.transferState es i k c).net := by
  rcases h with ⟨b, hfrom⟩ | hfrom
  · obtain ⟨x, hx, hpacket⟩ := hfrom.event
    refine List.mem_filterMap.mpr ⟨.server x, List.mem_filterMap.mpr ⟨_, hx, ?_⟩, hpacket⟩
    simp [DeploymentEvent.of, ProcessEvent.of]
  · obtain ⟨x, hx, hpacket⟩ := hfrom.event
    refine List.mem_filterMap.mpr ⟨.client x, List.mem_filterMap.mpr ⟨_, hx, if_pos rfl⟩, hpacket⟩

/-- A call stays entered, with its transaction. -/
theorem entered_of_step {a : DeploymentAction ι} (hstep : S.step d a = some (S', e)) {j : ℕ} {b : Call}
    (hcall : S.server.calls j = .entered b) : ∃ b', S'.server.calls j = .entered b' ∧ b'.tran = b.tran := by
  cases DeploymentState.step_cases hstep with
  | server hmove =>
    cases ServerProcess.step_callMove hcall hmove with
    | still b' hcall' htran => exact ⟨b', hcall', htran⟩
    | moved a s' es' _ hcall' => exact ⟨_, hcall', rfl⟩
  | client => exact ⟨b, hcall, rfl⟩

/-- What is known of call `i` and client `k`: the client is told nothing as long as nobody calls its host,
and a call that is the only one for it is a transfer of its own. -/
structure TransferInv (d : Deployment ι) (es : List (DeploymentEvent ι)) (S : DeploymentState ι) (i : ℕ)
    (k : ι) : Prop where
  unheard : (∀ j b, S.server.calls j = .entered b → b.tran.addr.sinAddr ≠ (d.main k).sinAddr) →
    Unheard d es S k
  run : ∀ c (_ : S.server.calls i = .entered c) (haddr : c.tran.addr = d.main k), S.OnlyCall d k i →
    (systemMachine (d.transfer k c.tran haddr)).Trace (es.filterMap (DeploymentEvent.of i k))
      (S.transferState es i k c)

/-- A datagram for client `k` was sent by a call for its host. -/
theorem fromServer_of_toClient (h : (deploymentMachine d).Trace es S) (hp : p ∈ S.net)
    (hdst : p.dst = d.main k ∨ p.dst = (d.clients k).udpSocket) :
    ∃ j b, FromServer d es S j b p ∧ b.tran.addr.sinAddr = (d.main k).sinAddr := by
  rcases origin_of_mem h (clientsInv_of_trace h) hp with ⟨j, b, hfrom⟩ | ⟨l, hfrom⟩
  · refine ⟨j, b, hfrom, ?_⟩
    rw [← hfrom.dst]
    rcases hdst with hdst | hdst
    · rw [hdst]
    · rw [hdst, d.sameHost]
  · rcases hdst with hdst | hdst
    · exact absurd (hdst.symm.trans hfrom.dst) (d.main_ne k)
    · exact absurd (hdst.symm.trans hfrom.dst) (d.loop_ne k)

/-- A datagram that comes from the host of client `k` to the server belongs to the only call for that
host, or to the client. -/
theorem mem_transfer_net_of_toServer (h : (deploymentMachine d).Trace es S) (honly : S.OnlyCall d k i)
    (hp : p ∈ S.net) (hdst : p.dst = d.udpSocket) (hsrc : p.src.sinAddr = (d.main k).sinAddr) :
    p ∈ (S.transferState es i k c).net := by
  apply mem_transfer_net (d := d)
  rcases origin_of_mem h (clientsInv_of_trace h) hp with ⟨j, b, hfrom⟩ | ⟨l, hfrom⟩
  · -- the server sent it to itself, from the host of the client
    have hhost : b.tran.addr.sinAddr = (d.main k).sinAddr := by
      rw [← hfrom.dst, hdst, ← hfrom.src, hsrc]
    cases honly j b hfrom.entered hhost
    exact Or.inl ⟨b, hfrom⟩
  · have hl : l = k := d.ownHost l k (by rw [d.sameHost, ← hfrom.src, hsrc])
    exact Or.inr (hl ▸ hfrom)

/-- A step that is none of the transfer leaves its part of the state. -/
theorem transferState_of_quiet (hclient : S'.clients k = S.clients k)
    (hevents : e.filterMap (DeploymentEvent.of i k) = []) {b : Call} (hstate : b.state = c.state) :
    S'.transferState (es ++ e) i k b = S.transferState es i k c := by
  simp only [DeploymentState.transferState, List.filterMap_append, hevents, List.append_nil, hclient, hstate]

/-- A transfer that has not begun has told nothing. -/
theorem filterMap_of_eq_nil (h : (deploymentMachine d).Trace es S) (hidle : (S.server.calls i).call? = none)
    (hclient : ∀ x, (.client k x : DeploymentEvent ι) ∉ es) : es.filterMap (DeploymentEvent.of i k) = [] := by
  have hserver : (serverProcess d.udpSocket).Trace (es.filterMap DeploymentEvent.server?) S.server :=
    (processProjection d).trace h
  rw [List.filterMap_eq_nil_iff]
  intro x hx
  cases x with
  | server y =>
    cases y with
    | call j y =>
      have hj : j ≠ i := by
        rintro rfl
        obtain ⟨b, hb⟩ := ServerProcess.entered_of_event hserver (List.mem_filterMap.mpr ⟨_, hx, rfl⟩)
        rw [hb] at hidle
        contradiction
      simp [DeploymentEvent.of, ProcessEvent.of, hj]
    | registered | exited | sendThrew | senderThrew | noTransaction | received | dispatched | receiveThrew => rfl
  | client l y =>
    refine if_neg fun hl => ?_
    rw [hl] at hx
    exact hclient y hx

/-- The state of the transfer behind a step of the server. -/
theorem transferState_server {e : List ProcessEvent} {server : ServerProcess} {net : List Packet}
    {s' : ServerState} {es' : List ServerEvent} (hshown : e.filterMap (ProcessEvent.of i) = es') :
    (⟨server, S.clients, net⟩ : DeploymentState ι).transferState (es ++ e.map .server) i k { c with state := s' } =
      ((S.transferState es i k c).serverDone (s', es')).1 := by
  simp only [DeploymentState.transferState, SystemState.serverDone, List.filterMap_append,
    filterMap_of_server, hshown, SystemEvent.filterMap_server]

/-- The state of the transfer behind a step of its client. -/
theorem transferState_client {e : List ClientEvent} {client : ClientState} {net : List Packet} :
    (⟨S.server, Function.update S.clients k client, net⟩ : DeploymentState ι).transferState
        (es ++ e.map (.client k)) i k c = ((S.transferState es i k c).clientDone (client, e)).1 := by
  simp only [DeploymentState.transferState, SystemState.clientDone, List.filterMap_append,
    filterMap_of_client, if_pos, SystemEvent.filterMap_client, Function.update_self]

/-- What a step of the process is for the call is a step of its transfer. -/
theorem transfer_server_step (h : (deploymentMachine d).Trace es S) (hcall : S.server.calls i = .entered c)
    (haddr : c.tran.addr = d.main k) (honly : S.OnlyCall d k i) {a : ServerAction} {s' : ServerState}
    {es' : List ServerEvent} (hmove : c.state.step c.tran a = some (s', es'))
    (hdeliver : ∀ r, a = .deliver r → S.server.dispatch r.addr.sinAddr = some i ∧
      ∃ p ∈ S.net, r.From p ∧ p.dst = d.udpSocket) :
    ∃ b, (systemMachine (d.transfer k c.tran haddr)).step (S.transferState es i k c) b =
      some ((S.transferState es i k c).serverDone (s', es')) := by
  have hserver : (serverProcess d.udpSocket).Trace (es.filterMap DeploymentEvent.server?) S.server :=
    (processProjection d).trace h
  have hmapped : ((S.transferState es i k c).server.step c.tran a).map (S.transferState es i k c).serverDone =
      some ((S.transferState es i k c).serverDone (s', es')) := by
    rw [DeploymentState.transferState, hmove]
    rfl
  by_cases hlocal : a.isLocal = true
  · refine ⟨.server a, ?_⟩
    rw [← hmapped]
    exact if_pos hlocal
  · obtain ⟨r, rfl⟩ : ∃ r, a = .deliver r := by
      cases a with
      | deliver r => exact ⟨r, rfl⟩
      | driver | timeout | sender | receiver | abort | abortSend => exact absurd rfl hlocal
    obtain ⟨hdispatch, p, hp, hfrom, hdst⟩ := hdeliver r rfl
    have hhost : p.src.sinAddr = c.tran.addr.sinAddr := by
      rw [← hfrom.2]
      exact (ServerProcess.registryInv_of_trace hserver).dispatch_address hcall hdispatch
    have hmem : p ∈ (S.transferState es i k c).net :=
      mem_transfer_net_of_toServer h honly hp hdst (by rw [hhost, haddr])
    refine ⟨.toServer p r, ?_⟩
    rw [← hmapped]
    exact if_pos ⟨⟨hmem, hfrom, hdst.trans (ServerProcess.tran_udpSocket hserver hcall).symm⟩, hhost⟩

/-- A step of the server keeps what is known of the transfer. -/
theorem TransferInv.server_step (hinv : TransferInv d es S i k) (h : (deploymentMachine d).Trace es S)
    {act : ProcessAction} {server : ServerProcess} {e : List ProcessEvent}
    (hstep : S.server.step d.udpSocket act = some (server, e))
    (hdatagram : ∀ buffer dgram, act = .datagram buffer dgram → ∃ p ∈ S.net, ∃ r : Received, r.From p ∧
      p.dst = d.udpSocket ∧ buffer = r.msg ∧ dgram = ⟨p.src, p.bytes⟩)
    (hbefore : ∀ j b, S.server.calls j = .entered b →
      ∃ b', server.calls j = .entered b' ∧ b'.tran = b.tran) :
    TransferInv d (es ++ e.map .server)
      { S with server := server, net := S.net ++ e.filterMap ProcessEvent.packet? } i k := by
  have hnoclient : ∀ x, (.client k x : DeploymentEvent ι) ∉ e.map .server := by
    intro x hx
    obtain ⟨y, -, heq⟩ := List.mem_map.mp hx
    contradiction
  constructor
  · intro hnone
    have hold := hinv.unheard fun j b hb hhost => by
      obtain ⟨b', hb', htran⟩ := hbefore j b hb
      exact hnone j b' hb' (by rw [htran, hhost])
    refine ⟨hold.initial, fun x hx => ?_⟩
    exact (List.mem_append.mp hx).elim (hold.events x) (hnoclient x)
  · intro c hcall haddr honly
    have honly' : S.OnlyCall d k i := by
      intro j b hb hhost
      obtain ⟨b', hb', htran⟩ := hbefore j b hb
      exact honly j b' hb' (by rw [htran, hhost])
    have hevents := filterMap_of_server i k e
    cases hentered : (S.server.calls i).call? with
    | none =>
      -- nobody called the host before, so the transfer starts here
      obtain ⟨hstate, -, -, hnew⟩ := ServerProcess.step_entering hentered hstep hcall
      have hold := hinv.unheard fun j b hb hhost => by
        cases honly' j b hb hhost
        rw [hb] at hentered
        contradiction
      have hall : (es ++ e.map DeploymentEvent.server).filterMap (DeploymentEvent.of i k) = [] := by
        rw [List.filterMap_append, filterMap_of_eq_nil h hentered hold.events, hevents, hnew]
        rfl
      rw [hall]
      refine EventMachine.Trace.initial ⟨hstate, hold.initial, ?_⟩
      rw [DeploymentState.transferState, hall]
      rfl
    | some b =>
      rw [CallStatus.call?_eq_some] at hentered
      cases ServerProcess.step_callMove hentered hstep with
      | still b' hcall' htran hstate hquiet =>
        cases hcall.symm.trans hcall'
        have hold := hinv.run b hentered (htran ▸ haddr) honly'
        rw [hquiet] at hevents
        rw [transferState_of_quiet rfl hevents hstate, List.filterMap_append, hevents, List.map_nil,
          List.append_nil]
        simp only [htran]
        exact hold
      | moved a s' es' hmove hcall' hshown hdeliver =>
        cases hcall.symm.trans hcall'
        have hold := hinv.run b hentered haddr honly'
        obtain ⟨act', hact'⟩ := transfer_server_step h hentered haddr honly' hmove fun r hr => by
          obtain ⟨buffer, dgram, hact, hreceive, hdispatch⟩ := hdeliver r hr
          obtain ⟨p, hp, r', hfrom, hdst, rfl, rfl⟩ := hdatagram _ _ hact
          have hsame := udpReceive_take r'
          rw [hfrom.1, hfrom.2, hreceive] at hsame
          cases hsame
          exact ⟨hdispatch, p, hp, hfrom, hdst⟩
        rw [transferState_server hshown, List.filterMap_append, hevents, hshown]
        exact hold.step hact'

/-- A step of the client is a step of its transfer. -/
theorem transfer_client_step (h : (deploymentMachine d).Trace es S) (haddr : c.tran.addr = d.main k)
    (honly : S.OnlyCall d k i) {act : ClientAction} {q : ClientState × List ClientEvent}
    (hstep : (S.clients k).step (d.clients k) act = some q)
    (hreceived : ∀ r, act.message? = some r → ∃ p ∈ S.net, r.From p ∧
      ((∃ ops, act = .main r ops ∧ p.dst = d.main k) ∨
        ∃ ops, act = .loop r ops ∧ p.dst = (d.clients k).udpSocket)) :
    ∃ b, (systemMachine (d.transfer k c.tran haddr)).step (S.transferState es i k c) b =
      some ((S.transferState es i k c).clientDone q) := by
  have hmem : ∀ {p : Packet}, p ∈ S.net → p.dst = d.main k ∨ p.dst = (d.clients k).udpSocket →
      p ∈ (S.transferState es i k c).net := by
    intro p hp hdst
    obtain ⟨j, b, hfrom, hhost⟩ := fromServer_of_toClient h hp hdst
    cases honly j b hfrom.entered hhost
    exact mem_transfer_net (Or.inl ⟨b, hfrom⟩)
  have hmapped : ((S.transferState es i k c).client.step (d.clients k) act).map
      (S.transferState es i k c).clientDone = some ((S.transferState es i k c).clientDone q) := by
    rw [DeploymentState.transferState, hstep]
    rfl
  rw [← hmapped]
  cases act with
  | main r ops =>
    obtain ⟨p, hp, hfrom, hdst⟩ := hreceived r rfl
    have hmain : p.dst = d.main k := by
      rcases hdst with ⟨ops', -, hdst⟩ | ⟨ops', hloop, -⟩
      · exact hdst
      · contradiction
    exact ⟨.toMain p r ops, if_pos ⟨hmem hp (Or.inl hmain), hfrom, hmain.trans haddr.symm⟩⟩
  | loop r ops =>
    obtain ⟨p, hp, hfrom, hdst⟩ := hreceived r rfl
    have hloop : p.dst = (d.clients k).udpSocket := by
      rcases hdst with ⟨ops', hmain, -⟩ | ⟨ops', -, hdst⟩
      · contradiction
      · exact hdst
    exact ⟨.toLoop p r ops, if_pos ⟨hmem hp (Or.inr hloop), hfrom, hloop⟩⟩
  | timeout => exact ⟨.clientTimeout, rfl⟩

/-- Until the host of a client is called, the client makes no step. -/
theorem Unheard.blocked (hold : Unheard d es S k) (h : (deploymentMachine d).Trace es S)
    (hnone : ∀ j b, S.server.calls j = .entered b → b.tran.addr.sinAddr ≠ (d.main k).sinAddr)
    {act : ClientAction}
    (hreceived : ∀ r, act.message? = some r → ∃ p ∈ S.net, r.From p ∧
      ((∃ ops, act = .main r ops ∧ p.dst = d.main k) ∨
        ∃ ops, act = .loop r ops ∧ p.dst = (d.clients k).udpSocket)) :
    (S.clients k).step (d.clients k) act = none := by
  have hsilent (r : Received) : act.message? ≠ some r := by
    intro hact
    obtain ⟨p, hp, -, hdst⟩ := hreceived r hact
    obtain ⟨j, b, hfrom, hhost⟩ := fromServer_of_toClient h hp
      (hdst.imp (fun hmain => hmain.choose_spec.2) fun hloop => hloop.choose_spec.2)
    exact hnone j b hfrom.entered hhost
  cases act with
  | main r | loop r => exact absurd rfl (hsilent r)
  | timeout =>
    obtain ⟨tempFile, hinitial⟩ := hold.initial
    rw [hinitial]
    rfl

/-- A step of another client leaves the transfer alone. -/
theorem TransferInv.other_client_step (hinv : TransferInv d es S i k) {l : ι} (hl : l ≠ k) {client : ClientState}
    {e : List ClientEvent} :
    TransferInv d (es ++ e.map (.client l))
      { S with
        clients := Function.update S.clients l client
        net := S.net ++ e.filterMap ClientEvent.packet? } i k := by
  have hother : (Function.update S.clients l client) k = S.clients k := Function.update_of_ne (Ne.symm hl) _ _
  have hquiet : (e.map (.client l)).filterMap (DeploymentEvent.of i k) = [] := by
    rw [filterMap_of_client, if_neg hl]
  constructor
  · intro hnone
    have hold := hinv.unheard hnone
    refine ⟨by simpa only [hother] using hold.initial, fun x hx => ?_⟩
    rcases List.mem_append.mp hx with hx | hx
    · exact hold.events x hx
    · obtain ⟨y, -, heq⟩ := List.mem_map.mp hx
      cases heq
      exact hl rfl
  · intro c hcall haddr honly
    rw [transferState_of_quiet hother hquiet rfl, List.filterMap_append, hquiet, List.append_nil]
    exact hinv.run c hcall haddr honly

/-- A step of a client keeps what is known of the transfer. -/
theorem TransferInv.client_step (hinv : TransferInv d es S i k) (h : (deploymentMachine d).Trace es S) {l : ι}
    {act : ClientAction} {client : ClientState} {e : List ClientEvent}
    (hstep : (S.clients l).step (d.clients l) act = some (client, e))
    (hreceived : ∀ r, act.message? = some r → ∃ p ∈ S.net, r.From p ∧
      ((∃ ops, act = .main r ops ∧ p.dst = d.main l) ∨
        ∃ ops, act = .loop r ops ∧ p.dst = (d.clients l).udpSocket)) :
    TransferInv d (es ++ e.map (.client l))
      { S with
        clients := Function.update S.clients l client
        net := S.net ++ e.filterMap ClientEvent.packet? } i k := by
  by_cases hl : l = k
  · subst hl
    constructor
    · intro hnone
      rw [(hinv.unheard hnone).blocked h hnone hreceived] at hstep
      contradiction
    · intro c hcall haddr honly
      obtain ⟨b, hb⟩ := transfer_client_step h haddr honly hstep hreceived
      rw [transferState_client, List.filterMap_append, filterMap_of_client, if_pos rfl]
      exact (hinv.run c hcall haddr honly).step hb
  · exact hinv.other_client_step hl

/-- It holds in every reachable state. -/
theorem transferInv_of_trace (h : (deploymentMachine d).Trace es S) (i : ℕ) (k : ι) : TransferInv d es S i k := by
  refine h.invariant (I := fun es S => TransferInv d es S i k) ?_ ?_
  · rintro S ⟨hserver, hclients, -⟩
    have hidle : S.server.calls i = .unused := by rw [hserver]
    refine ⟨fun _ => ⟨hclients k, fun x hx => by contradiction⟩, fun c hcall => ?_⟩
    rw [hidle] at hcall
    contradiction
  · intro es S a S' e htrace hinv hstep
    have hentered := fun {j : ℕ} {b : Call} => entered_of_step (j := j) (b := b) hstep
    cases DeploymentState.step_cases hstep with
    | server hmove hdatagram => exact hinv.server_step htrace hmove hdatagram fun j b hb => hentered hb
    | client hmove hreceived => exact hinv.client_step htrace hmove hreceived

/-- A call that is the only one for the host of its client, and the client, are a transfer of their own. -/
theorem transfer_of_trace (h : (deploymentMachine d).Trace es S) (hcall : S.server.calls i = .entered c)
    (haddr : c.tran.addr = d.main k) (honly : S.OnlyCall d k i) :
    (systemMachine (d.transfer k c.tran haddr)).Trace (es.filterMap (DeploymentEvent.of i k))
      (S.transferState es i k c) :=
  (transferInv_of_trace h i k).run c hcall haddr honly

/-- An event of the transfer is an event of the deployment. -/
theorem mem_of_transfer_server {x : ServerEvent} (h : .server x ∈ es.filterMap (DeploymentEvent.of i k)) :
    .server (.call i x) ∈ es := by
  obtain ⟨y, hy, heq⟩ := List.mem_filterMap.mp h
  cases y with
  | server y =>
    cases y with
    | call j y =>
      by_cases hj : j = i
      · simp only [DeploymentEvent.of, ProcessEvent.of, hj, if_pos, Option.map_some, Option.some.injEq,
          SystemEvent.server.injEq] at heq
        rw [← heq, ← hj]
        exact hy
      · simp [DeploymentEvent.of, ProcessEvent.of, hj] at heq
    | registered | exited | sendThrew | senderThrew | noTransaction | received | dispatched | receiveThrew =>
      simp [DeploymentEvent.of, ProcessEvent.of] at heq
  | client l y =>
    simp only [DeploymentEvent.of] at heq
    split_ifs at heq
    cases heq

@[inherit_doc mem_of_transfer_server]
theorem mem_of_transfer_client {x : ClientEvent} (h : .client x ∈ es.filterMap (DeploymentEvent.of i k)) :
    .client k x ∈ es := by
  obtain ⟨y, hy, heq⟩ := List.mem_filterMap.mp h
  cases y with
  | server y =>
    obtain ⟨z, -, hz⟩ := Option.map_eq_some_iff.mp heq
    cases hz
  | client l y =>
    simp only [DeploymentEvent.of] at heq
    split_ifs at heq with hl
    cases heq
    exact hl ▸ hy

/-- Transfers that run at the same time do not mix.

The calls are any, made, aborted and abandoned in any order; only the host of client `k` is called once. Each
client runs `Begin` and `OnReceive` to their end before it takes the next datagram at either of its sockets.
While client `k` writes, its file holds the first packets of the file that this call serves, and in DONE
the whole of it. If the call returned FIN, this client verified that file. If the client called `OnFileReceived`,
this call had accepted its DONE and had sent FIN, and the version is that of this call. -/
theorem concurrent_transfer_safe (h : (deploymentMachine d).Trace es S) (hcall : S.server.calls i = .entered c)
    (haddr : c.tran.addr = d.main k) (honly : S.OnlyCall d k i) :
    ((S.clients k).vars.status = .rdy ∨ (S.clients k).vars.status = .data →
      (S.clients k).vars.newFileStream.written = firstChunks sizeofPayload c.tran.served
        (S.clients k).vars.packetSequenceNumber.toNat) ∧
    ((S.clients k).vars.status = .done → (S.clients k).vars.tempFile = some c.tran.served) ∧
    (.server (.exited i (.ok .fin)) ∈ es → .client k (.verified c.tran.served) ∈ es) ∧
    (∀ pre file version post, es = pre ++ .client k (.fileReceived file version) :: post →
      (∃ r, .server (.call i (.accepted .done r)) ∈ pre) ∧ (∃ p, .server (.call i (.sent .fin p)) ∈ pre) ∧
        version = c.tran.newFileVersion) := by
  have htransfer := transfer_of_trace h hcall haddr honly
  obtain ⟨hwritten, hdone, hverified, hhanded⟩ := transfer_safe htransfer
  refine ⟨hwritten, hdone, fun hexit => ?_, ?_⟩
  · have hserver : (serverProcess d.udpSocket).Trace (es.filterMap DeploymentEvent.server?) S.server :=
      (processProjection d).trace h
    have hleft := ServerProcess.left_of_exited hserver (List.mem_filterMap.mpr ⟨_, hexit, rfl⟩) hcall
    rcases hleft with ⟨herror, -⟩ | ⟨id, hid, hreturned⟩
    · contradiction
    · cases hid
      exact mem_of_transfer_client (hverified hreturned)
  · intro pre file version post heq
    have hsplit : es.filterMap (DeploymentEvent.of i k) = pre.filterMap (DeploymentEvent.of i k) ++
        .client (.fileReceived file version) :: post.filterMap (DeploymentEvent.of i k) := by
      rw [heq, List.filterMap_append]
      congr 1
      exact List.filterMap_cons_some (if_pos rfl)
    obtain ⟨⟨r, hdone⟩, ⟨p, hfin⟩, hversion⟩ := hhanded _ _ _ _ hsplit
    exact ⟨⟨r, mem_of_transfer_server hdone⟩, ⟨p, mem_of_transfer_server hfin⟩, hversion⟩

end Transfers

/-! ## Two clients -/

/-- A server, the small client, and another one on a second host. -/
def twoClients : Deployment Bool where
  udpSocket := ⟨2, 2⟩
  clients k := if k then { smallClient with udpSocket := ⟨4, 3⟩ } else smallClient
  main k := if k then ⟨4, 1⟩ else ⟨1, 1⟩
  sameHost k := by cases k <;> rfl
  ownHost k l h := by revert h; cases k <;> cases l <;> decide
  main_ne k := by cases k <;> decide
  loop_ne k := by cases k <;> decide

/-- The arguments of the call that serves the file of two packets to the small client. -/
def twoPacketsArgs : StartArgs where
  clientUri := "0.0.0.1:1".toList
  filePath := "firmware".toList
  file := some twoPackets.file
  fileVersion := twoPackets.newFileVersion
  device := twoPackets.deviceId

/-- The arguments of a call for the other client, with another file. -/
def otherArgs : StartArgs := { twoPacketsArgs with clientUri := "0.0.0.4:1".toList, file := some [42] }

/-- An action of a transfer, made by call 0 for the first client. -/
def deployedAction : SystemAction → DeploymentAction Bool
  | .server .receiver => .server .receiver
  | .server a => .server (.call 0 a)
  | .toServer p r => .toServer p r
  | .toMain p r ops => .toMain false p r ops
  | .toLoop p r ops => .toLoop false p r ops
  | .clientTimeout => .clientTimeout false

/-- Both calls are made, the second one stores its request, and the first one transfers its file. -/
def deployedSchedule : List (DeploymentAction Bool) :=
  [.server (.start 0 twoPacketsArgs), .server (.start 1 otherArgs), .server (.call 1 .driver)] ++
    completeSchedule.map deployedAction

/-- The two clients and the server before any call. -/
def deployedStart : DeploymentState Bool where
  server := ⟨fun _ => none, fun _ => .unused, none, false⟩
  clients _ := ⟨ClientTransaction.initialVars none, false⟩
  net := []

/-- The call that a registration tells of. -/
def DeploymentEvent.registered? {ι : Type*} : DeploymentEvent ι → Option ℕ
  | .server (.registered i) => some i
  | _ => none

/-- The event is the return of FIN from call 0. -/
def DeploymentEvent.isFin {ι : Type*} : DeploymentEvent ι → Bool
  | .server (.exited 0 (.ok .fin)) => true
  | _ => false

/-- The event is the hand-over of a file by the first client. -/
def DeploymentEvent.isHandOver : DeploymentEvent Bool → Bool
  | .client false (.fileReceived _ _) => true
  | _ => false

/-- What the schedule shows: the return of FIN, the hand-over of a file, the calls that were registered,
and their addresses. -/
def deployedView (p : DeploymentState Bool × List (DeploymentEvent Bool)) :
    Bool × Bool × List ℕ × Option SockAddr × Option SockAddr :=
  (p.2.any DeploymentEvent.isFin, p.2.any DeploymentEvent.isHandOver, p.2.filterMap DeploymentEvent.registered?,
    (p.1.server.calls 0).call?.map fun c => c.tran.addr, (p.1.server.calls 1).call?.map fun c => c.tran.addr)

/-- The return that the view found is among the events. -/
theorem exited_of_any {ι : Type*} {es : List (DeploymentEvent ι)} (h : es.any DeploymentEvent.isFin = true) :
    .server (.exited 0 (.ok .fin)) ∈ es := by
  obtain ⟨x, hx, hisFin⟩ := List.any_eq_true.mp h
  unfold DeploymentEvent.isFin at hisFin
  split at hisFin
  · exact hx
  · contradiction

/-- The hand-over that the view found is among the events. -/
theorem handedOver_of_any {es : List (DeploymentEvent Bool)} (h : es.any DeploymentEvent.isHandOver = true) :
    ∃ file version, .client false (.fileReceived file version) ∈ es := by
  obtain ⟨x, hx, hisHandOver⟩ := List.any_eq_true.mp h
  unfold DeploymentEvent.isHandOver at hisHandOver
  split at hisHandOver
  · exact ⟨_, _, hx⟩
  · contradiction

/-- A call that was entered is among those that the view lists. -/
theorem mem_registered {ι : Type*} [DecidableEq ι] {d : Deployment ι} {S : DeploymentState ι}
    {es : List (DeploymentEvent ι)} (h : (deploymentMachine d).Trace es S) {j : ℕ} {b : Call}
    (hcall : S.server.calls j = .entered b) : j ∈ es.filterMap DeploymentEvent.registered? := by
  have hserver : (serverProcess d.udpSocket).Trace (es.filterMap DeploymentEvent.server?) S.server :=
    (processProjection d).trace h
  obtain ⟨x, hx, hevent⟩ := List.mem_filterMap.mp (ServerProcess.registered_of_entered hserver hcall)
  refine List.mem_filterMap.mpr ⟨x, hx, ?_⟩
  cases x with
  | server y =>
    cases hevent
    rfl
  | client l y => contradiction

/-- The second call of the view is for the other host. -/
theorem onlyCall_of_view {S : DeploymentState Bool} {es : List (DeploymentEvent Bool)}
    (h : (deploymentMachine twoClients).Trace es S)
    (hregistered : es.filterMap DeploymentEvent.registered? = [0, 1])
    (hsecond : ((S.server.calls 1).call?.map fun c => c.tran.addr) = some ⟨4, 1⟩) :
    S.OnlyCall twoClients false 0 := by
  intro j b hb hhost
  have hmem := mem_registered h hb
  rw [hregistered] at hmem
  rcases List.mem_cons.mp hmem with hj | hj
  · exact hj
  · rw [List.mem_singleton.mp hj] at hb
    rw [hb, CallStatus.call?, Option.map_some, Option.some.injEq] at hsecond
    rw [hsecond] at hhost
    contradiction

/-- Nothing has happened yet. -/
theorem deployedStart_initial : (deploymentMachine twoClients).initial deployedStart :=
  ⟨rfl, fun _ => ⟨none, rfl⟩, rfl⟩

/-- The run of the schedule. -/
theorem twoClients_run :
    ∃ S es c, (deploymentMachine twoClients).exec deployedStart deployedSchedule = some (S, es) ∧
      S.server.calls 0 = .entered c ∧ c.tran.addr = twoClients.main false ∧ S.OnlyCall twoClients false 0 ∧
      .server (.exited 0 (.ok .fin)) ∈ es ∧ ∃ file version, .client false (.fileReceived file version) ∈ es := by
  have hrun : ((deploymentMachine twoClients).exec deployedStart deployedSchedule).map deployedView =
      some (true, true, [0, 1], some ⟨1, 1⟩, some ⟨4, 1⟩) := by decide +kernel
  obtain ⟨⟨S, es⟩, hexec, hview⟩ := Option.map_eq_some_iff.mp hrun
  obtain ⟨hfin, hview⟩ := Prod.mk.inj hview
  obtain ⟨hhanded, hview⟩ := Prod.mk.inj hview
  obtain ⟨hregistered, hview⟩ := Prod.mk.inj hview
  obtain ⟨hfirst, hsecond⟩ := Prod.mk.inj hview
  have htrace : (deploymentMachine twoClients).Trace es S := EventMachine.exec_trace deployedStart_initial hexec
  obtain ⟨c, hcall, haddr⟩ := Option.map_eq_some_iff.mp hfirst
  rw [CallStatus.call?_eq_some] at hcall
  exact ⟨S, es, c, hexec, hcall, haddr, onlyCall_of_view htrace hregistered hsecond, exited_of_any hfin,
    handedOver_of_any hhanded⟩

/-- The first call returns FIN beside the second one, and its client has verified its file. -/
theorem concurrent_transfer_safe_twoClients :
    ∃ S es c, (deploymentMachine twoClients).exec deployedStart deployedSchedule = some (S, es) ∧
      S.server.calls 0 = .entered c ∧ .server (.exited 0 (.ok .fin)) ∈ es ∧
      .client false (.verified c.tran.served) ∈ es := by
  obtain ⟨S, es, c, hexec, hcall, haddr, honly, hexit, -⟩ := twoClients_run
  have htrace : (deploymentMachine twoClients).Trace es S := EventMachine.exec_trace deployedStart_initial hexec
  obtain ⟨-, -, hverified, -⟩ := concurrent_transfer_safe htrace hcall haddr honly
  exact ⟨S, es, c, hexec, hcall, hexit, hverified hexit⟩

end Trftp
