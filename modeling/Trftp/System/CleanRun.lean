import Trftp.System.Safety

/-!
# Runs in which nothing goes wrong

The datagrams in flight form a queue in each direction. Every datagram is delivered once and in
order, every operation succeeds, no wait times out and nobody aborts; a message of the client is
handed to the server when the wait for it has begun, and DONE when the sender loop has ended. The client
handles a datagram to its end. What is left open is the interleaving of the threads of the server with
each other and with the deliveries.

Such a run is a run of the transfer over the unreliable network, so what holds of every run holds
of it.
-/

namespace Trftp

open Lib (EventMachine)

/-- The transfer, with what is in flight in either direction. -/
structure CleanState where
  sys : SystemState
  toServer : List Packet
  toClient : List Packet

/-- What happens next. -/
inductive CleanAction where
  /-- the next statement of `StartFileTransfer` -/
  | driver
  /-- the next statement of the sender thread -/
  | sender
  /-- the next statement of the server's `OnReceive` -/
  | receiver
  /-- the first datagram in flight to the server is delivered -/
  | toServer (r : Received)
  /-- the first datagram in flight to the client is delivered -/
  | toClient (r : Received) (ops : FileOps)

/-- The datagram that a party sends to the client. -/
def SystemEvent.toClient? (x : SystemEvent) : Option Packet := x.server?.bind ServerEvent.packet?

/-- The datagram that a party sends to the server. -/
def SystemEvent.toServer? (x : SystemEvent) : Option Packet := x.client?.bind ClientEvent.packet?

/-- The wait for the next message of the client has begun, and the sender loop has ended if this is DONE. -/
def ServerState.awaits (s : ServerState) : Bool :=
  match s.driver with
  | .waiting phase oldStatus => oldStatus = phase.request ∧ (phase = .data → s.sender = .finished)
  | _ => false

instance (ops : FileOps) (size : ℕ) : Decidable (ops.Succeeds size) := inferInstanceAs (Decidable (_ ∧ _))

namespace CleanState

variable (tr : Transfer) (s : CleanState)

/-- The step of the system, and what it adds to the queues. -/
def follow (a : SystemAction) (toServer toClient : List Packet) : Option (CleanState × List SystemEvent) :=
  (s.sys.step tr a).map fun p =>
    (⟨p.1, toServer ++ p.2.filterMap SystemEvent.toServer?, toClient ++ p.2.filterMap SystemEvent.toClient?⟩, p.2)

/-- The socket of the client at which a datagram is read: the one of its transaction, if it is addressed
to it and the receive loop is there to read it, or the main socket. -/
def arrival (p : Packet) (r : Received) (ops : FileOps) : SystemAction :=
  if p.dst = tr.client.udpSocket ∧ s.sys.client.receiving = true then .toLoop p r ops else .toMain p r ops

/-- One statement, or one delivery. -/
def step : CleanAction → Option (CleanState × List SystemEvent)
  | .driver => s.follow tr (.server .driver) s.toServer s.toClient
  | .sender => s.follow tr (.server (.sender true)) s.toServer s.toClient
  | .receiver => s.follow tr (.server .receiver) s.toServer s.toClient
  | .toServer r =>
    match s.toServer with
    | [] => none
    | p :: rest => if s.sys.server.awaits then s.follow tr (.toServer p r) rest s.toClient else none
  | .toClient r ops =>
    match s.toClient with
    | [] => none
    | p :: rest =>
      if ops.Succeeds tr.server.file.length then s.follow tr (s.arrival tr p r ops) s.toServer rest else none

end CleanState

/-- The clean runs of a transfer. -/
def cleanMachine (tr : Transfer) : EventMachine CleanState CleanAction SystemEvent where
  initial s := (systemMachine tr).initial s.sys ∧ s.toServer = [] ∧ s.toClient = []
  step s a := s.step tr a

/-- Every clean run transfers the file. -/
structure Transfers (tr : Transfer) : Prop where
  /-- the client never answers with CXL or RTX -/
  quiet : ∀ es s, (cleanMachine tr).Trace es s → ∀ id p, .client (.sent id p) ∈ es → id ≠ .cxl ∧ id ≠ .rtx
  /-- the run comes to its end -/
  bounded : ∃ bound, ∀ s₀ as s es, (cleanMachine tr).initial s₀ → (cleanMachine tr).exec s₀ as = some (s, es) →
    as.length ≤ bound
  /-- at its end the client has entered DONE with the served file, the server has accepted DONE, and
  `StartFileTransfer` has returned FIN -/
  complete : ∀ es s, (cleanMachine tr).Trace es s → (∀ a, s.step tr a = none) →
    .client (.verified tr.server.file) ∈ es ∧ (∃ r, .server (.accepted .done r) ∈ es) ∧
      s.sys.server.driver = .returned .fin

/-- What is sent reaches the network, and stays there. -/
theorem SystemState.step_sent {tr : Transfer} {s s' : SystemState} {a : SystemAction} {e : List SystemEvent}
    (h : s.step tr a = some (s', e)) :
    (∀ p ∈ s.net, p ∈ s'.net) ∧
      ∀ x ∈ e, ∀ p, x.toServer? = some p ∨ x.toClient? = some p → p ∈ s'.net := by
  have hserver (e : List ServerEvent) : ∀ x ∈ e.map SystemEvent.server, ∀ p,
      x.toServer? = some p ∨ x.toClient? = some p → p ∈ s.net ++ e.filterMap ServerEvent.packet? := by
    intro x hx p hp
    obtain ⟨y, hy, rfl⟩ := List.mem_map.mp hx
    rcases hp with hp | hp
    · contradiction
    · exact List.mem_append_right _ (List.mem_filterMap.mpr ⟨y, hy, hp⟩)
  have hclient (e : List ClientEvent) : ∀ x ∈ e.map SystemEvent.client, ∀ p,
      x.toServer? = some p ∨ x.toClient? = some p → p ∈ s.net ++ e.filterMap ClientEvent.packet? := by
    intro x hx p hp
    obtain ⟨y, hy, rfl⟩ := List.mem_map.mp hx
    rcases hp with hp | hp
    · exact List.mem_append_right _ (List.mem_filterMap.mpr ⟨y, hy, hp⟩)
    · contradiction
  cases SystemState.step_cases h with
  | server | heard => exact ⟨fun p hp => List.mem_append_left _ hp, hserver _⟩
  | received | timeout => exact ⟨fun p hp => List.mem_append_left _ hp, hclient _⟩

namespace CleanState

variable {tr : Transfer} {s s' : CleanState} {a : CleanAction} {e es : List SystemEvent}

/-- What a step of the system makes of a clean state. -/
theorem follow_cases {b : SystemAction} {toServer toClient : List Packet}
    (h : s.follow tr b toServer toClient = some (s', e)) :
    s.sys.step tr b = some (s'.sys, e) ∧ s'.toServer = toServer ++ e.filterMap SystemEvent.toServer? ∧
      s'.toClient = toClient ++ e.filterMap SystemEvent.toClient? := by
  obtain ⟨⟨sys, e'⟩, hstep, heq⟩ := Option.map_eq_some_iff.mp h
  obtain ⟨rfl, rfl⟩ := Prod.mk.inj heq
  exact ⟨hstep, rfl, rfl⟩

/-- The server is given the head of its queue, when it waits for it. -/
theorem step_toServer {r : Received} (h : s.step tr (.toServer r) = some (s', e)) :
    ∃ p rest, s.toServer = p :: rest ∧ s.sys.server.awaits = true ∧
      s.follow tr (.toServer p r) rest s.toClient = some (s', e) := by
  simp only [step] at h
  split at h
  · contradiction
  · rename_i p rest hqueue
    split_ifs at h with hawaits
    exact ⟨p, rest, hqueue, hawaits, h⟩

/-- The client is given the head of its queue, with operations that succeed. -/
theorem step_toClient {r : Received} {ops : FileOps} (h : s.step tr (.toClient r ops) = some (s', e)) :
    ∃ p rest, s.toClient = p :: rest ∧ ops.Succeeds tr.server.file.length ∧
      s.follow tr (s.arrival tr p r ops) s.toServer rest = some (s', e) := by
  simp only [step] at h
  split at h
  · contradiction
  · rename_i p rest hqueue
    split_ifs at h with hops
    exact ⟨p, rest, hqueue, hops, h⟩

/-- Events of the server put their datagrams in flight to the client. -/
theorem filterMap_server (es : List ServerEvent) :
    (es.map SystemEvent.server).filterMap SystemEvent.toServer? = [] ∧
      (es.map SystemEvent.server).filterMap SystemEvent.toClient? = es.filterMap ServerEvent.packet? := by
  rw [List.filterMap_map, List.filterMap_map]
  exact ⟨List.filterMap_eq_nil_iff.mpr fun x _ => rfl, rfl⟩

/-- Events of the client put their datagrams in flight to the server. -/
theorem filterMap_client (es : List ClientEvent) :
    (es.map SystemEvent.client).filterMap SystemEvent.toServer? = es.filterMap ClientEvent.packet? ∧
      (es.map SystemEvent.client).filterMap SystemEvent.toClient? = [] := by
  rw [List.filterMap_map, List.filterMap_map]
  exact ⟨rfl, List.filterMap_eq_nil_iff.mpr fun x _ => rfl⟩

/-- A step of the server, and what it leaves in flight. -/
theorem follow_server {b : SystemAction} {a : ServerAction} {toServer toClient : List Packet}
    (hstep : ∀ p, s.sys.step tr b = some p →
      (s.sys.server.step tr.server a).map s.sys.serverDone = some p)
    (h : s.follow tr b toServer toClient = some (s', e)) :
    ∃ server es, s.sys.server.step tr.server a = some (server, es) ∧
      s' = ⟨⟨server, s.sys.client, s.sys.net ++ es.filterMap ServerEvent.packet?⟩, toServer,
        toClient ++ es.filterMap ServerEvent.packet?⟩ ∧ e = es.map .server := by
  obtain ⟨p, hp, heq⟩ := Option.map_eq_some_iff.mp h
  obtain ⟨⟨server, es⟩, hserver, rfl⟩ := Option.map_eq_some_iff.mp (hstep p hp)
  obtain ⟨rfl, rfl⟩ := Prod.mk.inj heq
  refine ⟨server, es, hserver, ?_, rfl⟩
  simp only [SystemState.serverDone, filterMap_server, List.append_nil]

/-- A statement of the server, and what it leaves in flight. -/
theorem follow_local {a : ServerAction} {toServer toClient : List Packet} (hlocal : a.isLocal = true)
    (h : s.follow tr (.server a) toServer toClient = some (s', e)) :
    ∃ server es, s.sys.server.step tr.server a = some (server, es) ∧
      s' = ⟨⟨server, s.sys.client, s.sys.net ++ es.filterMap ServerEvent.packet?⟩, toServer,
        toClient ++ es.filterMap ServerEvent.packet?⟩ ∧ e = es.map .server := by
  apply follow_server ?_ h
  intro p hp
  rwa [SystemState.step, if_pos hlocal] at hp

/-- A delivery to the server, and what it leaves in flight. -/
theorem follow_delivery {p : Packet} {r : Received} {toServer toClient : List Packet}
    (h : s.follow tr (.toServer p r) toServer toClient = some (s', e)) :
    r.From p ∧ ∃ server, s.sys.server.deliverStep r = some (server, []) ∧
      s' = ⟨⟨server, s.sys.client, s.sys.net⟩, toServer, toClient⟩ ∧ e = [] := by
  have hfrom : r.From p ∧ ∀ q, s.sys.step tr (.toServer p r) = some q →
      (s.sys.server.step tr.server (.deliver r)).map s.sys.serverDone = some q := by
    obtain ⟨q, hq, -⟩ := Option.map_eq_some_iff.mp h
    rw [SystemState.step] at hq ⊢
    split_ifs at hq with hdeliver
    rw [if_pos hdeliver]
    exact ⟨hdeliver.1.2.1, fun _ => id⟩
  obtain ⟨server, es, hserver, rfl, rfl⟩ := follow_server hfrom.2 h
  obtain rfl : es = [] := (ServerState.deliverStep_eq hserver).2.1
  refine ⟨hfrom.1, server, hserver, ?_, rfl⟩
  simp only [List.filterMap_nil, List.append_nil]

/-- A clean step is a step of the system, which takes at most what was in flight out of the queues. -/
structure SystemMove (tr : Transfer) (s s' : CleanState) (e : List SystemEvent) : Prop where
  step : ∃ b, s.sys.step tr b = some (s'.sys, e)
  toServer : ∀ p ∈ s'.toServer, p ∈ s.toServer ++ e.filterMap SystemEvent.toServer?
  toClient : ∀ p ∈ s'.toClient, p ∈ s.toClient ++ e.filterMap SystemEvent.toClient?

/-- What follows a step of the system is such a move, if nothing but the heads of the queues is missing. -/
theorem systemMove_of_follow {b : SystemAction} {toServer toClient : List Packet}
    (h : s.follow tr b toServer toClient = some (s', e)) (hserver : toServer ⊆ s.toServer)
    (hclient : toClient ⊆ s.toClient) : SystemMove tr s s' e := by
  obtain ⟨hstep, htoServer, htoClient⟩ := follow_cases h
  refine ⟨⟨b, hstep⟩, fun p hp => ?_, fun p hp => ?_⟩
  · rw [htoServer, List.mem_append] at hp
    exact List.mem_append.mpr (hp.imp_left fun hold => hserver hold)
  · rw [htoClient, List.mem_append] at hp
    exact List.mem_append.mpr (hp.imp_left fun hold => hclient hold)

/-- Every clean step is such a move. -/
theorem step_systemMove (h : s.step tr a = some (s', e)) : SystemMove tr s s' e := by
  cases a with
  | driver | sender | receiver => exact systemMove_of_follow h (List.Subset.refl _) (List.Subset.refl _)
  | toServer r =>
    obtain ⟨p, rest, hqueue, -, h⟩ := step_toServer h
    apply systemMove_of_follow h ?_ (List.Subset.refl _)
    rw [hqueue]
    exact List.subset_cons_self p rest
  | toClient r ops =>
    obtain ⟨p, rest, hqueue, -, h⟩ := step_toClient h
    apply systemMove_of_follow h (List.Subset.refl _) ?_
    rw [hqueue]
    exact List.subset_cons_self p rest

/-- A clean run is a run of the system. -/
theorem system_of_trace (h : (cleanMachine tr).Trace es s) : (systemMachine tr).Trace es s.sys := by
  apply h.invariant (I := fun es s => (systemMachine tr).Trace es s.sys)
  · intro s hinit
    exact .initial hinit.1
  · intro es s a s' e _ htrace hstep
    obtain ⟨b, hb⟩ := (step_systemMove hstep).step
    exact htrace.step hb

/-- What is in flight was sent. -/
theorem inFlight_of_trace (h : (cleanMachine tr).Trace es s) :
    ∀ p, p ∈ s.toServer ∨ p ∈ s.toClient → p ∈ s.sys.net := by
  apply h.invariant (I := fun _ s => ∀ p, p ∈ s.toServer ∨ p ∈ s.toClient → p ∈ s.sys.net)
  · rintro s ⟨-, hserver, hclient⟩ p hp
    simp [hserver, hclient] at hp
  · intro es s a s' e _ hsent hstep p hp
    have hmove := step_systemMove hstep
    obtain ⟨b, hb⟩ := hmove.step
    obtain ⟨hkept, hnew⟩ := SystemState.step_sent hb
    rcases hp with hp | hp
    · rcases List.mem_append.mp (hmove.toServer p hp) with hold | hadded
      · exact hkept p (hsent p (Or.inl hold))
      · obtain ⟨x, hx, hpacket⟩ := List.mem_filterMap.mp hadded
        exact hnew x hx p (Or.inl hpacket)
    · rcases List.mem_append.mp (hmove.toClient p hp) with hold | hadded
      · exact hkept p (hsent p (Or.inr hold))
      · obtain ⟨x, hx, hpacket⟩ := List.mem_filterMap.mp hadded
        exact hnew x hx p (Or.inr hpacket)

end CleanState

/-- A file that every clean run transfers has a size for which both sides agree on every packet. -/
theorem Transfers.transferable {tr : Transfer} (h : Transfers tr) : tr.server.Transferable := by
  obtain ⟨bound, hbound⟩ := h.bounded
  have hinit : (cleanMachine tr).initial
      ⟨⟨tr.server.registeredState, ⟨ClientTransaction.initialVars none, false⟩, []⟩, [], []⟩ :=
    ⟨⟨rfl, ⟨none, rfl⟩, rfl⟩, rfl, rfl⟩
  obtain ⟨as, s, es, hexec, hstuck⟩ := EventMachine.exists_stuck fun as s es => hbound _ as s es hinit
  have htrace := EventMachine.exec_trace hinit hexec
  obtain ⟨-, -, hfin⟩ := h.complete es s htrace hstuck
  exact (verified_of_returned_fin (CleanState.system_of_trace htrace) hfin).2

end Trftp
