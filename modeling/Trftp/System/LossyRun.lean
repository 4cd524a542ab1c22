import Trftp.System.FileSizes

/-!
# Runs that lose packets

As in a clean run nothing is repeated or reordered, every operation succeeds, no wait times out and
nobody aborts. But DATA can be lost on its way to the client, any number of times, except for the first
packet and for the last two: a client that has no packet asks for none, and behind the last packet the
counter is set back before it is incremented, so what is asked for there is skipped. The gap behind a
packet is long enough: the sender thread goes on when the client has answered the packet and `OnReceive`
has heard the answer, and DONE is delivered when the sender loop has ended. The client handles a datagram
to its end.
-/

namespace Trftp

open Lib (EventMachine chunk)

/-- What happens next. -/
inductive LossyAction where
  /-- the next statement of `StartFileTransfer` -/
  | driver
  /-- the next statement of the sender thread -/
  | sender
  /-- the next statement of the server's `OnReceive` -/
  | receiver
  /-- the first datagram in flight to the server is delivered -/
  | toServer (r : Received)
  /-- the first datagram in flight to the client is delivered -/
  | toClient (r : Received) (ops : FileOps)
  /-- the first datagram in flight to the client is lost -/
  | lose

/-- The action is a loss. -/
def LossyAction.isLoss : LossyAction → Bool
  | .lose => true
  | .driver | .sender | .receiver | .toServer _ | .toClient _ _ => false

/-- The packets that can be lost: not the first one, and not the last two. -/
def Transfer.Expendable (tr : Transfer) (p : Packet) : Prop :=
  ∃ number < tr.server.totalPacketNumber.toNat,
    0 < number ∧ number + 2 < tr.server.totalPacketNumber.toNat ∧ p = tr.dataAt number

instance (tr : Transfer) (p : Packet) : Decidable (tr.Expendable p) :=
  inferInstanceAs (Decidable (∃ number < tr.server.totalPacketNumber.toNat, _ ∧ _ ∧ p = tr.dataAt number))

namespace CleanState

/-- Every packet is answered, and every request for a retransmission is heard. -/
def Settled (s : CleanState) : Prop :=
  s.toClient = [] ∧ s.sys.server.receiver = .idle ∧ (s.toServer = [] ∨ s.sys.client.vars.status = .done)

instance (s : CleanState) : Decidable s.Settled := inferInstanceAs (Decidable (_ ∧ _))

/-- A wait has begun, and the sender loop has ended if the client has sent DONE. -/
def heeds (s : CleanState) : Bool :=
  match s.sys.server.driver with
  | .waiting phase oldStatus =>
    oldStatus = phase.request ∧ (s.sys.client.vars.status = .done → s.sys.server.sender = .finished)
  | _ => false

variable (tr : Transfer) (s : CleanState)

/-- One statement, one delivery, or one loss. -/
def lossyStep : LossyAction → Option (CleanState × List SystemEvent)
  | .driver => s.step tr .driver
  | .sender => if s.Settled then s.step tr .sender else none
  | .receiver => s.step tr .receiver
  | .toServer r =>
    match s.toServer with
    | [] => none
    | p :: rest => if s.heeds then s.follow tr (.toServer p r) rest s.toClient else none
  | .toClient r ops => s.step tr (.toClient r ops)
  | .lose =>
    match s.toClient with
    | [] => none
    | p :: rest => if tr.Expendable p then some (⟨s.sys, s.toServer, rest⟩, []) else none

end CleanState

/-- The lossy runs of a transfer. -/
def lossyMachine (tr : Transfer) : EventMachine CleanState LossyAction SystemEvent where
  initial s := (systemMachine tr).initial s.sys ∧ s.toServer = [] ∧ s.toClient = []
  step s a := s.lossyStep tr a

namespace CleanState

variable {tr : Transfer} {s s' : CleanState} {a : LossyAction} {e es : List SystemEvent}

/-- The server is given the head of its queue. -/
theorem lossyStep_toServer {r : Received} (h : s.lossyStep tr (.toServer r) = some (s', e)) :
    ∃ p rest, s.toServer = p :: rest ∧ s.heeds = true ∧
      s.follow tr (.toServer p r) rest s.toClient = some (s', e) := by
  simp only [lossyStep] at h
  split at h
  · contradiction
  · rename_i p rest hqueue
    split_ifs at h with hheeds
    exact ⟨p, rest, hqueue, hheeds, h⟩

/-- What is lost was in flight to the client. -/
theorem lossyStep_lose (h : s.lossyStep tr .lose = some (s', e)) :
    ∃ p rest, s.toClient = p :: rest ∧ tr.Expendable p ∧ s' = ⟨s.sys, s.toServer, rest⟩ ∧ e = [] := by
  simp only [lossyStep] at h
  split at h
  · contradiction
  · rename_i p rest hqueue
    split_ifs at h with hexpendable
    cases h
    exact ⟨p, rest, hqueue, hexpendable, rfl, rfl⟩

/-- The sender thread waits for the answer. -/
theorem lossyStep_sender (h : s.lossyStep tr .sender = some (s', e)) :
    s.Settled ∧ s.step tr .sender = some (s', e) := by
  simp only [lossyStep] at h
  split_ifs at h with hsettled
  exact ⟨hsettled, h⟩

/-- A lossy step moves the system as a clean one does, or loses a datagram. -/
theorem lossyStep_move (h : s.lossyStep tr a = some (s', e)) :
    SystemMove tr s s' e ∨ (s'.sys = s.sys ∧ e = [] ∧ s'.toServer = s.toServer ∧ s'.toClient ⊆ s.toClient) := by
  cases a with
  | driver => exact Or.inl (step_systemMove (a := .driver) h)
  | sender => exact Or.inl (step_systemMove (lossyStep_sender h).2)
  | receiver => exact Or.inl (step_systemMove (a := .receiver) h)
  | toClient r ops => exact Or.inl (step_systemMove (a := .toClient r ops) h)
  | toServer r =>
    obtain ⟨p, rest, hqueue, -, hfollow⟩ := lossyStep_toServer h
    refine Or.inl (systemMove_of_follow hfollow ?_ (List.Subset.refl _))
    rw [hqueue]
    exact List.subset_cons_self p rest
  | lose =>
    obtain ⟨p, rest, hqueue, -, rfl, rfl⟩ := lossyStep_lose h
    refine Or.inr ⟨rfl, rfl, rfl, ?_⟩
    rw [hqueue]
    exact List.subset_cons_self p rest

/-- A lossy run is a run of the system. -/
theorem system_of_lossy (h : (lossyMachine tr).Trace es s) : (systemMachine tr).Trace es s.sys := by
  apply h.invariant (I := fun es s => (systemMachine tr).Trace es s.sys)
  · intro s hinit
    exact .initial hinit.1
  · intro es s a s' e _ htrace hstep
    rcases lossyStep_move hstep with hmove | ⟨hsys, rfl, -⟩
    · obtain ⟨b, hb⟩ := hmove.step
      exact htrace.step hb
    · rwa [hsys, List.append_nil]

/-- A move of the system puts what it sends into the network. -/
theorem SystemMove.inFlight (h : SystemMove tr s s' e)
    (hsent : ∀ p, p ∈ s.toServer ∨ p ∈ s.toClient → p ∈ s.sys.net) :
    ∀ p, p ∈ s'.toServer ∨ p ∈ s'.toClient → p ∈ s'.sys.net := by
  obtain ⟨b, hb⟩ := h.step
  obtain ⟨hkept, hnew⟩ := SystemState.step_sent hb
  intro p hp
  rcases hp.imp (h.toServer p) (h.toClient p) with hp | hp
  · rcases List.mem_append.mp hp with hold | hadded
    · exact hkept p (hsent p (Or.inl hold))
    · obtain ⟨x, hx, hpacket⟩ := List.mem_filterMap.mp hadded
      exact hnew x hx p (Or.inl hpacket)
  · rcases List.mem_append.mp hp with hold | hadded
    · exact hkept p (hsent p (Or.inr hold))
    · obtain ⟨x, hx, hpacket⟩ := List.mem_filterMap.mp hadded
      exact hnew x hx p (Or.inr hpacket)

/-- What is in flight in a lossy run was sent. -/
theorem inFlight_of_lossy (h : (lossyMachine tr).Trace es s) :
    ∀ p, p ∈ s.toServer ∨ p ∈ s.toClient → p ∈ s.sys.net := by
  apply h.invariant (I := fun _ s => ∀ p, p ∈ s.toServer ∨ p ∈ s.toClient → p ∈ s.sys.net)
  · rintro s ⟨-, hserver, hclient⟩ p hp
    simp [hserver, hclient] at hp
  · intro es s a s' e _ hsent hstep p hp
    rcases lossyStep_move hstep with hmove | ⟨hsys, -, htoServer, htoClient⟩
    · exact hmove.inFlight hsent p hp
    · rw [hsys]
      apply hsent p
      rw [htoServer] at hp
      exact hp.imp_right fun hmem => htoClient hmem

end CleanState

namespace ClientTransaction

variable {t : ServerTransaction} {v : ClientVars} {r : Received}

/-- A packet behind the expected one is answered by RTX with the number of the expected one. -/
theorem onReceive_ahead (c : ClientTransaction) (ops : FileOps) {psn : UInt32} {count : ℕ} (ht : t.Transferable)
    (hpsn : psn < t.totalPacketNumber) (harrived : t.DataArrived r psn) (hv : v.Receiving t count)
    (hpos : 0 < count) (hahead : count < psn.toNat) :
    c.onReceive v r ops =
      some (v.heardFrom r.addr, [.sent .rtx (c.packet (v.heardFrom r.addr) .rtx)]) := by
  have hfull : ¬t.EmptyLast psn := fun hlast => ht.2.1 hlast.2
  have hbranch : c.onReceive v r ops = c.onData (v.heardFrom r.addr) r ops := by
    unfold onReceive validateMessageIntegrity
    rw [harrived.intact.mpr hfull, harrived.id]
    rfl
  have hother : psn ≠ (v.heardFrom r.addr).packetSequenceNumber := by
    intro heq
    rw [heq, ClientVars.heardFrom_psn, hv.psn] at hahead
    exact absurd hahead (Nat.lt_irrefl count)
  have hnonzero : psn ≠ 0 := by
    rintro rfl
    exact absurd hahead (Nat.not_lt_zero count)
  have hstatus : (v.heardFrom r.addr).status = dataStatus r.msg.header := by
    rw [ClientVars.heardFrom_status, hv.running.status, dataStatus, harrived.number, if_neg hnonzero,
      if_neg (Nat.pos_iff_ne_zero.mp hpos)]
  have hlen : r.payloadLen = dataLen (v.heardFrom r.addr) r.msg.header :=
    (payloadLen_eq_dataLen_iff hpsn harrived hv.announces.size hfull).mpr fun _ => ht.1.le
  rw [hbranch, onData, if_neg (not_not.mpr hstatus), if_neg (not_not.mpr hlen), harrived.number, if_pos hother,
    sendMessage_rtx]

end ClientTransaction

end Trftp
