import Trftp.Server.LostRequest

/-!
# The sender loop ends

Requests move the loop counter backwards, so the counter alone is no measure. Each exchange of the
slot takes a request that was accepted and buys at most one more pass over the file: the iterations
are bounded by a pass for each exchange, and the place that the loop has reached in the
current one.
-/

namespace Trftp

open Lib (EventMachine)

/-- The loop condition held. -/
def ServerEvent.isIteration : ServerEvent → Bool
  | .iteration => true
  | .stored _ | .sent _ _ | .sampled _ | .waited _ _ | .returned _ | .checked | .transmitted _ _ | .finished
  | .accepted _ _ => false

/-- A retransmission request was accepted. -/
def ServerEvent.isRequest : ServerEvent → Bool
  | .accepted id _ => decide (id = .rtx)
  | .stored _ | .sent _ _ | .sampled _ | .waited _ _ | .returned _ | .iteration | .checked | .transmitted _ _
  | .finished => false

/-- How many iterations the loop has made. -/
def iterations (es : List ServerEvent) : ℕ := es.countP ServerEvent.isIteration

/-- How many requests were accepted. -/
def requests (es : List ServerEvent) : ℕ := es.countP ServerEvent.isRequest

namespace ServerState

variable (t : ServerTransaction)

/-- The requests in the slot. -/
def pending (s : ServerState) : ℕ := if s.vars.retransmitPsn = noRetransmit then 0 else 1

/-- How many iterations the current pass over the file has made at most. -/
def reached (s : ServerState) : ℕ :=
  match s.sender with
  | .notStarted | .opening | .init => 0
  | .loopTest => s.psn
  | .cxlCheck | .rtxCheck | .rtxTake | .send | .eofTest | .eofCheck | .eofTake | .increment => s.psn + 1
  | .rtxStore psn | .eofStore psn => psn.toNat + 1
  | .failing | .cancelling | .stopped | .finished => t.totalPacketNumber.toNat

/-- Each exchange has taken an accepted request and has bought a pass. -/
def Bounded (es : List ServerEvent) (s : ServerState) : Prop :=
  ∃ taken, taken + s.pending ≤ requests es ∧
    iterations es ≤ taken * t.totalPacketNumber.toNat + s.reached t

variable {t} {es e : List ServerEvent} {s s' : ServerState}

/-- A pass is not longer than the file. -/
theorem SenderOk.reached_le (h : SenderOk t es s) : s.reached t ≤ t.totalPacketNumber.toNat := by
  unfold SenderOk at h
  unfold reached
  cases hpos : s.sender <;> simp only [hpos] at h ⊢ <;> omega

/-- A step that takes nothing from the slot moves the place by the iterations that it makes. -/
theorem Bounded.step (h : Bounded t es s) (hpending : s'.pending ≤ s.pending + requests e)
    (hreached : iterations e + s.reached t ≤ s'.reached t) : Bounded t (es ++ e) s' := by
  obtain ⟨taken, hrequests, hiterations⟩ := h
  unfold requests iterations at *
  refine ⟨taken, ?_, ?_⟩
  · rw [requests, List.countP_append]
    omega
  · rw [iterations, List.countP_append]
    omega

/-- An exchange buys a pass. -/
theorem Bounded.exchange (h : Bounded t es s) (hfull : s.vars.retransmitPsn ≠ noRetransmit)
    (hempty : s'.vars.retransmitPsn = noRetransmit) (hreached : s.reached t ≤ t.totalPacketNumber.toNat) :
    Bounded t es s' := by
  obtain ⟨taken, hrequests, hiterations⟩ := h
  refine ⟨taken + 1, ?_, ?_⟩
  · rw [pending, if_neg hfull] at hrequests
    rw [pending, if_pos hempty]
    exact hrequests
  · rw [Nat.succ_mul]
    omega

/-- The statements of the sender thread keep the bound. -/
theorem senderStep_bounded {fileOk : Bool} (hinv : SendingInv t es s) (hbound : Bounded t es s)
    (h : s.senderStep t fileOk = some (s', e)) : Bounded t (es ++ e) s' := by
  have hsender := hinv.sender
  have htake := hinv.slot.2
  have hreached := hinv.sender.reached_le
  unfold SenderOk at hsender
  cases hpos : s.sender <;> simp only [senderStep, hpos] at h hsender htake
  case notStarted | stopped | finished => contradiction
  case opening =>
    cases h
    refine hbound.step (Nat.le_add_right _ _) ?_
    cases fileOk <;> simp [reached, hpos, iterations]
  case init =>
    cases h
    refine hbound.step (Nat.le_add_right _ _) ?_
    simp [reached, hpos, iterations]
  case loopTest =>
    split at h <;> cases h
    case isTrue =>
      refine hbound.step (Nat.le_add_right _ _) ?_
      simp [reached, hpos, iterations, ServerEvent.isIteration, psn, Nat.add_comm]
    case isFalse =>
      refine hbound.step (Nat.le_add_right _ _) ?_
      simpa [reached, hpos, iterations, ServerEvent.isIteration] using hsender.1
  case cxlCheck =>
    split at h <;> cases h
    case isTrue =>
      refine hbound.step (Nat.le_add_right _ _) ?_
      simpa [reached, hpos, iterations, ServerEvent.isIteration] using Nat.succ_le_of_lt hsender.1
    case isFalse =>
      refine hbound.step (Nat.le_add_right _ _) ?_
      simp [reached, hpos, iterations, ServerEvent.isIteration, psn]
  case rtxCheck | eofTest | eofCheck =>
    split at h <;> cases h
    all_goals
      refine hbound.step (Nat.le_add_right _ _) ?_
      simp [reached, hpos, iterations, psn]
  case rtxTake =>
    cases h
    rw [List.append_nil]
    exact hbound.exchange (htake (Or.inl trivial)) rfl hreached
  case eofTake =>
    cases h
    rw [List.append_nil]
    exact hbound.exchange (htake (Or.inr trivial)) rfl hreached
  case rtxStore psn =>
    cases h
    refine hbound.step (Nat.le_add_right _ _) ?_
    simp [reached, hpos, iterations, ServerState.psn]
  case eofStore psn =>
    cases h
    refine hbound.step (Nat.le_add_right _ _) ?_
    simp [reached, hpos, iterations, ServerState.psn]
  case send =>
    split at h <;> cases h
    case _ =>
      refine hbound.step (Nat.le_add_right _ _) ?_
      simp [reached, hpos, iterations, ServerEvent.isIteration, psn]
    case _ =>
      refine hbound.step (Nat.le_add_right _ _) ?_
      simpa [reached, hpos, iterations] using Nat.succ_le_of_lt hsender.1
  case increment =>
    cases h
    have hsucc := Lib.toNat_succ_of_lt hsender.1
    refine hbound.step (Nat.le_add_right _ _) ?_
    simp [reached, hpos, iterations, psn, hsucc]
  case failing | cancelling =>
    cases h
    refine hbound.step (Nat.le_add_right _ _) ?_
    simp [reached, hpos, iterations, ServerEvent.isIteration]

/-- A statement that is not the sender's is no iteration. -/
theorem iterations_of_not_sender {a : ServerAction} (h : s.step t a = some (s', e))
    (hother : ∀ fileOk, a ≠ .sender fileOk) : iterations e = 0 := by
  unfold iterations
  rw [List.countP_eq_zero]
  intro x hx hiteration
  have hloop : x.ofLoop = true := by
    cases x <;> first | rfl | contradiction
  obtain ⟨fileOk, rfl⟩ := step_ofLoop h hx hloop
  exact hother fileOk rfl

/-- A statement of `OnReceive` fills the slot only with a request that it accepts. -/
theorem receiverStep_pending (h : s.receiverStep t = some (s', e)) : s'.pending ≤ s.pending + requests e := by
  have hone : s'.pending ≤ 1 := by
    unfold pending
    split_ifs <;> omega
  rcases receiverStep_eq h with ⟨rfl, receiver, rfl, -⟩ | ⟨id, r, -, -, -, rfl, rfl⟩
  · exact Nat.le_add_right _ _
  · by_cases hrtx : id = .rtx
    · subst hrtx
      exact hone.trans (Nat.le_add_left _ _)
    · apply le_trans (le_of_eq ?_) (Nat.le_add_right _ _)
      simp only [pending, accept, ServerVars.accepted_retransmit hrtx]

/-- A statement that neither is the sender's nor moves it keeps the bound. -/
theorem Bounded.other {a : ServerAction} (h : Bounded t es s) (hstep : s.step t a = some (s', e))
    (hother : ∀ fileOk, a ≠ .sender fileOk) (hsender : s'.sender = s.sender)
    (hpsn : s'.vars.packetSequenceNumber = s.vars.packetSequenceNumber)
    (hpending : s'.pending ≤ s.pending + requests e) : Bounded t (es ++ e) s' := by
  have hreached : s'.reached t = s.reached t := by
    unfold reached psn
    rw [hsender, hpsn]
  apply h.step hpending
  rw [iterations_of_not_sender hstep hother, hreached, Nat.zero_add]

/-- Every statement keeps the bound. -/
theorem step_bounded {a : ServerAction} (hinv : SendingInv t es s) (hbound : Bounded t es s)
    (h : s.step t a = some (s', e)) : Bounded t (es ++ e) s' := by
  have hslot (hsame : s'.vars.retransmitPsn = s.vars.retransmitPsn) : s'.pending ≤ s.pending + requests e := by
    unfold pending
    rw [hsame]
    exact Nat.le_add_right _ _
  cases a with
  | sender fileOk => exact senderStep_bounded hinv hbound h
  | driver =>
    have hframe := driverStep_frame h
    rcases hframe.sender with hsender | ⟨hdata, hopening⟩
    · exact hbound.other h (by simp) hsender hframe.psn (hslot hframe.retransmit)
    · -- the sender thread starts here, so it has made no iteration
      have hfresh : s.sender = .notStarted := hinv.fresh (by rw [hdata]; rfl)
      apply hbound.step (hslot hframe.retransmit)
      rw [iterations_of_not_sender h (by simp), reached, hfresh]
      exact Nat.zero_le _
  | timeout =>
    have hframe := timeoutStep_frame h
    exact hbound.other h (by simp) (by rw [hframe]) (by rw [hframe]) (hslot (by rw [hframe]))
  | deliver r =>
    obtain ⟨hframe, -, hsame⟩ := deliverStep_frame h
    exact hbound.other h (by simp) hframe.sender hframe.psn (hslot hsame)
  | receiver =>
    have hframe := receiverStep_frame h
    exact hbound.other h (by simp) hframe.sender hframe.psn (receiverStep_pending h)
  | abort =>
    obtain ⟨-, rfl, rfl⟩ := abortStep_eq h
    exact hbound.other h (by simp) rfl rfl (hslot rfl)
  | abortSend =>
    obtain ⟨rfl, rfl⟩ := abortSendStep_eq h
    exact hbound.other h (by simp) rfl rfl (hslot rfl)

end ServerState

/-- The bound holds in every reachable state. -/
theorem bounded_of_trace {t : ServerTransaction} {es : List ServerEvent} {s : ServerState}
    (h : (serverMachine t).Trace es s) : ServerState.Bounded t es s := by
  refine h.invariant ?_ fun htrace hbound hstep =>
    ServerState.step_bounded (sendingInv_of_trace htrace) hbound hstep
  rintro s rfl
  exact ⟨0, le_rfl, Nat.zero_le _⟩

/-- The sender loop ends.

For every transaction, every interleaving and every number of requests that were accepted on the way: the
loop has made at most one pass over the file for each request and one more, and a number that it
has taken from the slot is below the packet count. -/
theorem iterations_le {t : ServerTransaction} {es : List ServerEvent} {s : ServerState}
    (h : (serverMachine t).Trace es s) :
    iterations es ≤ (requests es + 1) * t.totalPacketNumber.toNat ∧
      ∀ psn, s.sender = .rtxStore psn ∨ s.sender = .eofStore psn → psn < t.totalPacketNumber := by
  have hsender := (sendingInv_of_trace h).sender
  constructor
  · obtain ⟨taken, hrequests, hiterations⟩ := bounded_of_trace h
    have hreached := hsender.reached_le
    have htaken : taken + 1 ≤ requests es + 1 := by omega
    calc iterations es ≤ taken * t.totalPacketNumber.toNat + s.reached t := hiterations
      _ ≤ (taken + 1) * t.totalPacketNumber.toNat := by
        rw [Nat.succ_mul]
        omega
      _ ≤ (requests es + 1) * t.totalPacketNumber.toNat := Nat.mul_le_mul_right _ htaken
  · intro psn hstore
    rw [UInt32.lt_iff_toNat_lt]
    unfold ServerState.SenderOk at hsender
    rcases hstore with hstore | hstore <;> rw [hstore] at hsender
    · exact hsender.2.2.1
    · exact hsender.2.2

/-- A request has been taken in the only pass over a file of one byte. -/
theorem iterations_le_oneByte :
    ∃ s es, (serverMachine oneByte).exec oneByte.registeredState
        (requestSchedule 2 ++ (.receiver :: List.replicate 4 (.sender true))) = some (s, es) ∧
      s.sender = .rtxStore 0 ∧ requests es = 1 ∧ iterations es ≤ 2 * oneByte.totalPacketNumber.toNat ∧
      (0 : UInt32) < oneByte.totalPacketNumber := by
  have hrun : ((serverMachine oneByte).exec oneByte.registeredState
      (requestSchedule 2 ++ (.receiver :: List.replicate 4 (.sender true)))).map
        (fun p => (p.1.sender, requests p.2)) = some (.rtxStore 0, 1) := by decide +kernel
  obtain ⟨⟨s, es⟩, hexec, hs⟩ := Option.map_eq_some_iff.mp hrun
  obtain ⟨hsender, hrequests⟩ := Prod.mk.inj hs
  obtain ⟨hle, htaken⟩ := iterations_le (EventMachine.exec_trace rfl hexec)
  refine ⟨s, es, hexec, hsender, hrequests, ?_, htaken 0 (Or.inl hsender)⟩
  rw [hrequests] at hle
  exact hle

end Trftp
