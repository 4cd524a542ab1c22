import Trftp.Server.SendingInv
import Trftp.Server.Phases
import Trftp.Server.Progress
import Trftp.Server.Slices
import Trftp.Messages
import Trftp.Lib.History

/-!
# When CXL is final

CXL in the status is overwritten by whoever decided to store something else before it was
stored: the driver, once a wait has returned a response, and `OnReceive`, once a message
has passed its checks. CXL is also missed where `StartFileTransfer` is not about to look at
the status, or looks at it only to remember it. Everywhere else it is final.
-/

namespace Trftp

open Lib (EachWithPast)

/-- `StartFileTransfer` stores nothing over a CXL and sends neither INFO nor FIN behind it, and it
returns CXL. -/
def DriverPos.Heeds : DriverPos → Prop
  | .start | .finishing => False
  | .sending phase => phase = .data
  | .sample phase => phase ≠ .ntf
  | .waiting phase oldStatus => phase ≠ .ntf ∨ oldStatus ≠ .cxl
  | .woken _ | .cancelling => True
  | .decide phase status => phase.verdict status = .cancel ∨ phase.verdict status = .giveUp .cxl
  | .erase result | .returned result => result = .cxl

namespace ServerState

/-- The counter behind an iteration that sends packet `psn`: the second retransmission check comes
behind the last packet only. -/
def counterAfter (t : ServerTransaction) (psn retransmitPsn : UInt32) : UInt32 :=
  (if psn = t.totalPacketNumber - 1 ∧ retransmitPsn ≠ noRetransmit then retransmitPsn else psn) + 1

/-- The counter when the sender next tests the loop condition, or its last value. It is `none` before
a cancellation check. The slot is taken not to be filled before. -/
def nextCounter (t : ServerTransaction) (s : ServerState) : Option UInt32 :=
  match s.sender with
  | .notStarted | .opening | .init => some 0
  | .loopTest | .finished | .failing | .cancelling | .stopped => some s.vars.packetSequenceNumber
  | .cxlCheck => none
  | .rtxCheck =>
    if s.vars.retransmitPsn ≠ noRetransmit then some (counterAfter t s.vars.retransmitPsn noRetransmit)
    else some (counterAfter t s.vars.packetSequenceNumber noRetransmit)
  | .rtxTake => some (counterAfter t s.vars.retransmitPsn noRetransmit)
  | .rtxStore psn => some (counterAfter t psn s.vars.retransmitPsn)
  | .send | .eofTest => some (counterAfter t s.vars.packetSequenceNumber s.vars.retransmitPsn)
  | .eofCheck =>
    some ((if s.vars.retransmitPsn ≠ noRetransmit then s.vars.retransmitPsn
      else s.vars.packetSequenceNumber) + 1)
  | .eofTake => some (s.vars.retransmitPsn + 1)
  | .eofStore psn => some (psn + 1)
  | .increment => some (s.vars.packetSequenceNumber + 1)

/-- `OnReceive` stores nothing over a CXL: it is not about to, and a DONE that is still to be compared
with the packet count will not match it. -/
def ReceiverHeeds (t : ServerTransaction) (s : ServerState) : Prop :=
  match s.receiver with
  | .idle | .phaseCheck _ => True
  | .psnCheck r =>
    r.id? = some .done → t.validateDone r.msg.done r.payloadLen = true →
      nextCounter t s ≠ some t.totalPacketNumber
  | .commit r => r.id? ≠ some .chk ∧ r.id? ≠ some .rdy ∧ r.id? ≠ some .done

/-- Nobody is about to overwrite or to overlook a CXL. -/
def Heeds (t : ServerTransaction) (s : ServerState) : Prop := s.driver.Heeds ∧ ReceiverHeeds t s

variable {t : ServerTransaction} {s s' : ServerState} {es e : List ServerEvent}

/-- A wait that returned CXL makes `StartFileTransfer` return it. -/
@[simp] theorem verdict_cxl (phase : Phase) : phase.verdict (some .cxl) = .giveUp .cxl := by
  cases phase <;> rfl

/-- The statements of `StartFileTransfer` keep a CXL that they heed. -/
theorem driverStep_heeds (hcxl : s.vars.status = .cxl) (hpos : s.driver.Heeds)
    (h : s.driverStep t = some (s', e)) :
    s'.vars.status = .cxl ∧ s'.driver.Heeds ∧ ∀ id p, .sent id p ∈ e → id = .cxl := by
  revert h
  fun_cases ServerState.driverStep t s <;> intro h <;> cases h <;> simp_all [DriverPos.Heeds]

/-- A wait that times out on CXL leads to another CXL. -/
theorem timeoutStep_heeds (hcxl : s.vars.status = .cxl) (hpos : s.driver.Heeds)
    (h : s.timeoutStep = some (s', e)) :
    s'.vars.status = .cxl ∧ s'.driver.Heeds ∧ ∀ id p, .sent id p ∈ e → id = .cxl := by
  obtain ⟨phase, hwaiting, rfl, rfl⟩ := timeoutStep_eq h
  rw [hwaiting, hcxl] at hpos
  have hphase : phase ≠ .ntf := hpos.resolve_right fun h => h rfl
  exact ⟨hcxl, Or.inl (by simp [Phase.verdict, hphase]), by simp⟩

/-- Within the loop the counter is below the packet count. -/
theorem ne_totalPacketNumber_of_lt (h : s.psn < t.totalPacketNumber.toNat) :
    s.vars.packetSequenceNumber ≠ t.totalPacketNumber := fun heq =>
  absurd (congrArg UInt32.toNat heq) (Nat.ne_of_lt h)

/-- The statements of the sender thread keep a CXL and lead to the counter that was foreseen. -/
theorem senderStep_nextCounter {fileOk : Bool} (hinv : SendingInv t es s) (hcxl : s.vars.status = .cxl)
    (h : s.senderStep t fileOk = some (s', e)) (hne : nextCounter t s ≠ some t.totalPacketNumber) :
    nextCounter t s' ≠ some t.totalPacketNumber := by
  have hsender := hinv.sender
  unfold SenderOk at hsender
  revert h
  fun_cases ServerState.senderStep t s fileOk <;> intro h <;> cases h <;>
    simp_all [nextCounter, counterAfter]
  case case2.refl =>
    have hzero : s.vars.packetSequenceNumber = 0 := UInt32.toNat_inj.mp hsender
    cases fileOk
    · simpa [hzero] using hne
    · simpa using hne
  case case6.refl => exact ne_totalPacketNumber_of_lt hsender.1
  case case11.refl => exact hne
  case case13.refl => exact ne_totalPacketNumber_of_lt hsender.1

/-- The sender thread does not overwrite a CXL. -/
theorem senderStep_heeds {fileOk : Bool} (hcxl : s.vars.status = .cxl)
    (h : s.senderStep t fileOk = some (s', e)) :
    s'.vars.status = .cxl ∧ ∀ id p, .sent id p ∈ e → id = .cxl := by
  revert h
  fun_cases ServerState.senderStep t s fileOk <;> intro h <;> cases h <;> simp_all

/-- A counter that has reached the packet count is the one that is foreseen. -/
theorem nextCounter_of_eq (hinv : SenderOk t es s)
    (h : s.vars.packetSequenceNumber = t.totalPacketNumber) :
    nextCounter t s = some t.totalPacketNumber := by
  have hpsn : s.psn = t.totalPacketNumber.toNat := congrArg UInt32.toNat h
  unfold SenderOk at hinv
  cases hpos : s.sender <;> simp only [hpos] at hinv
  case notStarted | opening | init =>
    have hzero : t.totalPacketNumber = 0 := UInt32.toNat_inj.mp (hpsn.symm.trans hinv)
    simp [nextCounter, hpos, hzero]
  case loopTest | failing | cancelling | stopped | finished => simp [nextCounter, hpos, h]
  all_goals omega

/-- The statements of `OnReceive` keep a CXL that they heed. -/
theorem receiverStep_heeds (hinv : SendingInv t es s) (hcxl : s.vars.status = .cxl)
    (hpos : ReceiverHeeds t s) (h : s.receiverStep t = some (s', e)) :
    s'.vars.status = .cxl ∧ ReceiverHeeds t s' ∧ ∀ id p, .sent id p ∉ e := by
  unfold ReceiverHeeds at hpos
  revert h
  fun_cases ServerState.receiverStep t s <;> intro h <;> cases h <;> simp_all [ReceiverHeeds]
  case case13.refl hmatch => exact hpos (nextCounter_of_eq hinv.sender hmatch.1)
  all_goals simp [accept, hcxl]

/-- `OnReceive` heeds a CXL as before if the sender thread will not reach the packet count. -/
theorem ReceiverHeeds.congr (hpos : ReceiverHeeds t s) (hreceiver : s'.receiver = s.receiver)
    (hnext : nextCounter t s ≠ some t.totalPacketNumber → nextCounter t s' ≠ some t.totalPacketNumber) :
    ReceiverHeeds t s' := by
  unfold ReceiverHeeds at hpos ⊢
  rw [hreceiver]
  cases hr : s.receiver <;> simp only [hr] at hpos ⊢
  case psnCheck r => exact fun hid hvalid => hnext (hpos hid hvalid)
  case commit r => exact hpos

/-- The counter that is foreseen depends on what the sender thread works on. -/
theorem nextCounter_congr (hsender : s'.sender = s.sender)
    (hpsn : s'.vars.packetSequenceNumber = s.vars.packetSequenceNumber)
    (hslot : s'.vars.retransmitPsn = s.vars.retransmitPsn) : nextCounter t s' = nextCounter t s := by
  unfold nextCounter
  rw [hsender, hpsn, hslot]

/-- Starting the sender thread does not change the counter that is foreseen. -/
theorem driverStep_nextCounter (hinv : SendingInv t es s) (h : s.driverStep t = some (s', e)) :
    nextCounter t s' = nextCounter t s := by
  have hframe := driverStep_frame h
  rcases hframe.sender with hkeep | ⟨hpos, hopen⟩
  · exact nextCounter_congr hkeep hframe.psn hframe.retransmit
  · have hfresh : s.sender = .notStarted := hinv.fresh (by simp [hpos, DriverPos.beforeData])
    simp [nextCounter, hopen, hfresh]

/-- Every statement keeps a CXL that is heeded, and it stays heeded. -/
theorem step_heeds {a : ServerAction} (hinv : SendingInv t es s) (hcxl : s.vars.status = .cxl)
    (hpos : Heeds t s) (h : s.step t a = some (s', e)) :
    s'.vars.status = .cxl ∧ Heeds t s' ∧ ∀ id p, .sent id p ∈ e → id = .cxl := by
  obtain ⟨hdriver, hreceiver⟩ := hpos
  cases a with
  | driver =>
    obtain ⟨hstatus, hdriver', hsent⟩ := driverStep_heeds hcxl hdriver h
    have hnext := driverStep_nextCounter hinv h
    exact ⟨hstatus, ⟨hdriver', hreceiver.congr (driverStep_frame h).receiver fun hne => hnext ▸ hne⟩, hsent⟩
  | timeout =>
    obtain ⟨hstatus, hdriver', hsent⟩ := timeoutStep_heeds hcxl hdriver h
    refine ⟨hstatus, ⟨hdriver', ?_⟩, hsent⟩
    rw [timeoutStep_frame h]
    exact hreceiver.congr (by rfl) (by exact id)
  | sender fileOk =>
    obtain ⟨hstatus, hsent⟩ := senderStep_heeds hcxl h
    have hframe := senderStep_frame h
    refine ⟨hstatus, ⟨?_, hreceiver.congr hframe.receiver (senderStep_nextCounter hinv hcxl h)⟩, hsent⟩
    rwa [hframe.driver]
  | deliver r =>
    obtain ⟨-, rfl, rfl⟩ := deliverStep_eq h
    refine ⟨hcxl, ⟨hdriver, ?_⟩, by simp⟩
    by_cases hintact : ServerTransaction.validateMessageIntegrity r.msg r.len = true <;>
      simp [ReceiverHeeds, hintact]
  | receiver =>
    obtain ⟨hstatus, hreceiver', hsent⟩ := receiverStep_heeds hinv hcxl hreceiver h
    refine ⟨hstatus, ⟨?_, hreceiver'⟩, fun id p hmem => absurd hmem (hsent id p)⟩
    rwa [(receiverStep_frame h).driver]
  | abort =>
    obtain ⟨-, rfl, rfl⟩ := abortStep_eq h
    exact ⟨rfl, ⟨hdriver, hreceiver.congr (by rfl) (by exact id)⟩, by simp⟩
  | abortSend =>
    obtain ⟨rfl, rfl⟩ := abortSendStep_eq h
    exact ⟨hcxl, ⟨hdriver, hreceiver.congr (by rfl) (by exact id)⟩, by simp⟩

/-- A cancellation check that finds CXL ends the sender thread. -/
theorem senderStep_checked {fileOk : Bool} (hcxl : s.vars.status = .cxl)
    (h : s.senderStep t fileOk = some (s', e)) (hmem : ServerEvent.checked ∈ e) :
    s'.sender = .stopped := by
  revert h
  fun_cases ServerState.senderStep t s fileOk <;> intro h <;> cases h <;> simp_all

/-- Once the sender thread has checked, it stays where it stopped and transmits nothing. -/
theorem step_stopped {a : ServerAction} (hinv : SendingInv t es s) (hstopped : s.sender = .stopped)
    (h : s.step t a = some (s', e)) :
    s'.sender = .stopped ∧ ∀ psn p, ServerEvent.transmitted psn p ∉ e := by
  refine ⟨?_, fun psn p hmem => ?_⟩
  · cases a with
    | driver =>
      refine ((driverStep_frame h).sender.resolve_right fun hopen => ?_).trans hstopped
      have hfresh := hinv.fresh (by simp [hopen.1, DriverPos.beforeData])
      rw [hstopped] at hfresh
      contradiction
    | timeout => rw [timeoutStep_frame h]; exact hstopped
    | sender fileOk => simp [step, senderStep, hstopped] at h
    | deliver r => rw [(deliverStep_frame h).1.sender]; exact hstopped
    | receiver => rw [(receiverStep_frame h).sender]; exact hstopped
    | abort => obtain ⟨-, rfl, -⟩ := abortStep_eq h; exact hstopped
    | abortSend => obtain ⟨rfl, -⟩ := abortSendStep_eq h; exact hstopped
  · obtain ⟨fileOk, rfl⟩ := step_ofLoop h hmem rfl
    simp [step, senderStep, hstopped] at h

/-- What cancellation promises of a run that has led to a state: the status is still CXL, neither INFO
nor FIN was sent, nothing was transmitted behind a cancellation check, and `StartFileTransfer` has
returned CXL or can go on. -/
structure StaysCancelled (t : ServerTransaction) (s : ServerState) (es : List ServerEvent) : Prop where
  status : s.vars.status = .cxl
  sent : ∀ id p, ServerEvent.sent id p ∈ es → id ≠ .info ∧ id ≠ .fin
  stops : EachWithPast (fun past x => .checked ∈ past → ∀ psn p, x ≠ .transmitted psn p) es
  returns : s.driver = .returned .cxl ∨
    s.driver.registered = true ∧ ∃ a : ServerAction, a.ofDriver = true ∧ ∃ p, s.step t a = some p

/-- What a run keeps from a state in which CXL is heeded. -/
structure CancelInv (t : ServerTransaction) (es : List ServerEvent) (s : ServerState) : Prop where
  status : s.vars.status = .cxl
  heeds : Heeds t s
  sent : ∀ id p, ServerEvent.sent id p ∈ es → id = .cxl
  checked : .checked ∈ es → s.sender = .stopped
  stops : EachWithPast (fun past x => .checked ∈ past → ∀ psn p, x ≠ .transmitted psn p) es

/-- Every statement keeps what the run has kept so far. -/
theorem step_cancelInv {es₀ : List ServerEvent} {a : ServerAction} (hinv : SendingInv t es₀ s)
    (hcancel : CancelInv t es s) (h : s.step t a = some (s', e)) : CancelInv t (es ++ e) s' := by
  obtain ⟨hstatus, hheeds, hsent⟩ := step_heeds hinv hcancel.status hcancel.heeds h
  refine ⟨hstatus, hheeds, fun id p hmem => ?_, fun hmem => ?_, ?_⟩
  · exact (List.mem_append.mp hmem).elim (hcancel.sent id p) (hsent id p)
  · rcases List.mem_append.mp hmem with hold | hnew
    · exact (step_stopped hinv (hcancel.checked hold) h).1
    · obtain ⟨fileOk, rfl⟩ := step_ofLoop h hnew rfl
      exact senderStep_checked hcancel.status h hnew
  · rcases step_events h with rfl | ⟨x, rfl⟩
    · simpa using hcancel.stops
    · refine hcancel.stops.snoc fun hmem psn p heq => ?_
      exact (step_stopped hinv (hcancel.checked hmem) h).2 psn p (by simp [heq])

/-- A CXL that is heeded is final. -/
theorem staysCancelled_of_run (hinv : SendingInv t es s) (hcxl : s.vars.status = .cxl)
    (hpos : Heeds t s) (hrun : (serverMachine t).Run s e s') : StaysCancelled t s' e := by
  have hkept : SendingInv t (es ++ e) s' ∧ CancelInv t e s' := by
    refine hrun.invariant (I := fun e s' => SendingInv t (es ++ e) s' ∧ CancelInv t e s') ?_ ?_
    · exact ⟨by simpa using hinv, hcxl, hpos, by simp, by simp, EachWithPast.nil⟩
    · rintro es₁ s₁ a s₂ e₁ ⟨hinv₁, hcancel⟩ hstep
      refine ⟨?_, step_cancelInv hinv₁ hcancel hstep⟩
      rw [← List.append_assoc]
      exact step_sendingInv hinv₁ hstep
  have hcancel := hkept.2
  refine ⟨hcancel.status, fun id p hmem => ?_, hcancel.stops, ?_⟩
  · rw [hcancel.sent id p hmem]
    simp
  · cases hreg : s'.driver.registered with
    | true => exact Or.inr ⟨rfl, driver_enabled hreg⟩
    | false =>
      have hdriver := hcancel.heeds.1
      cases hend : s'.driver <;> rw [hend] at hreg hdriver <;> try contradiction
      case returned result =>
        rw [show result = .cxl from hdriver]
        exact Or.inl rfl

end ServerState

end Trftp
