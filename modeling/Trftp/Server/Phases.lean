import Trftp.Server.Frame

/-!
# Which request the status can hold

`StartFileTransfer` stores each request once, in the order of the phases. So a request in
the status tells where the driver is: it has not left the wait behind that request, and if
the wait already sampled the status, it sampled the request.
-/

namespace Trftp

/-- Where the driver can be while its request is still in the status. -/
def DriverPos.Holds (phase : Phase) : DriverPos → Prop
  | .start => phase = .ntf
  | .sending p | .sample p => p = phase
  | .waiting p oldStatus => p = phase ∧ oldStatus = phase.request
  | .decide p status => p = phase ∧ status = none
  | .erase result | .returned result => phase = .ntf ∧ result = .ntf
  | .woken _ | .finishing | .cancelling => False

namespace ServerState

/-- A request or FIN in the status, and the positions that go with it. -/
structure PhaseInv (s : ServerState) : Prop where
  request : ∀ phase : Phase, s.vars.status = phase.request → s.driver.Holds phase
  fin : s.vars.status = .fin → s.driver = .finishing ∨ s.driver = .erase .fin ∨ s.driver = .returned .fin

variable {t : ServerTransaction} {e : List ServerEvent} {s s' : ServerState}

/-- The requests of different phases are different messages. -/
theorem request_injective {phase phase' : Phase} (h : phase.request = phase'.request) : phase = phase' := by
  cases phase <;> cases phase' <;> first | rfl | cases h

/-- A status that is neither a request nor FIN satisfies the invariant anywhere. -/
theorem PhaseInv.of_other (hrequest : ∀ phase : Phase, s.vars.status ≠ phase.request)
    (hfin : s.vars.status ≠ .fin) : PhaseInv s :=
  ⟨fun phase h => absurd h (hrequest phase), fun h => absurd h hfin⟩

/-- Client messages and CXL are neither requests nor FIN. -/
theorem PhaseInv.of_reply (h : s.vars.status = .chk ∨ s.vars.status = .rdy ∨ s.vars.status = .done ∨
    s.vars.status = .cxl) : PhaseInv s := by
  refine .of_other (fun phase => ?_) ?_
  · rcases h with h | h | h | h <;> rw [h] <;> cases phase <;> simp [Phase.request]
  · rcases h with h | h | h | h <;> simp [h]

/-- The invariant depends on the status and the driver only. -/
theorem PhaseInv.congr (h : PhaseInv s) (hstatus : s'.vars.status = s.vars.status)
    (hdriver : s'.driver = s.driver) : PhaseInv s' :=
  ⟨fun phase hs => by rw [hdriver]; exact h.request phase (hstatus ▸ hs),
    fun hs => by rw [hdriver]; exact h.fin (hstatus ▸ hs)⟩

/-- The statements of `StartFileTransfer` keep the invariant. -/
theorem driverStep_phaseInv (hinv : PhaseInv s) (h : s.driverStep t = some (s', e)) : PhaseInv s' := by
  have hrequest := hinv.request
  have hfin := hinv.fin
  cases hpos : s.driver <;> simp only [driverStep, hpos] at h hrequest hfin
  case start =>
    cases h
    exact ⟨fun phase hs => request_injective hs, fun hs => by simp at hs⟩
  case sending phase =>
    cases phase <;> cases h <;>
      exact ⟨fun phase hs => hrequest phase hs, fun hs => by simpa using hfin hs⟩
  case sample phase =>
    cases h
    exact ⟨fun phase' hs => ⟨hrequest phase' hs, hs⟩, fun hs => by simpa using hfin hs⟩
  case waiting phase oldStatus =>
    split at h <;> cases h
    -- the predicate saw a status different from the sampled one, so the request is gone
    case isTrue hne =>
      refine ⟨fun phase' hs => hne ?_, fun hs => by simpa using hfin hs⟩
      rw [hs, (hrequest phase' hs).2]
  case woken phase =>
    cases h
    exact ⟨fun phase' hs => (hrequest phase' hs).elim, fun hs => by simpa using hfin hs⟩
  case decide phase status =>
    split at h <;> cases h
    case _ result hverdict =>
      refine ⟨fun phase' hs => ?_, fun hs => by simpa using hfin hs⟩
      obtain ⟨rfl, rfl⟩ := hrequest phase' hs
      cases phase <;> simp_all [Phase.verdict, DriverPos.Holds]
    case _ => exact PhaseInv.of_reply (by simp)
    case _ =>
      cases phase
      case ntf | info =>
        refine ⟨fun phase' hs => ?_, fun hs => by simp [Phase.nextId] at hs⟩
        exact request_injective hs
      case data =>
        refine ⟨fun phase' hs => ?_, fun _ => Or.inl rfl⟩
        cases phase' <;> simp [Phase.nextId, Phase.request] at hs
  case finishing =>
    cases h
    exact ⟨fun phase' hs => (hrequest phase' hs).elim, fun _ => Or.inr (Or.inl rfl)⟩
  case cancelling =>
    cases h
    exact ⟨fun phase' hs => (hrequest phase' hs).elim, fun hs => by simpa using hfin hs⟩
  case erase result =>
    cases h
    exact ⟨fun phase' hs => hrequest phase' hs, fun hs => by simpa using hfin hs⟩
  case returned => contradiction

/-- Every statement keeps the invariant. -/
theorem step_phaseInv {a : ServerAction} (hinv : PhaseInv s) (h : s.step t a = some (s', e)) :
    PhaseInv s' := by
  cases a with
  | driver => exact driverStep_phaseInv hinv h
  | timeout =>
    simp only [step, timeoutStep] at h
    split at h
    · rename_i phase oldStatus hpos
      split at h <;> cases h
      refine ⟨fun phase' hs => ?_, fun hs => ?_⟩
      · have hholds := hinv.request phase' hs
        rw [hpos] at hholds
        exact ⟨hholds.1, rfl⟩
      · simpa [hpos] using hinv.fin hs
    · contradiction
  | sender fileOk =>
    have hframe := senderStep_frame h
    rcases hframe.status with hstatus | ⟨-, hstatus⟩
    · exact hinv.congr hstatus hframe.driver
    · exact PhaseInv.of_reply (by simp [hstatus])
  | deliver r =>
    obtain ⟨hframe, hstatus, -⟩ := deliverStep_frame h
    exact hinv.congr hstatus hframe.driver
  | receiver =>
    rcases receiverStep_eq h with ⟨-, receiver, rfl, -⟩ | ⟨id, r, -, -, haccepted, -, rfl⟩
    · exact hinv.congr (by rfl) (by rfl)
    · by_cases hrtx : id = .rtx
      · subst hrtx
        exact hinv.congr (by rfl) (by rfl)
      · apply PhaseInv.of_reply
        rw [accept, ServerVars.accepted_status haccepted hrtx]
        unfold MessageId.Accepted at haccepted
        tauto
  | abort =>
    obtain ⟨-, rfl, -⟩ := abortStep_eq h
    exact PhaseInv.of_reply (by simp)
  | abortSend =>
    obtain ⟨rfl, -⟩ := abortSendStep_eq h
    exact hinv.congr (by rfl) (by rfl)

end ServerState

/-- In every reachable state the status tells the phase. -/
theorem phaseInv_of_trace {t : ServerTransaction} {es : List ServerEvent} {s : ServerState}
    (h : (serverMachine t).Trace es s) : ServerState.PhaseInv s := by
  refine h.invariant (I := fun _ s => ServerState.PhaseInv s) ?_
    fun _ hinv hstep => ServerState.step_phaseInv hinv hstep
  rintro s rfl
  refine ⟨fun phase hs => ?_, fun hs => by cases hs⟩
  have hntf : phase = .ntf := ServerState.request_injective hs.symm
  exact hntf

end Trftp
