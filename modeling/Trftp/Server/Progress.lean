import Trftp.Server.Frame

/-!
# `StartFileTransfer` returns

`StartFileTransfer` has no loop. Each of its statements brings it closer to its return, and
none of them blocks for good: a wait whose predicate stays false ends by its timeout. So in
a schedule that lets it go on it returns, whatever the other parties do.
-/

namespace Trftp

open Lib (EventMachine)

/-- Statements that are left behind the wait of a phase, at most. -/
def Phase.remaining : Phase → ℕ
  | .ntf => 10
  | .info => 5
  | .data => 0

/-- Statements of `StartFileTransfer` that are left, at most. -/
def DriverPos.remaining : DriverPos → ℕ
  | .start => 18
  | .sending phase => phase.remaining + 7
  | .sample phase => phase.remaining + 6
  | .waiting phase _ => phase.remaining + 5
  | .woken phase => phase.remaining + 4
  | .decide phase _ => phase.remaining + 3
  | .finishing | .cancelling => 2
  | .erase _ => 1
  | .returned _ => 0

/-- The steps of `StartFileTransfer`. -/
def ServerAction.ofDriver : ServerAction → Bool
  | .driver | .timeout => true
  | _ => false

/-- `StartFileTransfer` has 18 statements at most. -/
theorem DriverPos.remaining_le (pos : DriverPos) : pos.remaining ≤ 18 := by
  cases pos with
  | sending phase | sample phase | waiting phase | woken phase | decide phase =>
    cases phase <;> simp [remaining, Phase.remaining]
  | start | finishing | cancelling | erase | returned => simp [remaining]

namespace ServerState

variable {t : ServerTransaction} {s s' : ServerState} {e es : List ServerEvent}

/-- A statement of `StartFileTransfer` leaves fewer to do. -/
theorem driverStep_remaining (h : s.driverStep t = some (s', e)) :
    s'.driver.remaining < s.driver.remaining := by
  cases hpos : s.driver <;> simp only [driverStep, hpos] at h
  case start | sample | woken | finishing | cancelling | erase =>
    cases h
    simp [DriverPos.remaining, Phase.remaining]
  case sending phase =>
    cases phase <;> cases h <;> simp [DriverPos.remaining]
  case waiting phase oldStatus =>
    split at h <;> cases h
    simp [DriverPos.remaining]
  case decide phase status =>
    split at h <;> cases h
    case h_3 => cases phase <;> simp [DriverPos.remaining, Phase.remaining, Phase.nextPos]
    all_goals
      simp only [DriverPos.remaining]
      omega
  case returned => contradiction

/-- So does a timeout. -/
theorem timeoutStep_remaining (h : s.timeoutStep = some (s', e)) :
    s'.driver.remaining < s.driver.remaining := by
  obtain ⟨phase, hwaiting, rfl, -⟩ := timeoutStep_eq h
  rw [hwaiting]
  simp only [DriverPos.remaining]
  omega

/-- The other parties leave `StartFileTransfer` where it is. -/
theorem step_remaining {a : ServerAction} (h : s.step t a = some (s', e)) :
    s'.driver.remaining + (if a.ofDriver then 1 else 0) ≤ s.driver.remaining := by
  cases a with
  | driver => exact driverStep_remaining h
  | timeout => exact timeoutStep_remaining h
  | sender fileOk => exact (congrArg DriverPos.remaining (senderStep_frame h).driver).le
  | deliver r => exact (congrArg DriverPos.remaining (deliverStep_frame h).1.driver).le
  | receiver => exact (congrArg DriverPos.remaining (receiverStep_frame h).driver).le
  | abort =>
    obtain ⟨-, rfl, -⟩ := abortStep_eq h
    exact le_rfl
  | abortSend =>
    obtain ⟨rfl, -⟩ := abortSendStep_eq h
    exact le_rfl

/-- No schedule holds more steps of `StartFileTransfer` than are left. -/
theorem exec_remaining {as : List ServerAction} (h : (serverMachine t).exec s as = some (s', es)) :
    s'.driver.remaining + as.countP ServerAction.ofDriver ≤ s.driver.remaining := by
  induction as generalizing s es with
  | nil =>
    cases h
    exact le_rfl
  | cons a as ih =>
    obtain ⟨⟨s₁, e₁⟩, hstep, h⟩ := Option.bind_eq_some_iff.mp h
    obtain ⟨⟨s₂, es₂⟩, hexec, h⟩ := Option.map_eq_some_iff.mp h
    cases h
    have hfirst := step_remaining hstep
    have hrest := ih hexec
    rw [List.countP_cons]
    simp only at hrest ⊢
    omega

/-- Until it has returned, `StartFileTransfer` can go on. -/
theorem driver_enabled (h : s.driver.registered = true) :
    ∃ a : ServerAction, a.ofDriver = true ∧ ∃ p, s.step t a = some p := by
  cases hpos : s.driver <;> rw [hpos] at h
  case returned => simp [DriverPos.registered] at h
  case waiting phase oldStatus =>
    by_cases hstatus : s.vars.status = oldStatus
    · exact ⟨.timeout, rfl, by simp [step, timeoutStep, hpos, hstatus]⟩
    · exact ⟨.driver, rfl, by simp [step, driverStep, hpos, hstatus]⟩
  case sending phase => exact ⟨.driver, rfl, by cases phase <;> simp [step, driverStep, hpos]⟩
  case decide phase status =>
    refine ⟨.driver, rfl, ?_⟩
    simp only [step, driverStep, hpos]
    cases phase.verdict status <;> simp
  all_goals exact ⟨.driver, rfl, by simp [step, driverStep, hpos]⟩

/-- Left to itself, `StartFileTransfer` returns. -/
theorem exec_returned (s : ServerState) :
    ∃ as s' es, (∀ a ∈ as, ServerAction.ofDriver a = true) ∧
      (serverMachine t).exec s as = some (s', es) ∧ s'.driver.registered = false := by
  -- the induction is on the statements that are left
  induction hn : s.driver.remaining using Nat.strong_induction_on generalizing s with
  | _ n ih =>
    cases hreg : s.driver.registered with
    | false => exact ⟨[], s, [], by simp, rfl, hreg⟩
    | true =>
      obtain ⟨a, ha, ⟨s₁, e⟩, hstep⟩ := driver_enabled (t := t) hreg
      have hless := step_remaining hstep
      rw [if_pos ha] at hless
      obtain ⟨as, s', es, hall, hexec, hend⟩ := ih s₁.driver.remaining (by omega) s₁ rfl
      refine ⟨a :: as, s', e ++ es, by simpa [ha] using hall, ?_, hend⟩
      have hstep' : (serverMachine t).step s a = some (s₁, e) := hstep
      simp [EventMachine.exec, hstep', hexec]

end ServerState

end Trftp
