import Trftp.Server.Phases
import Trftp.Messages

/-!
# A response is seen if it is accepted after the sampling

`SendMessage` stores the request and `WaitForStatus` loads the status to compare with in a
separate statement. A response accepted in between is loaded as the old status: the
predicate of the wait stays false and the wait times out. A response accepted later makes
the predicate true, and the wait cannot time out any more.
-/

namespace Trftp

open Lib (EventMachine)

/-- The status is assigned: by `SendMessage`, or by `OnReceive` for every kind but RTX. -/
def ServerEvent.setsStatus : ServerEvent → Bool
  | .stored _ => true
  | .accepted id _ => id ≠ .rtx
  | _ => false

/-- `StartFileTransfer` is between the storing of a request and the return of the wait behind it. -/
def DriverPos.Awaits (phase : Phase) : DriverPos → Prop
  | .sending p | .sample p | .waiting p _ => p = phase
  | _ => False

/-- A response is accepted while its request is in the status, nothing else assigns the status, and
the wait returns. -/
structure Response (t : ServerTransaction) (phase : Phase) (id : MessageId) (result : Option MessageId)
    (s : ServerState) : Prop where
  reachable : ∃ es, (serverMachine t).Trace es s
  awaits : s.driver.Awaits phase
  request : s.vars.status = phase.request
  returns : ∃ r s₁ s₂ es, s.step t .receiver = some (s₁, [.accepted id r]) ∧ id ≠ .rtx ∧
    (serverMachine t).Run s₁ es s₂ ∧ (∀ e ∈ es, e.setsStatus = false) ∧ s₂.driver = .decide phase result

namespace ServerState

variable {t : ServerTransaction} {phase : Phase} {id : MessageId} {s s' : ServerState} {e : List ServerEvent}

/-- Without an assignment the status stays. -/
theorem step_status_of_quiet {a : ServerAction} (h : s.step t a = some (s', e))
    (hquiet : ∀ x ∈ e, x.setsStatus = false) : s'.vars.status = s.vars.status := by
  rcases step_status h with hkeep | rfl | ⟨r, rfl, hne⟩
  · exact hkeep
  · simp [ServerEvent.setsStatus] at hquiet
  · simp [ServerEvent.setsStatus, hne] at hquiet

/-- Where a wait that found its status changed can be, until the status is assigned again. -/
def Seen (phase : Phase) (id : MessageId) : DriverPos → Prop
  | .waiting p oldStatus => p = phase ∧ oldStatus ≠ id
  | .woken p => p = phase
  | .decide p result => p = phase ∧ result = some id
  | .erase _ | .returned _ => True
  | _ => False

/-- Where a wait that sampled the response can be, until the status is assigned again. -/
def Lost (phase : Phase) (id : MessageId) : DriverPos → Prop
  | .sending p | .sample p => p = phase
  | .waiting p oldStatus => p = phase ∧ oldStatus = id
  | .decide p result => p = phase ∧ result = none
  | .erase _ | .returned _ => True
  | _ => False

/-- While the status is the response, a wait that has seen it keeps it. -/
theorem driverStep_seen (hid : s.vars.status = id) (hpos : Seen phase id s.driver)
    (h : s.driverStep t = some (s', e)) (hquiet : ∀ x ∈ e, x.setsStatus = false) :
    Seen phase id s'.driver := by
  revert h
  fun_cases ServerState.driverStep t s <;> intro h <;> cases h <;>
    simp_all [Seen, ServerEvent.setsStatus]

/-- A wait that has seen the response cannot time out. -/
theorem timeoutStep_seen (hid : s.vars.status = id) (hpos : Seen phase id s.driver)
    (h : s.timeoutStep = some (s', e)) : Seen phase id s'.driver := by
  obtain ⟨phase', hwaiting, rfl, -⟩ := timeoutStep_eq h
  simp_all [Seen]

/-- While the status is the response, a wait that has sampled it never wakes up. -/
theorem driverStep_lost (hid : s.vars.status = id) (hpos : Lost phase id s.driver)
    (h : s.driverStep t = some (s', e)) (hquiet : ∀ x ∈ e, x.setsStatus = false) :
    Lost phase id s'.driver := by
  revert h
  fun_cases ServerState.driverStep t s <;> intro h <;> cases h <;>
    simp_all [Lost, ServerEvent.setsStatus]

/-- A wait that has sampled the response times out with nothing. -/
theorem timeoutStep_lost (hpos : Lost phase id s.driver) (h : s.timeoutStep = some (s', e)) :
    Lost phase id s'.driver := by
  obtain ⟨phase', hwaiting, rfl, -⟩ := timeoutStep_eq h
  simp_all [Lost]

/-- Only the driver moves the driver. -/
theorem step_driver {a : ServerAction} (h : s.step t a = some (s', e)) :
    s'.driver = s.driver ∨ s.driverStep t = some (s', e) ∨ s.timeoutStep = some (s', e) := by
  cases a with
  | driver => exact Or.inr (Or.inl h)
  | timeout => exact Or.inr (Or.inr h)
  | sender fileOk => exact Or.inl (senderStep_frame h).driver
  | deliver r => exact Or.inl (deliverStep_frame h).1.driver
  | receiver => exact Or.inl (receiverStep_frame h).driver
  | abort =>
    obtain ⟨-, rfl, -⟩ := abortStep_eq h
    exact Or.inl rfl
  | abortSend =>
    obtain ⟨rfl, -⟩ := abortSendStep_eq h
    exact Or.inl rfl

/-- Along a run that does not assign the status, it stays what it is, and so does every fact about the
driver's position that the driver's own steps keep. -/
theorem run_of_quiet {pos : DriverPos → Prop} {s₂ : ServerState} {es : List ServerEvent}
    (hdriver : ∀ {s s' : ServerState} {e}, s.vars.status = id → pos s.driver → s.driverStep t = some (s', e) →
      (∀ x ∈ e, x.setsStatus = false) → pos s'.driver)
    (htimeout : ∀ {s s' : ServerState} {e}, s.vars.status = id → pos s.driver →
      s.timeoutStep = some (s', e) → pos s'.driver)
    (hrun : (serverMachine t).Run s es s₂) (hquiet : ∀ x ∈ es, x.setsStatus = false)
    (hid : s.vars.status = id) (hpos : pos s.driver) : s₂.vars.status = id ∧ pos s₂.driver := by
  refine hrun.invariant (I := fun es s' => (∀ x ∈ es, x.setsStatus = false) →
    s'.vars.status = id ∧ pos s'.driver) (fun _ => ⟨hid, hpos⟩) ?_ hquiet
  intro es s a s' e hinv hstep hall
  obtain ⟨hs, hp⟩ := hinv fun x hx => hall x (List.mem_append_left e hx)
  have hnew : ∀ x ∈ e, x.setsStatus = false := fun x hx => hall x (List.mem_append_right es hx)
  refine ⟨(step_status_of_quiet hstep hnew).trans hs, ?_⟩
  rcases step_driver hstep with hkeep | hown | htime
  · rwa [hkeep]
  · exact hdriver hs hp hown hnew
  · exact htimeout hs hp htime

/-- The acceptance of a response: it assigns the status, and it is not a request. -/
theorem receiverStep_accepted {r : Received} (h : s.receiverStep t = some (s', [.accepted id r]))
    (hne : id ≠ .rtx) :
    s'.vars.status = id ∧ s'.driver = s.driver ∧ ∀ phase : Phase, phase.request ≠ id := by
  obtain ⟨-, -, -, -, hstatus, hrequest⟩ := step_accepted (a := .receiver) h (List.mem_singleton_self _)
  exact ⟨hstatus hne, (receiverStep_frame h).driver, hrequest⟩

end ServerState

/-- A response is returned by the wait exactly when it was accepted after the wait had loaded the old
status.

The response is accepted after `SendMessage` has stored the request and before the wait
returns, and nothing else assigns the status. If the wait had begun to compare, it returns the
response, and `StartFileTransfer` goes on with the next phase or returns CXL; if it had not, it
returns nothing. -/
theorem response_seen_iff {t : ServerTransaction} {phase : Phase} {id : MessageId}
    {result : Option MessageId} {s : ServerState} (h : Response t phase id result s) :
    (result = some id ∧ (id = phase.reply → phase.verdict result = .proceed) ∧
      (id = .cxl → phase.verdict result = .giveUp .cxl)) ↔
    s.driver = .waiting phase phase.request := by
  obtain ⟨es, htrace⟩ := h.reachable
  obtain ⟨r, s₁, s₂, es', haccept, hne, hrun, hquiet, hdecide⟩ := h.returns
  have hholds := (phaseInv_of_trace htrace).request phase h.request
  obtain ⟨hstatus, hdriver, hother⟩ := ServerState.receiverStep_accepted haccept hne
  have hawaits := h.awaits
  constructor
  · rintro ⟨hresult, -, -⟩
    by_contra hnot
    -- the wait has not loaded the old status yet, so it will load the response
    have hlost : ServerState.Lost phase id s₁.driver := by
      rw [hdriver]
      cases hpos : s.driver <;> simp only [hpos, DriverPos.Awaits, DriverPos.Holds] at hawaits hholds
      case sending | sample => exact hholds
      case waiting p oldStatus =>
        obtain ⟨rfl, rfl⟩ := hholds
        exact absurd hpos hnot
    have hend := (ServerState.run_of_quiet ServerState.driverStep_lost
      (fun _ => ServerState.timeoutStep_lost) hrun hquiet hstatus hlost).2
    rw [hdecide] at hend
    rw [hresult] at hend
    exact absurd hend.2 (by simp)
  · intro hpos
    have hseen : ServerState.Seen phase id s₁.driver := by
      rw [hdriver, hpos]
      exact ⟨rfl, hother phase⟩
    have hend := (ServerState.run_of_quiet ServerState.driverStep_seen
      ServerState.timeoutStep_seen hrun hquiet hstatus hseen).2
    rw [hdecide] at hend
    obtain ⟨-, rfl⟩ := hend
    refine ⟨rfl, ?_, ?_⟩
    · rintro rfl
      cases phase <;> rfl
    · rintro rfl
      cases phase <;> rfl

/-- A CHK that is about to be accepted, with the driver at a given position. -/
def answeredState (driver : DriverPos) : ServerState where
  vars := { oneByte.initialVars with clientAddress := smallClient.udpSocket }
  driver := driver
  sender := .notStarted
  receiver := .commit (oneByte.reply .chk)
  aborts := 0

/-- The state behind the acceptance. -/
def acceptedState (driver : DriverPos) : ServerState :=
  (answeredState driver).accept { (answeredState driver).vars with
    curFileVersion := (oneByte.reply .chk).msg.chk.curFileVersion, status := .chk }

/-- The acceptance is one statement. -/
theorem answeredState_step (driver : DriverPos) :
    (answeredState driver).step oneByte .receiver =
      some (acceptedState driver, [.accepted .chk (oneByte.reply .chk)]) := by
  have hid : (oneByte.reply .chk).id? = some .chk := by decide +kernel
  simp only [ServerState.step, ServerState.receiverStep, answeredState, hid]
  rfl

/-- A response whose schedules before and behind the acceptance can be executed. -/
theorem response_of_schedule {driver : DriverPos} {result : Option MessageId}
    (hawaits : driver.Awaits .ntf) (before after : List ServerAction)
    (hbefore : ((serverMachine oneByte).exec oneByte.registeredState before).map (·.1) =
      some (answeredState driver))
    (hafter : ((serverMachine oneByte).exec (acceptedState driver) after).map
      (fun p => (p.1.driver, p.2.all fun e => !e.setsStatus)) = some (.decide .ntf result, true)) :
    Response oneByte .ntf .chk result (answeredState driver) := by
  obtain ⟨⟨s, es⟩, hexec, hs⟩ := Option.map_eq_some_iff.mp hbefore
  obtain ⟨⟨s₂, es₂⟩, hexec₂, hs₂⟩ := Option.map_eq_some_iff.mp hafter
  simp only [Prod.mk.injEq, List.all_eq_true, Bool.not_eq_true'] at hs₂
  subst hs
  exact ⟨⟨es, EventMachine.exec_trace rfl hexec⟩, hawaits, rfl, oneByte.reply .chk, _, s₂, es₂,
    answeredState_step driver, by decide, EventMachine.exec_run hexec₂, hs₂.2, hs₂.1⟩

/-- A CHK that is accepted during the wait is returned by it. -/
theorem response_seen_waiting :
    Response oneByte .ntf .chk (some .chk) (answeredState (.waiting .ntf .ntf)) ∧
      (some .chk = some MessageId.chk ∧
        (MessageId.chk = Phase.ntf.reply → Phase.ntf.verdict (some .chk) = .proceed) ∧
        (MessageId.chk = .cxl → Phase.ntf.verdict (some .chk) = .giveUp .cxl)) := by
  have hresponse : Response oneByte .ntf .chk (some .chk) (answeredState (.waiting .ntf .ntf)) :=
    response_of_schedule rfl [.driver, .driver, .driver, .deliver (oneByte.reply .chk), .receiver]
      [.driver, .driver] (by decide +kernel) (by decide +kernel)
  exact ⟨hresponse, (response_seen_iff hresponse).mpr rfl⟩

/-- A CHK that is accepted between the storing of NTF and the sampling is not returned: the wait times
out, and `StartFileTransfer` takes the client for unreachable. -/
theorem response_lost :
    ¬∀ (t : ServerTransaction) (phase : Phase) (id : MessageId) (result : Option MessageId)
      (s : ServerState), Response t phase id result s → result = some id := by
  intro hclaim
  have hresponse : Response oneByte .ntf .chk none (answeredState (.sample .ntf)) :=
    response_of_schedule rfl [.driver, .driver, .deliver (oneByte.reply .chk), .receiver]
      [.driver, .timeout] (by decide +kernel) (by decide +kernel)
  exact absurd (hclaim _ _ _ _ _ hresponse) (by simp)

end Trftp
