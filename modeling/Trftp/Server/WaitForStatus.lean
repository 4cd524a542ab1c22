import Trftp.Lib.ConditionVariable
import Trftp.Server.Handshake
import Trftp.Server.Registry
import Trftp.Server.Waiting

/-!
# The wait of WaitForStatus

`WaitForStatus` waits on `cv_` until the status differs from `old_status`. The threads that
store a status call `cv_.notify_one` behind it and hold no mutex, so a notification may fall
between the test of the predicate and the blocking. `serverMachine` says only what the wait
is for; here it gets the loop of `cv_.wait_for`.
-/

namespace Trftp

open Lib (EventMachine WaitAction WaitEvent WaitPos WaitState)

/-- `StartFileTransfer` is inside `cv_.wait_for`. -/
def DriverPos.inWait : DriverPos → Bool
  | .waiting _ _ => true
  | .start | .sending _ | .sample _ | .woken _ | .decide _ _ | .finishing | .cancelling | .erase _ | .returned _ => false

/-- The predicate of `cv_.wait_for`. -/
def ServerState.predicate (s : ServerState) : Bool :=
  match s.driver with
  | .waiting _ oldStatus => decide (s.vars.status ≠ oldStatus)
  | .start | .sending _ | .sample _ | .woken _ | .decide _ _ | .finishing | .cancelling | .erase _ | .returned _ => false

/-- `cv_.wait_for` returns false. -/
def ServerAction.isTimeout : ServerAction → Bool
  | .timeout => true
  | .driver | .sender _ | .deliver _ | .receiver | .abort | .abortSend => false

/-- `StartFileTransfer` goes on with what the predicate of its wait says. -/
theorem ServerState.predicate_of_leave {t : ServerTransaction} {s s' : ServerState} {a : ServerAction}
    {e : List ServerEvent} (h : s.step t a = some (s', e)) (hdriver : a.ofDriver = true)
    (hwaiting : s.driver.inWait = true) : s.predicate = !a.isTimeout := by
  cases hpos : s.driver with
  | waiting phase oldStatus =>
    cases a with
    | driver =>
      simp only [step, driverStep, hpos] at h
      split_ifs at h with hstatus
      simpa [predicate, hpos, ServerAction.isTimeout] using hstatus
    | timeout =>
      simp only [step, timeoutStep, hpos] at h
      split_ifs at h with hstatus
      simpa [predicate, hpos, ServerAction.isTimeout] using hstatus
    | sender | deliver | receiver | abort | abortSend => contradiction
  | start | sending | sample | woken | decide | finishing | cancelling | erase | returned =>
    rw [hpos] at hwaiting
    contradiction

/-- The wait of `StartFileTransfer`. The other threads call `cv_.notify_one` behind each status that they set;
its own notifications come before the wait and reach nobody. -/
def waitForStatus (t : ServerTransaction) : Lib.Wait (serverMachine t) where
  waiting s := s.driver.inWait
  ready s := s.predicate
  ofWaiter a := a.ofDriver
  gaveUp a := a.isTimeout
  notifies x := x.setsStatus
  ready_of_leave h hwaiter hwaiting := ServerState.predicate_of_leave h hwaiter hwaiting
  waiting_of_other {s a s' e} h hother := by rw [ServerState.driver_of_other hother h]
  notifies_of_ready {s a s' e} h hother hbefore hafter := by
    by_contra hnone
    -- without such an event neither the driver nor the status has changed
    have hquiet : ∀ x ∈ e, x.setsStatus = false := by
      intro x hx
      have hcount := List.countP_eq_zero.mp (Nat.eq_zero_of_not_pos hnone) x hx
      simpa using hcount
    unfold ServerState.predicate at hbefore hafter
    rw [ServerState.driver_of_other hother h, ServerState.step_status_of_quiet h hquiet, hbefore] at hafter
    contradiction

/-- The loop of `cv_.wait_for` changes nothing that `StartFileTransfer` or its peer can observe.

Whatever wakes it up, and whenever the notifications are made or get lost: with the loop, which returns what its
last test of the predicate finds, the transaction reports exactly the sequences of events that it reports when the
wait ends as soon as the status has changed, and reaches the same states behind them. -/
theorem waitForStatus_refines (t : ServerTransaction) (es : List ServerEvent) (s : ServerState) :
    (serverMachine t).Trace es s ↔
      ∃ xs w, (waitForStatus t).machine.Trace xs w ∧ w.base = s ∧ xs.filterMap WaitEvent.base? = es :=
  Lib.Wait.trace_iff

/-- A lost notification delays `StartFileTransfer` until its timeout, and that is all.

If it is blocked though the status has changed, and no notification is on its way, then a notification came
behind its last test of the predicate and before it blocked. When the timeout expires, it finds the new status. -/
theorem waitForStatus_lost {t : ServerTransaction} {xs : List (WaitEvent ServerEvent)}
    {w : WaitState ServerState} {phase : Phase} {oldStatus : MessageId}
    (htrace : (waitForStatus t).machine.Trace xs w) (hpos : w.pos = .blocked) (howed : w.owed = 0)
    (hwaiting : w.base.driver = .waiting phase oldStatus) (hstatus : w.base.vars.status ≠ oldStatus) :
    (∃ pre mid post, xs = pre ++ .tested :: mid ++ .blocked :: post ∧ Lib.Wait.Quiet mid ∧
      Lib.Wait.Quiet post ∧ .notified ∈ mid) ∧
    ∃ w', (waitForStatus t).machine.exec w [.expire, .base .driver, .base .driver] =
      some (w', [.base (.waited phase (some w.base.vars.status))]) := by
  have hready : w.base.predicate = true := by
    unfold ServerState.predicate
    rw [hwaiting]
    simpa using hstatus
  refine ⟨Lib.Wait.missed_of_blocked htrace hpos hready howed, ?_⟩
  obtain ⟨base, pos, owed⟩ := w
  simp only at hpos hwaiting hstatus
  refine ⟨⟨{ base with driver := .decide phase (some base.vars.status) }, .test, owed⟩, ?_⟩
  simp [EventMachine.exec, Lib.Wait.machine, Lib.Wait.step, Lib.Wait.free, Lib.Wait.after, waitForStatus,
    DriverPos.inWait, ServerAction.ofDriver, ServerAction.isTimeout, ServerState.predicate, serverMachine,
    ServerState.step, ServerState.driverStep, hpos, hwaiting, hstatus]

/-- A CHK is accepted, and its notification made, when `StartFileTransfer` has tested the predicate and has not
blocked yet. -/
def lostSchedule : List (WaitAction ServerAction) :=
  [.base .driver, .base .driver, .base .driver, .base (.deliver (oneByte.reply .chk)), .base .receiver, .test,
    .base .receiver, .notify, .block]

/-- The notification of this CHK is lost, and the timeout finds the CHK. -/
theorem waitForStatus_lost_oneByte :
    ∃ xs w w', (waitForStatus oneByte).machine.exec (Lib.Wait.idle oneByte.registeredState) lostSchedule =
        some (w, xs) ∧ .notified ∈ xs ∧
      (waitForStatus oneByte).machine.exec w [.expire, .base .driver, .base .driver] =
        some (w', [.base (.waited .ntf (some .chk))]) := by
  have hrun : ((waitForStatus oneByte).machine.exec (Lib.Wait.idle oneByte.registeredState) lostSchedule).map
      (fun p => (p.1.pos, p.1.owed, p.1.base.driver, p.1.base.vars.status)) =
        some (.blocked, 0, .waiting .ntf .ntf, .chk) := by decide +kernel
  obtain ⟨⟨w, xs⟩, hexec, hreached⟩ := Option.map_eq_some_iff.mp hrun
  simp only [Prod.mk.injEq] at hreached
  obtain ⟨hpos, howed, hwaiting, hstatus⟩ := hreached
  have htrace : (waitForStatus oneByte).machine.Trace xs w :=
    EventMachine.exec_trace (s := Lib.Wait.idle oneByte.registeredState) ⟨rfl, rfl, rfl⟩ hexec
  obtain ⟨⟨pre, mid, post, hxs, -, -, hmissed⟩, w', hexec'⟩ :=
    waitForStatus_lost htrace hpos howed hwaiting (by rw [hstatus]; simp)
  rw [hstatus] at hexec'
  exact ⟨xs, w, w', hexec, by rw [hxs]; simp [hmissed], hexec'⟩

end Trftp
