import Trftp.Server.Cancellation

/-!
# When CXL is not final

Wherever CXL is not heeded, some schedule overwrites it, sends INFO or FIN behind it or returns
another value. So the positions that `Heeds` describes are exactly the ones where
cancellation is final.
-/

namespace Trftp

open Lib (EventMachine)

/-- Statements until the sender thread tests the loop condition, behind its cancellation check. -/
def SenderPos.remaining : SenderPos → ℕ
  | .rtxCheck => 9
  | .rtxTake => 8
  | .rtxStore _ => 7
  | .send => 6
  | .eofTest => 5
  | .eofCheck => 4
  | .eofTake => 3
  | .eofStore _ => 2
  | .increment => 1
  | .notStarted | .opening | .init | .loopTest | .cxlCheck => 0
  | .failing | .cancelling | .stopped | .finished => 0

namespace ServerState

variable {t : ServerTransaction} {s s' : ServerState} {es e : List ServerEvent}

/-- Some schedule overwrites the CXL, sends INFO or FIN behind it or returns another value. -/
def Overlooked (t : ServerTransaction) (s : ServerState) : Prop :=
  ∃ as s' es, (serverMachine t).exec s as = some (s', es) ∧
    (s'.vars.status ≠ .cxl ∨ (∃ id p, ServerEvent.sent id p ∈ es ∧ (id = .info ∨ id = .fin)) ∨
      ∃ result, s'.driver = .returned result ∧ result ≠ .cxl)

/-- A CXL that is overlooked is not final. -/
theorem Overlooked.not_final (h : Overlooked t s) :
    ∃ as s' es, (serverMachine t).exec s as = some (s', es) ∧ ¬StaysCancelled t s' es := by
  obtain ⟨as, s', es, hexec, hbad⟩ := h
  refine ⟨as, s', es, hexec, fun hstays => ?_⟩
  rcases hbad with hstatus | ⟨id, p, hmem, hid⟩ | ⟨result, hreturned, hne⟩
  · exact hstatus hstays.status
  · exact hid.elim (hstays.sent id p hmem).1 (hstays.sent id p hmem).2
  · rcases hstays.returns with hcxl | ⟨hreg, -⟩
    · rw [hreturned] at hcxl
      exact hne (by simpa using hcxl)
    · simp [hreturned, DriverPos.registered] at hreg

/-- A CXL is overlooked if it is overlooked behind the next step. -/
theorem Overlooked.of_step {a : ServerAction} (hstep : s.step t a = some (s', e))
    (h : Overlooked t s') : Overlooked t s := by
  obtain ⟨as, s'', es, hexec, hbad⟩ := h
  have hstep' : (serverMachine t).step s a = some (s', e) := hstep
  refine ⟨a :: as, s'', e ++ es, by simp [EventMachine.exec, hstep', hexec], ?_⟩
  rcases hbad with hstatus | ⟨id, p, hmem, hid⟩ | hreturned
  · exact Or.inl hstatus
  · exact Or.inr (Or.inl ⟨id, p, List.mem_append_right e hmem, hid⟩)
  · exact Or.inr (Or.inr hreturned)

/-- A step that stores another status overlooks the CXL. -/
theorem Overlooked.of_status {a : ServerAction} (hstep : s.step t a = some (s', e))
    (h : s'.vars.status ≠ .cxl) : Overlooked t s :=
  .of_step hstep ⟨[], s', [], rfl, Or.inl h⟩

/-- A step that sends INFO or FIN overlooks the CXL. -/
theorem Overlooked.of_sent {a : ServerAction} {id : MessageId} {p : Packet}
    (hstep : s.step t a = some (s', [.sent id p])) (h : id = .info ∨ id = .fin) : Overlooked t s := by
  have hstep' : (serverMachine t).step s a = some (s', [.sent id p]) := hstep
  exact ⟨[a], s', [.sent id p], by simp [EventMachine.exec, hstep'],
    Or.inr (Or.inl ⟨id, p, List.mem_singleton_self _, h⟩)⟩

/-! ## `StartFileTransfer` -/

/-- About to return another value. -/
theorem overlooked_erase {result : MessageId} (hpos : s.driver = .erase result) (hne : result ≠ .cxl) :
    Overlooked t s := by
  have hstep : s.step t .driver = some ({ s with driver := .returned result }, [.returned result]) := by
    simp [step, driverStep, hpos]
  exact .of_step hstep ⟨[], _, [], rfl, Or.inr (Or.inr ⟨result, rfl, hne⟩)⟩

/-- A wait that returned a response or, in the first phase, nothing. -/
theorem overlooked_decide {phase : Phase} {status : Option MessageId}
    (hpos : s.driver = .decide phase status)
    (h : ¬(phase.verdict status = .cancel ∨ phase.verdict status = .giveUp .cxl)) : Overlooked t s := by
  cases hverdict : phase.verdict status with
  | cancel => exact absurd (Or.inl hverdict) h
  | giveUp result =>
    have hstep : s.step t .driver = some ({ s with driver := .erase result }, []) := by
      simp [step, driverStep, hpos, hverdict]
    exact .of_step hstep (overlooked_erase rfl fun heq => h (Or.inr (heq ▸ hverdict)))
  | proceed =>
    have hstep : s.step t .driver =
        some ({ s.setStatus phase.nextId with driver := phase.nextPos }, [.stored phase.nextId]) := by
      simp [step, driverStep, hpos, hverdict]
    exact .of_status hstep (by cases phase <;> simp [Phase.nextId])

/-- A first wait that has sampled the CXL times out. -/
theorem overlooked_waiting (hcxl : s.vars.status = .cxl) (hpos : s.driver = .waiting .ntf .cxl) :
    Overlooked t s := by
  have hstep : s.step t .timeout = some ({ s with driver := .decide .ntf none }, [.waited .ntf none]) := by
    simp [step, timeoutStep, hpos, hcxl]
  exact .of_step hstep (overlooked_decide rfl (by decide))

/-- A first wait that is about to sample the CXL. -/
theorem overlooked_sample (hcxl : s.vars.status = .cxl) (hpos : s.driver = .sample .ntf) :
    Overlooked t s := by
  have hstep : s.step t .driver = some ({ s with driver := .waiting .ntf .cxl }, [.sampled .ntf]) := by
    simp [step, driverStep, hpos, hcxl]
  exact .of_step hstep (overlooked_waiting hcxl rfl)

/-- Where `StartFileTransfer` does not heed the CXL, it goes on to overlook it. -/
theorem overlooked_of_driver (hcxl : s.vars.status = .cxl) (hreg : s.driver.registered = true)
    (hpos : ¬s.driver.Heeds) : Overlooked t s := by
  cases hdriver : s.driver <;> rw [hdriver] at hpos hreg
  case start =>
    have hstep : s.step t .driver =
        some ({ s.setStatus .ntf with driver := .sending .ntf }, [.stored .ntf]) := by
      simp [step, driverStep, hdriver]
    exact .of_status hstep (by simp)
  case finishing =>
    have hstep : s.step t .driver =
        some ({ s with driver := .erase .fin }, [.sent .fin (t.packet s.vars.clientAddress .fin)]) := by
      simp [step, driverStep, hdriver]
    exact .of_sent hstep (Or.inr rfl)
  case sending phase =>
    cases phase with
    | ntf =>
      have hstep : s.step t .driver =
          some ({ s with driver := .sample .ntf },
            [.sent .ntf (t.packet s.vars.clientAddress .ntf)]) := by
        simp [step, driverStep, hdriver, Phase.request]
      exact .of_step hstep (overlooked_sample hcxl rfl)
    | info =>
      have hstep : s.step t .driver =
          some ({ s with driver := .sample .info },
            [.sent .info (t.packet s.vars.clientAddress .info)]) := by
        simp [step, driverStep, hdriver, Phase.request]
      exact .of_sent hstep (Or.inl rfl)
    | data => exact absurd rfl hpos
  case sample phase => exact overlooked_sample hcxl (by rw [hdriver, of_not_not hpos])
  case waiting phase oldStatus =>
    obtain ⟨hphase, hold⟩ := not_or.mp hpos
    exact overlooked_waiting hcxl (by rw [hdriver, of_not_not hphase, of_not_not hold])
  case woken | cancelling => exact absurd trivial hpos
  case decide phase status => exact overlooked_decide hdriver hpos
  case erase result => exact overlooked_erase hdriver hpos
  case returned result => contradiction

/-! ## `OnReceive` -/

/-- Within an iteration the sender thread can go on, and it goes on to the counter that is foreseen. -/
theorem senderStep_advance (hinv : SendingInv t es s) (hpos : s.sender.remaining ≠ 0) :
    ∃ s' e, s.senderStep t true = some (s', e) ∧ nextCounter t s' = nextCounter t s ∧
      s'.receiver = s.receiver ∧ s'.sender.remaining < s.sender.remaining := by
  have hsender := hinv.sender
  unfold SenderOk at hsender
  cases h : s.sender <;> simp only [h] at hpos hsender <;> try exact absurd rfl hpos
  case rtxCheck =>
    by_cases hslot : s.vars.retransmitPsn = noRetransmit
    · exact ⟨{ s with sender := .send }, [], by simp [senderStep, h, hslot],
        by simp [nextCounter, h, hslot], rfl, by simp [SenderPos.remaining]⟩
    · exact ⟨{ s with sender := .rtxTake }, [], by simp [senderStep, h, hslot],
        by simp [nextCounter, h, hslot], rfl, by simp [SenderPos.remaining]⟩
  case rtxTake =>
    exact ⟨{ s.setRetransmit noRetransmit with sender := .rtxStore s.vars.retransmitPsn }, [],
      by simp [senderStep, h], by simp [nextCounter, h], rfl, by simp [SenderPos.remaining]⟩
  case rtxStore psn =>
    exact ⟨{ s.setPsn psn with sender := .send }, [],
      by simp [senderStep, h], by simp [nextCounter, h], rfl, by simp [SenderPos.remaining]⟩
  case send =>
    have hlt : s.vars.packetSequenceNumber < t.totalPacketNumber := UInt32.lt_iff_toNat_lt.mpr hsender.1
    exact ⟨{ s with sender := .eofTest }, _,
      by simp [senderStep, h, ServerTransaction.readData_eq hlt]; rfl,
      by simp [nextCounter, h], rfl, by simp [SenderPos.remaining]⟩
  case eofTest =>
    by_cases hlast : s.vars.packetSequenceNumber = t.totalPacketNumber - 1
    · refine ⟨{ s with sender := .eofCheck }, [], by simp [senderStep, h, hlast], ?_, rfl,
        by simp [SenderPos.remaining]⟩
      simp [nextCounter, counterAfter, h, hlast]
    · refine ⟨{ s with sender := .increment }, [], by simp [senderStep, h, hlast], ?_, rfl,
        by simp [SenderPos.remaining]⟩
      simp [nextCounter, counterAfter, h, hlast]
  case eofCheck =>
    by_cases hslot : s.vars.retransmitPsn = noRetransmit
    · exact ⟨{ s with sender := .increment }, [], by simp [senderStep, h, hslot],
        by simp [nextCounter, h, hslot], rfl, by simp [SenderPos.remaining]⟩
    · exact ⟨{ s with sender := .eofTake }, [], by simp [senderStep, h, hslot],
        by simp [nextCounter, h, hslot], rfl, by simp [SenderPos.remaining]⟩
  case eofTake =>
    exact ⟨{ s.setRetransmit noRetransmit with sender := .eofStore s.vars.retransmitPsn }, [],
      by simp [senderStep, h], by simp [nextCounter, h], rfl, by simp [SenderPos.remaining]⟩
  case eofStore psn =>
    exact ⟨{ s.setPsn psn with sender := .increment }, [],
      by simp [senderStep, h], by simp [nextCounter, h], rfl, by simp [SenderPos.remaining]⟩
  case increment =>
    exact ⟨{ s.setPsn (s.vars.packetSequenceNumber + 1) with sender := .loopTest }, [],
      by simp [senderStep, h], by simp [nextCounter, h], rfl, by simp [SenderPos.remaining]⟩

/-- The sender thread, left to itself, brings the counter to what is foreseen, the packet count. -/
theorem exec_nextCounter (hinv : SendingInv t es s) (hnext : nextCounter t s = some t.totalPacketNumber) :
    ∃ as s' es', (serverMachine t).exec s as = some (s', es') ∧ s'.receiver = s.receiver ∧
      s'.vars.packetSequenceNumber = t.totalPacketNumber := by
  -- the induction is on the statements up to the next test of the loop condition
  induction hn : s.sender.remaining using Nat.strong_induction_on generalizing s es with
  | _ n ih =>
    by_cases hpos : s.sender.remaining = 0
    · refine ⟨[], s, [], rfl, rfl, ?_⟩
      have hsender := hinv.sender
      unfold SenderOk at hsender
      cases h : s.sender <;> simp only [h, nextCounter, SenderPos.remaining] at hsender hpos hnext
      case notStarted | opening | init =>
        rw [← Option.some.inj hnext]
        exact UInt32.toNat_inj.mp hsender
      case loopTest | failing | cancelling | stopped | finished => exact Option.some.inj hnext
      all_goals contradiction
    · obtain ⟨s₁, e₁, hstep, hsame, hreceiver, hless⟩ := senderStep_advance hinv hpos
      have hinv' : SendingInv t (es ++ e₁) s₁ := step_sendingInv (a := .sender true) hinv hstep
      obtain ⟨as, s', es', hexec, hkeep, hend⟩ := ih _ (hn ▸ hless) hinv' (hsame.trans hnext) rfl
      have hstep' : (serverMachine t).step s (.sender true) = some (s₁, e₁) := hstep
      exact ⟨.sender true :: as, s', e₁ ++ es', by simp [EventMachine.exec, hstep', hexec],
        hkeep.trans hreceiver, hend⟩

/-- A CXL is overlooked if it is overlooked behind a schedule. -/
theorem Overlooked.of_exec {as : List ServerAction} (hexec : (serverMachine t).exec s as = some (s', e))
    (h : Overlooked t s') : Overlooked t s := by
  induction as generalizing s e with
  | nil =>
    cases hexec
    exact h
  | cons a as ih =>
    obtain ⟨⟨s₁, e₁⟩, hstep, hexec⟩ := Option.bind_eq_some_iff.mp hexec
    obtain ⟨⟨s₂, es₂⟩, hexec₂, heq⟩ := Option.map_eq_some_iff.mp hexec
    cases heq
    exact .of_step hstep (ih hexec₂)

/-- A response that passed its checks is stored over the CXL. -/
theorem overlooked_commit {r : Received} (hpos : s.receiver = .commit r)
    (h : ¬(r.id? ≠ some .chk ∧ r.id? ≠ some .rdy ∧ r.id? ≠ some .done)) : Overlooked t s := by
  have hid : r.id? = some .chk ∨ r.id? = some .rdy ∨ r.id? = some .done := by
    by_contra hnone
    obtain ⟨hchk, hrdy, hdone⟩ := not_or.mp hnone |>.imp_right not_or.mp
    exact h ⟨hchk, hrdy, hdone⟩
  have hstep : ∃ s' e, s.step t .receiver = some (s', e) ∧ s'.vars.status ≠ .cxl := by
    rcases hid with hid | hid | hid <;> simp [step, receiverStep, hpos, hid, accept]
  obtain ⟨s', e, hstep, hstatus⟩ := hstep
  exact .of_status hstep hstatus

/-- Where `OnReceive` does not heed the CXL, it goes on to overwrite it. -/
theorem overlooked_of_receiver (hinv : SendingInv t es s) (hpos : ¬ReceiverHeeds t s) :
    Overlooked t s := by
  unfold ReceiverHeeds at hpos
  cases hreceiver : s.receiver <;> simp only [hreceiver] at hpos
  case idle | phaseCheck => exact absurd trivial hpos
  case commit r => exact overlooked_commit hreceiver hpos
  case psnCheck r =>
    simp only [Classical.not_imp, ne_eq, not_not] at hpos
    obtain ⟨hid, hvalid, hnext⟩ := hpos
    obtain ⟨as, s', es', hexec, hkeep, hcount⟩ := exec_nextCounter hinv hnext
    rw [hreceiver] at hkeep
    have hstep : s'.step t .receiver = some ({ s' with receiver := .commit r }, []) := by
      simp [step, receiverStep, hkeep, hid, hcount, hvalid]
    exact .of_exec hexec (.of_step hstep (overlooked_commit rfl (by simp [hid])))

end ServerState

/-- Cancellation is final exactly where CXL is heeded.

CXL stands in the status of a reachable state before `StartFileTransfer` has returned. In
every schedule from there the status stays CXL, no INFO or FIN is sent, nothing is transmitted
behind a cancellation check of the sender, and `StartFileTransfer` returns CXL after at most 18 of its
statements, none of which blocks, if and only if neither `StartFileTransfer` nor `OnReceive` is at
a position from which it overwrites the status or overlooks it. -/
theorem cancellation_final_iff {t : ServerTransaction} {es : List ServerEvent} {s : ServerState}
    (h : (serverMachine t).Trace es s) (hcxl : s.vars.status = .cxl)
    (hregistered : s.driver.registered = true) :
    (∀ as s' es', (serverMachine t).exec s as = some (s', es') →
      ServerState.StaysCancelled t s' es' ∧ as.countP ServerAction.ofDriver ≤ 18) ↔
    ServerState.Heeds t s := by
  have hinv := sendingInv_of_trace h
  constructor
  · intro hfinal
    by_contra hnot
    have hoverlooked : ServerState.Overlooked t s := by
      by_cases hdriver : s.driver.Heeds
      · exact ServerState.overlooked_of_receiver hinv fun hreceiver => hnot ⟨hdriver, hreceiver⟩
      · exact ServerState.overlooked_of_driver hcxl hregistered hdriver
    obtain ⟨as, s', es', hexec, hbad⟩ := hoverlooked.not_final
    exact hbad (hfinal as s' es' hexec).1
  · intro hheeds as s' es' hexec
    have hcount := ServerState.exec_remaining hexec
    have hle := DriverPos.remaining_le s.driver
    exact ⟨ServerState.staysCancelled_of_run hinv hcxl hheeds (EventMachine.exec_run hexec), by omega⟩

/-- `AbortFileTransfer` during the first wait is final. -/
theorem cancellation_final_waiting :
    ∃ s es, (serverMachine oneByte).exec oneByte.registeredState [.driver, .driver, .driver, .abort] =
        some (s, es) ∧
      ∀ as s' es', (serverMachine oneByte).exec s as = some (s', es') →
        ServerState.StaysCancelled oneByte s' es' ∧ as.countP ServerAction.ofDriver ≤ 18 := by
  have hrun : ((serverMachine oneByte).exec oneByte.registeredState
      [.driver, .driver, .driver, .abort]).map
        (fun p => (p.1.vars.status, p.1.driver, p.1.receiver)) =
      some (.cxl, .waiting .ntf .ntf, .idle) := by decide +kernel
  obtain ⟨⟨s, es⟩, hexec, hs⟩ := Option.map_eq_some_iff.mp hrun
  simp only [Prod.mk.injEq] at hs
  have hheeds : ServerState.Heeds oneByte s := by
    refine ⟨?_, ?_⟩
    · rw [hs.2.1]
      exact Or.inr (by decide)
    · rw [ServerState.ReceiverHeeds, hs.2.2]
      trivial
  exact ⟨s, es, hexec, (cancellation_final_iff (EventMachine.exec_trace rfl hexec) hs.1
    (by rw [hs.2.1]; rfl)).mpr hheeds⟩

/-- `AbortFileTransfer` between the return of the first wait and the storing of INFO is lost. -/
theorem cancellation_lost :
    ¬∀ (t : ServerTransaction) (es : List ServerEvent) (s : ServerState), (serverMachine t).Trace es s →
      s.vars.status = .cxl → s.driver.registered = true →
      ∀ a s' e, s.step t a = some (s', e) → s'.vars.status = .cxl := by
  intro hclaim
  have hrun : ((serverMachine oneByte).exec oneByte.registeredState
      [.driver, .driver, .driver, .deliver (oneByte.reply .chk), .receiver, .receiver, .driver, .driver,
        .abort]).map (fun p => (p.1.vars.status, p.1.driver)) =
      some (.cxl, .decide .ntf (some .chk)) := by decide +kernel
  obtain ⟨⟨s, es⟩, hexec, hs⟩ := Option.map_eq_some_iff.mp hrun
  simp only [Prod.mk.injEq] at hs
  have hstep : s.step oneByte .driver =
      some ({ s.setStatus .info with driver := .sending .info }, [.stored .info]) := by
    simp only [ServerState.step, ServerState.driverStep, hs.2]
    rfl
  have hstays := hclaim oneByte es s (EventMachine.exec_trace rfl hexec) hs.1 (by rw [hs.2]; rfl) _ _ _ hstep
  exact absurd hstays (by simp)

end Trftp
