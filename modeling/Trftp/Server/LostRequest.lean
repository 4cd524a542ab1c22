import Trftp.Server.Retransmission
import Trftp.Server.Phases
import Trftp.Server.Slices

/-!
# When a retransmission request is lost

At every position that does not honour a request there is a continuation in which the sender
thread, working alone, finishes without the requested packet or starts the next iteration with
another one. So the positions that `Honours` describes are exactly those at which a request
is honoured.
-/

namespace Trftp

open Lib (EventMachine)

/-- Behind the request that starts the sender thread. -/
def DriverPos.dataRequested : DriverPos → Bool
  | .sample phase | .waiting phase _ | .woken phase | .decide phase _ => phase = .data
  | _ => false

namespace ServerState

variable {t : ServerTransaction} {s s' : ServerState} {es₀ es e : List ServerEvent} {p : UInt32}

/-- Some schedule of the sender thread, behind these events, does not honour the request. -/
def CanLose (t : ServerTransaction) (p : UInt32) (es : List ServerEvent) (s : ServerState) : Prop :=
  ∃ as s' e, (serverMachine t).exec s as = some (s', e) ∧ (∀ r, .accepted .rtx r ∉ e) ∧
    ¬RequestHonoured p (es ++ e) s'

/-- A request is lost if it is lost behind the next step. -/
theorem CanLose.of_step {a : ServerAction} (hstep : s.step t a = some (s', e))
    (hquiet : ∀ r, .accepted .rtx r ∉ e) (h : CanLose t p (es ++ e) s') : CanLose t p es s := by
  obtain ⟨as, s'', e', hexec, hquiet', hbad⟩ := h
  have hstep' : (serverMachine t).step s a = some (s', e) := hstep
  refine ⟨a :: as, s'', e ++ e', by simp [EventMachine.exec, hstep', hexec], ?_, by rwa [← List.append_assoc]⟩
  exact fun r hmem => (List.mem_append.mp hmem).elim (hquiet r) (hquiet' r)

/-- A step that shows nothing. -/
theorem CanLose.of_silent {a : ServerAction} (hstep : s.step t a = some (s', [])) (h : CanLose t p es s') :
    CanLose t p es s :=
  .of_step hstep (by simp) (by rwa [List.append_nil])

/-! ## The loop ends without the packet -/

/-- The sender thread has finished. -/
theorem lost_finished (hpos : s.sender = .finished) (hsent : ¬Sent p es) : CanLose t p es s :=
  ⟨[], s, [], rfl, by simp, fun hhonoured => hsent (by rw [← List.append_nil es]; exact hhonoured.finished hpos)⟩

/-- The next test of the loop condition fails. -/
theorem lost_loopTest (hpos : s.sender = .loopTest)
    (hend : s.vars.packetSequenceNumber = t.totalPacketNumber) (hsent : ¬Sent p es) : CanLose t p es s := by
  have hstep : s.step t (.sender true) = some ({ s with sender := .finished }, [.finished]) := by
    simp [step, senderStep, hpos, hend]
  refine .of_step hstep (by simp) (lost_finished rfl ?_)
  rintro ⟨packet, hmem⟩
  exact hsent ⟨packet, by simpa using hmem⟩

/-- The increment behind the last packet. -/
theorem lost_increment (hpos : s.sender = .increment)
    (hend : s.vars.packetSequenceNumber + 1 = t.totalPacketNumber) (hsent : ¬Sent p es) : CanLose t p es s := by
  have hstep : s.step t (.sender true) =
      some ({ s.setPsn (s.vars.packetSequenceNumber + 1) with sender := .loopTest }, []) := by
    simp [step, senderStep, hpos]
  exact .of_silent hstep (lost_loopTest rfl hend hsent)

/-! ## The next iteration transmits another packet -/

/-- The next iteration finds the slot empty and another number in the counter. -/
theorem lost_iteration (hpos : s.sender = .loopTest)
    (hlt : s.vars.packetSequenceNumber < t.totalPacketNumber) (hne : s.vars.packetSequenceNumber ≠ p)
    (hslot : s.vars.retransmitPsn = noRetransmit) (hstatus : s.vars.status ≠ .cxl)
    (hnone : .iteration ∉ es) : CanLose t p es s := by
  have hread := ServerTransaction.readData_eq hlt
  have hexec : (serverMachine t).exec s (List.replicate 4 (.sender true)) =
      some ({ s with sender := .eofTest }, [.iteration, .checked, .transmitted s.vars.packetSequenceNumber
        (t.dataPacket s.vars.clientAddress s.vars.packetSequenceNumber
          (Lib.chunk sizeofPayload t.served s.vars.packetSequenceNumber.toNat))]) := by
    simp [List.replicate, EventMachine.exec, serverMachine, step, senderStep, hpos, hlt, hslot, hstatus, hread]
  refine ⟨_, _, _, hexec, by simp, fun hhonoured => ?_⟩
  have hfirst := hhonoured.iteration (by simp)
  rw [nextTransmission_append_of_notMem hnone] at hfirst
  rcases hfirst with hfirst | ⟨hfirst, -⟩
  · exact hne (Option.some.inj hfirst)
  · cases hfirst

/-- The increment leads to another packet than the requested one. -/
theorem lost_skipped (hpos : s.sender = .increment) (hp : s.vars.packetSequenceNumber = p)
    (hlt : p.toNat < t.totalPacketNumber.toNat) (hend : p + 1 ≠ t.totalPacketNumber)
    (hslot : s.vars.retransmitPsn = noRetransmit) (hstatus : s.vars.status ≠ .cxl)
    (hnone : .iteration ∉ es) : CanLose t p es s := by
  have hstep : s.step t (.sender true) =
      some ({ s.setPsn (s.vars.packetSequenceNumber + 1) with sender := .loopTest }, []) := by
    simp [step, senderStep, hpos]
  have hsucc := Lib.toNat_succ_of_lt hlt
  have hne : (p + 1).toNat ≠ t.totalPacketNumber.toNat := fun heq => hend (UInt32.toNat_inj.mp heq)
  refine .of_silent hstep (lost_iteration rfl ?_ ?_ hslot hstatus hnone)
  · rw [hp, UInt32.lt_iff_toNat_lt]
    simp only [setPsn_psn]
    omega
  · rw [hp]
    intro heq
    have htoNat : (p + 1).toNat = p.toNat := congrArg UInt32.toNat heq
    omega

/-! ## The second check of the slot -/

/-- The request is about to be stored in the counter behind the last packet, and then incremented. -/
theorem lost_eofStore (hpos : s.sender = .eofStore p) (hlt : p.toNat < t.totalPacketNumber.toNat)
    (hslot : s.vars.retransmitPsn = noRetransmit) (hstatus : s.vars.status ≠ .cxl)
    (hnone : .iteration ∉ es) (hsent : ¬Sent p es) : CanLose t p es s := by
  have hstep : s.step t (.sender true) = some ({ s.setPsn p with sender := .increment }, []) := by
    simp [step, senderStep, hpos]
  refine .of_silent hstep ?_
  by_cases hend : p + 1 = t.totalPacketNumber
  · exact lost_increment rfl hend hsent
  · exact lost_skipped rfl rfl hlt hend hslot hstatus hnone

/-- The request is about to be taken out of the slot behind the last packet. -/
theorem lost_eofTake (hpos : s.sender = .eofTake) (hlt : p.toNat < t.totalPacketNumber.toNat)
    (hslot : s.vars.retransmitPsn = p) (hstatus : s.vars.status ≠ .cxl) (hnone : .iteration ∉ es)
    (hsent : ¬Sent p es) : CanLose t p es s := by
  have hstep : s.step t (.sender true) =
      some ({ s.setRetransmit noRetransmit with sender := .eofStore p }, []) := by
    simp [step, senderStep, hpos, hslot]
  exact .of_silent hstep (lost_eofStore rfl hlt rfl hstatus hnone hsent)

/-- The sender thread waits behind the last packet. -/
theorem lost_eofCheck (hpos : s.sender = .eofCheck) (hlt : p.toNat < t.totalPacketNumber.toNat)
    (hslot : s.vars.retransmitPsn = p) (hstatus : s.vars.status ≠ .cxl) (hnone : .iteration ∉ es)
    (hsent : ¬Sent p es) : CanLose t p es s := by
  have hp : p ≠ noRetransmit := t.ne_noRetransmit_of_le hlt.le
  have hstep : s.step t (.sender true) = some ({ s with sender := .eofTake }, []) := by
    simp [step, senderStep, hpos, hslot, hp]
  exact .of_silent hstep (lost_eofTake rfl hlt hslot hstatus hnone hsent)

/-- The last packet has been transmitted. -/
theorem lost_eofTest (hpos : s.sender = .eofTest)
    (hend : s.vars.packetSequenceNumber + 1 = t.totalPacketNumber)
    (hlt : p.toNat < t.totalPacketNumber.toNat) (hslot : s.vars.retransmitPsn = p)
    (hstatus : s.vars.status ≠ .cxl) (hnone : .iteration ∉ es) (hsent : ¬Sent p es) : CanLose t p es s := by
  have hlast : s.vars.packetSequenceNumber = t.totalPacketNumber - 1 := by
    rw [← hend]
    exact (UInt32.add_sub_cancel _ _).symm
  have hstep : s.step t (.sender true) = some ({ s with sender := .eofCheck }, []) := by
    simp [step, senderStep, hpos, hlast]
  exact .of_silent hstep (lost_eofCheck rfl hlt hslot hstatus hnone hsent)

/-- The last packet, which is not the requested one, is about to be transmitted. -/
theorem lost_send (hpos : s.sender = .send) (hend : s.vars.packetSequenceNumber + 1 = t.totalPacketNumber)
    (hrange : s.vars.packetSequenceNumber < t.totalPacketNumber) (hne : s.vars.packetSequenceNumber ≠ p)
    (hlt : p.toNat < t.totalPacketNumber.toNat) (hslot : s.vars.retransmitPsn = p)
    (hstatus : s.vars.status ≠ .cxl) (hnone : .iteration ∉ es) (hsent : ¬Sent p es) : CanLose t p es s := by
  have hread := ServerTransaction.readData_eq hrange
  have hstep : s.step t (.sender true) = some ({ s with sender := .eofTest },
      [.transmitted s.vars.packetSequenceNumber (t.dataPacket s.vars.clientAddress
        s.vars.packetSequenceNumber (Lib.chunk sizeofPayload t.served s.vars.packetSequenceNumber.toNat))]) := by
    simp [step, senderStep, hpos, hread]
  refine .of_step hstep (by simp) (lost_eofTest rfl hend hlt hslot hstatus (by simp [hnone]) ?_)
  rintro ⟨packet, hmem⟩
  rcases List.mem_append.mp hmem with hold | hnew
  · exact hsent ⟨packet, hold⟩
  · simp only [List.mem_singleton, ServerEvent.transmitted.injEq] at hnew
    exact hne hnew.1.symm

/-! ## The iteration that has already started -/

/-- The current iteration transmits the requested packet, so the next one transmits another. -/
theorem lost_rtxStore (hpos : s.sender = .rtxStore p) (hlt : p.toNat < t.totalPacketNumber.toNat)
    (hend : p + 1 ≠ t.totalPacketNumber) (hslot : s.vars.retransmitPsn = noRetransmit)
    (hstatus : s.vars.status ≠ .cxl) (hnone : .iteration ∉ es) : CanLose t p es s := by
  have hread := ServerTransaction.readData_eq (UInt32.lt_iff_toNat_lt.mpr hlt)
  have hlast : p ≠ t.totalPacketNumber - 1 := by
    rintro rfl
    exact hend (UInt32.sub_add_cancel _ _)
  have hstore : s.step t (.sender true) = some ({ s.setPsn p with sender := .send }, []) := by
    simp [step, senderStep, hpos]
  have hsend : ({ s.setPsn p with sender := .send } : ServerState).step t (.sender true) =
      some ({ s.setPsn p with sender := .eofTest },
        [.transmitted p (t.dataPacket s.vars.clientAddress p (Lib.chunk sizeofPayload t.served p.toNat))]) := by
    simp [step, senderStep, hread]
    rfl
  have htest : ({ s.setPsn p with sender := .eofTest } : ServerState).step t (.sender true) =
      some ({ s.setPsn p with sender := .increment }, []) := by
    simp [step, senderStep, hlast]
  refine .of_silent hstore (.of_step hsend (by simp) (.of_silent htest ?_))
  exact lost_skipped rfl rfl hlt hend hslot hstatus (by simp [hnone])

/-- The request is about to be taken out of the slot in front of the transmission. -/
theorem lost_rtxTake (hpos : s.sender = .rtxTake) (hlt : p.toNat < t.totalPacketNumber.toNat)
    (hend : p + 1 ≠ t.totalPacketNumber) (hslot : s.vars.retransmitPsn = p)
    (hstatus : s.vars.status ≠ .cxl) (hnone : .iteration ∉ es) : CanLose t p es s := by
  have hstep : s.step t (.sender true) =
      some ({ s.setRetransmit noRetransmit with sender := .rtxStore p }, []) := by
    simp [step, senderStep, hpos, hslot]
  exact .of_silent hstep (lost_rtxStore rfl hlt hend rfl hstatus hnone)

/-- The request will be found in front of the transmission. -/
theorem lost_rtxCheck (hpos : s.sender = .rtxCheck) (hlt : p.toNat < t.totalPacketNumber.toNat)
    (hend : p + 1 ≠ t.totalPacketNumber) (hslot : s.vars.retransmitPsn = p)
    (hstatus : s.vars.status ≠ .cxl) (hnone : .iteration ∉ es) : CanLose t p es s := by
  have hp : p ≠ noRetransmit := t.ne_noRetransmit_of_le hlt.le
  have hstep : s.step t (.sender true) = some ({ s with sender := .rtxTake }, []) := by
    simp [step, senderStep, hpos, hslot, hp]
  exact .of_silent hstep (lost_rtxTake rfl hlt hend hslot hstatus hnone)

/-- The iteration is about to check for a cancellation. -/
theorem lost_cxlCheck (hpos : s.sender = .cxlCheck) (hlt : p.toNat < t.totalPacketNumber.toNat)
    (hend : p + 1 ≠ t.totalPacketNumber) (hslot : s.vars.retransmitPsn = p)
    (hstatus : s.vars.status ≠ .cxl) (hnone : .iteration ∉ es) : CanLose t p es s := by
  have hstep : s.step t (.sender true) = some ({ s with sender := .rtxCheck }, [.checked]) := by
    simp [step, senderStep, hpos, hstatus]
  exact .of_step hstep (by simp) (lost_rtxCheck rfl hlt hend hslot hstatus (by simp [hnone]))

/-! ## An empty loop -/

/-- Behind that request the sender thread exists. -/
theorem step_started {a : ServerAction}
    (hinv : s.driver.dataRequested = true → s.sender ≠ .notStarted) (h : s.step t a = some (s', e)) :
    s'.driver.dataRequested = true → s'.sender ≠ .notStarted := by
  cases a with
  | driver =>
    revert h
    simp only [step]
    fun_cases ServerState.driverStep t s <;> intro h <;> cases h <;>
      simp_all [DriverPos.dataRequested]
    rename_i phase _ _ _
    cases phase <;> simp [Phase.nextPos]
  | timeout =>
    obtain ⟨phase, hwaiting, rfl, -⟩ := timeoutStep_eq h
    simp_all [DriverPos.dataRequested]
  | sender fileOk =>
    intro _ hnone
    revert h
    simp only [step]
    fun_cases ServerState.senderStep t s fileOk <;> intro h <;> cases h <;> simp_all
    split at hnone <;> contradiction
  | deliver r =>
    have hframe := (deliverStep_frame h).1
    rwa [hframe.driver, hframe.sender]
  | receiver =>
    have hframe := receiverStep_frame h
    rwa [hframe.driver, hframe.sender]
  | abort =>
    obtain ⟨-, rfl, -⟩ := abortStep_eq h
    exact hinv
  | abortSend =>
    obtain ⟨rfl, -⟩ := abortSendStep_eq h
    exact hinv

/-- The counter starts at the packet count. -/
theorem lost_init (hpos : s.sender = .init) (hend : t.totalPacketNumber = 0) (hsent : ¬Sent p es) :
    CanLose t p es s := by
  have hstep : s.step t (.sender true) = some ({ s.setPsn 0 with sender := .loopTest }, []) := by
    simp [step, senderStep, hpos]
  exact .of_silent hstep (lost_loopTest rfl hend.symm hsent)

/-- The sender thread is about to open the file. -/
theorem lost_opening (hpos : s.sender = .opening) (hend : t.totalPacketNumber = 0) (hsent : ¬Sent p es) :
    CanLose t p es s := by
  have hstep : s.step t (.sender true) = some ({ s with sender := .init }, []) := by
    simp [step, senderStep, hpos]
  exact .of_silent hstep (lost_init rfl hend hsent)

/-- The sender thread is about to be started. -/
theorem lost_notStarted (hpos : s.driver = .sending .data) (hend : t.totalPacketNumber = 0)
    (hsent : ¬Sent p es) : CanLose t p es s := by
  have hstep : s.step t .driver = some ({ s with driver := .sample .data, sender := .opening }, []) := by
    simp [step, driverStep, hpos]
  exact .of_silent hstep (lost_opening rfl hend hsent)

/-- At every position that does not honour it, the request can be lost. -/
theorem lost_of_not_honours (hinv : SendingInv t es₀ s) (hphase : PhaseInv s)
    (hstarted : s.driver.dataRequested = true → s.sender ≠ .notStarted) (hstatus : s.vars.status = .data)
    (hslot : s.vars.retransmitPsn = p) (hrequest : Requestable t es₀ s p) (hpos : ¬Honours t s p) :
    CanLose t p [] s := by
  have hsender := hinv.sender
  have hcxl : s.vars.status ≠ .cxl := by simp [hstatus]
  have hnone : ServerEvent.iteration ∉ ([] : List ServerEvent) := by simp
  have hsent : ¬Sent p [] := by simp [Sent]
  have hzero (hpsn : s.psn = 0) (hge : ¬p < t.totalPacketNumber) : t.totalPacketNumber = 0 := by
    have hend := hrequest.1.resolve_left fun hlt => hge (UInt32.lt_iff_toNat_lt.mpr hlt)
    rw [← UInt32.toNat_inj, ← hend, hpsn, UInt32.toNat_zero]
  have hlt (hpsn : s.psn < t.totalPacketNumber.toNat) : p.toNat < t.totalPacketNumber.toNat :=
    hrequest.1.resolve_right (by omega)
  unfold SenderOk at hsender
  unfold Honours at hpos
  cases h : s.sender <;> simp only [h, not_or, not_not] at hsender hpos
  case notStarted =>
    have hholds := hphase.request .data hstatus
    have hdriver : s.driver = .sending .data := by
      cases hd : s.driver <;> rw [hd] at hholds hstarted <;> simp [DriverPos.Holds] at hholds
      case sending phase => rw [hholds]
      case sample phase => exact absurd h (hstarted (by simp [DriverPos.dataRequested, hholds]))
      case waiting phase old => exact absurd h (hstarted (by simp [DriverPos.dataRequested, hholds.1]))
      case decide phase status => exact absurd h (hstarted (by simp [DriverPos.dataRequested, hholds.1]))
    exact lost_notStarted hdriver (hzero hsender hpos) hsent
  case opening => exact lost_opening h (hzero hsender hpos) hsent
  case init => exact lost_init h (hzero hsender hpos) hsent
  case loopTest =>
    refine lost_loopTest h (UInt32.toNat_inj.mp (Nat.le_antisymm hsender.1 ?_)) hsent
    exact Nat.le_of_not_lt fun hlt => hpos (UInt32.lt_iff_toNat_lt.mpr hlt)
  case cxlCheck => exact lost_cxlCheck h (hlt hsender.1) hpos hslot hcxl hnone
  case rtxCheck => exact lost_rtxCheck h (hlt hsender.1) hpos hslot hcxl hnone
  case rtxTake => exact lost_rtxTake h (hlt hsender.1) hpos hslot hcxl hnone
  case rtxStore psn =>
    have hstep : s.step t (.sender true) = some ({ s.setPsn psn with sender := .send }, []) := by
      simp [step, senderStep, h]
    exact .of_silent hstep (lost_send rfl hpos.1 (UInt32.lt_iff_toNat_lt.mpr hsender.2.2.1) hpos.2
      (hlt hsender.1) hslot hcxl hnone hsent)
  case send =>
    exact lost_send h hpos.1 (UInt32.lt_iff_toNat_lt.mpr hsender.1) hpos.2 (hlt hsender.1) hslot hcxl hnone hsent
  case eofTest => exact lost_eofTest h hpos (hlt hsender.1) hslot hcxl hnone hsent
  case eofCheck => exact lost_eofCheck h (hlt (by omega)) hslot hcxl hnone hsent
  case eofTake => exact lost_eofTake h (hlt (by omega)) hslot hcxl hnone hsent
  case eofStore psn =>
    have hstep : s.step t (.sender true) = some ({ s.setPsn psn with sender := .increment }, []) := by
      simp [step, senderStep, h]
    exact .of_silent hstep (lost_increment rfl hpos hsent)
  case increment => exact lost_increment h hpos hsent
  case finished => exact lost_finished h hsent
  all_goals contradiction

end ServerState

/-- The sender thread exists behind the request that starts it. -/
theorem started_of_trace {t : ServerTransaction} {es : List ServerEvent} {s : ServerState}
    (h : (serverMachine t).Trace es s) (hdriver : s.driver.dataRequested = true) :
    s.sender ≠ .notStarted := by
  revert hdriver
  refine h.invariant (I := fun _ s => s.driver.dataRequested = true → s.sender ≠ .notStarted) ?_
    fun _ hinv hstep => ServerState.step_started hinv hstep
  rintro s rfl hdriver
  cases hdriver

/-- A retransmission request is honoured exactly at the positions that honour it.

`OnReceive` accepts RTX(p) while the status is DATA. In every continuation in which no other RTX is
accepted, the next iteration of the sender loop transmits packet p, unless the sender thread gives up
before, and the thread does not finish its loop without having transmitted packet p since the
acceptance, if and only if the sender thread was at such a position at the acceptance. -/
theorem request_honoured_iff {t : ServerTransaction} {es₀ : List ServerEvent} {s s' : ServerState}
    {r : Received} (h : (serverMachine t).Trace es₀ s) (hstatus : s.vars.status = .data)
    (haccept : s.step t .receiver = some (s', [.accepted .rtx r])) :
    (∀ es s'', (serverMachine t).Run s' es s'' → (∀ r', .accepted .rtx r' ∉ es) →
      ServerState.RequestHonoured r.msg.rtx.retransmitPsn es s'') ↔
    ServerState.Honours t s r.msg.rtx.retransmitPsn := by
  constructor
  · intro hall
    by_contra hpos
    have hstep : (serverMachine t).step s .receiver = some (s', [.accepted .rtx r]) := haccept
    have htrace := h.step hstep
    have hinv := sendingInv_of_trace htrace
    obtain ⟨hsender, hpsn, hslot, hp⟩ := ServerState.receiverStep_request (sendingInv_of_trace h) haccept
    have hpos' : ¬ServerState.Honours t s' r.msg.rtx.retransmitPsn := by
      unfold ServerState.Honours at hpos ⊢
      rwa [hsender, hpsn]
    have hstatus' : s'.vars.status = .data := by
      rcases ServerState.step_status haccept with hkeep | hstored | ⟨r', haccepted, hne⟩
      · exact hkeep.trans hstatus
      · simp at hstored
      · simp only [List.cons.injEq, ServerEvent.accepted.injEq] at haccepted
        exact absurd haccepted.1.1.symm hne
    obtain ⟨as, s'', e, hexec, hquiet, hbad⟩ :=
      ServerState.lost_of_not_honours hinv (phaseInv_of_trace htrace) (started_of_trace htrace) hstatus' hslot
        (hslot ▸ hinv.slot.1 (hslot ▸ hp)) hpos'
    exact hbad (hall e s'' (EventMachine.exec_run hexec) hquiet)
  · exact fun hpos es s'' hrun hquiet => ServerState.run_honoured h haccept hpos hrun hquiet

/-- The statements of a transfer of one byte up to the acceptance of RTX(0), with so many statements of
the sender thread before it. -/
def requestSchedule (steps : ℕ) : List ServerAction :=
  List.flatten
    [[.driver, .driver, .driver, .deliver (oneByte.reply .chk), .receiver, .receiver, .driver, .driver],
      [.driver, .driver, .driver, .deliver (oneByte.reply .rdy), .receiver, .receiver, .driver, .driver],
      [.driver, .driver, .driver], List.replicate steps (.sender true),
      [.deliver (oneByte.reply .rtx), .receiver, .receiver]]

/-- RTX(0) is about to be accepted, wherever the schedule has left the sender thread. -/
theorem requestSchedule_exec (steps : ℕ) (sender : SenderPos)
    (hrun : ((serverMachine oneByte).exec oneByte.registeredState (requestSchedule steps)).map (fun p =>
      (p.1.vars.status, p.1.sender, p.1.vars.packetSequenceNumber, p.1.receiver)) =
        some (.data, sender, 0, .commit (oneByte.reply .rtx))) :
    ∃ s s' es, (serverMachine oneByte).Trace es s ∧ s.vars.status = .data ∧ s.sender = sender ∧
      s.vars.packetSequenceNumber = 0 ∧
      s.step oneByte .receiver = some (s', [.accepted .rtx (oneByte.reply .rtx)]) := by
  obtain ⟨⟨s, es⟩, hexec, hs⟩ := Option.map_eq_some_iff.mp hrun
  simp only [Prod.mk.injEq] at hs
  refine ⟨s, s.accept { s.vars with retransmitPsn := (oneByte.reply .rtx).msg.rtx.retransmitPsn }, es,
    EventMachine.exec_trace rfl hexec, hs.1, hs.2.1, hs.2.2.1, ?_⟩
  simp only [ServerState.step, ServerState.receiverStep, hs.2.2.2, oneByte.reply_id? .rtx]

/-- A request that is accepted in front of the loop condition is honoured. -/
theorem request_honoured_loopTest :
    ∃ s s' es₀, (serverMachine oneByte).Trace es₀ s ∧
      s.step oneByte .receiver = some (s', [.accepted .rtx (oneByte.reply .rtx)]) ∧
      ∀ es s'', (serverMachine oneByte).Run s' es s'' → (∀ r', .accepted .rtx r' ∉ es) →
        ServerState.RequestHonoured (oneByte.reply .rtx).msg.rtx.retransmitPsn es s'' := by
  obtain ⟨s, s', es₀, htrace, hstatus, hsender, hpsn, haccept⟩ :=
    requestSchedule_exec 2 .loopTest (by decide +kernel)
  refine ⟨s, s', es₀, htrace, haccept, (request_honoured_iff htrace hstatus haccept).mpr ?_⟩
  rw [ServerState.Honours, hsender, hpsn]
  decide +kernel

/-- A request that is accepted during the wait behind the last packet is lost. -/
theorem request_lost :
    ¬∀ (t : ServerTransaction) (es₀ es : List ServerEvent) (s s' s'' : ServerState) (r : Received),
      (serverMachine t).Trace es₀ s → s.vars.status = .data →
      s.step t .receiver = some (s', [.accepted .rtx r]) → (serverMachine t).Run s' es s'' →
      (∀ r', .accepted .rtx r' ∉ es) → s''.vars.status ≠ .cxl → s''.sender = .finished →
      ∃ packet, .transmitted r.msg.rtx.retransmitPsn packet ∈ es := by
  intro hclaim
  have hrun : ((serverMachine oneByte).exec oneByte.registeredState (requestSchedule 7)).bind (fun p =>
      (p.1.step oneByte .receiver).bind fun q =>
        ((serverMachine oneByte).exec q.1 (List.replicate 5 (.sender true))).map fun v =>
          (p.1.vars.status, q.2, v.2, v.1.sender, v.1.vars.status)) =
      some (.data, [.accepted .rtx (oneByte.reply .rtx)], [.finished], .finished, .data) := by
    decide +kernel
  obtain ⟨⟨s, es₀⟩, hbefore, hrun⟩ := Option.bind_eq_some_iff.mp hrun
  obtain ⟨⟨s', accepted⟩, haccept, hrun⟩ := Option.bind_eq_some_iff.mp hrun
  obtain ⟨⟨s'', es⟩, hafter, hs⟩ := Option.map_eq_some_iff.mp hrun
  simp only [Prod.mk.injEq] at hs
  obtain ⟨hstatus, rfl, rfl, hsender, hstatus'⟩ := hs
  obtain ⟨_, htransmitted⟩ := hclaim oneByte es₀ _ s s' s'' _ (EventMachine.exec_trace rfl hbefore)
    hstatus haccept (EventMachine.exec_run hafter) (by simp) (by rw [hstatus']; decide) hsender
  simp at htransmitted

end Trftp
