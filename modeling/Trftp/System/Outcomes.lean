import Trftp.System.Concurrent

/-!
# What the two sides make of a transfer

`StartFileTransfer` tells its caller how a transfer ended, and `OnFileReceived` tells the
application of the client. A client that hands its file over does so behind FIN, and behind
FIN the call has nothing left to do but to return it.
-/

namespace Trftp

open Lib (EventMachine)

namespace ServerState

variable {t : ServerTransaction} {s s' : ServerState} {es e : List ServerEvent}

/-- `StartFileTransfer` has sent FIN. -/
def FinSent (s : ServerState) : Prop := s.driver = .erase .fin ∨ s.driver = .returned .fin

/-- Behind FIN `StartFileTransfer` returns and does nothing else. -/
theorem FinSent.step {a : ServerAction} (hsent : s.FinSent) (h : s.step t a = some (s', e)) : s'.FinSent := by
  cases hdriver : a.ofDriver with
  | false =>
    unfold FinSent
    rw [driver_of_other hdriver h]
    exact hsent
  | true =>
    cases a with
    | driver =>
      rcases hsent with hpos | hpos
      · simp only [ServerState.step, driverStep, hpos] at h
        cases h
        exact Or.inr rfl
      · simp only [ServerState.step, driverStep, hpos] at h
        contradiction
    | timeout =>
      rcases hsent with hpos | hpos
      · simp only [ServerState.step, timeoutStep, hpos] at h
        contradiction
      · simp only [ServerState.step, timeoutStep, hpos] at h
        contradiction
    | sender | deliver | receiver | abort | abortSend => contradiction

/-- Only the statement that sends FIN sends it. -/
theorem finSent_of_step {a : ServerAction} (h : s.step t a = some (s', e)) {p : Packet}
    (hmem : .sent .fin p ∈ e) : s'.FinSent := by
  have hreports := step_reports_mem h hmem
  cases a with
  | driver =>
    revert h
    simp only [step]
    fun_cases ServerState.driverStep t s <;> intro h <;> cases h <;>
      simp only [List.mem_singleton, List.not_mem_nil, reduceCtorEq, ServerEvent.sent.injEq] at hmem
    case driver.case3.refl phase hphase hpos =>
      cases phase <;> simp [Phase.request] at hmem
    case driver.case11.refl => exact Or.inl rfl
    case driver.case12.refl => simp at hmem
  | timeout | deliver | receiver | abort => contradiction
  | sender fileOk | abortSend => simp [ServerAction.reports] at hreports

/-- Once FIN was sent, `StartFileTransfer` is behind it. -/
theorem finSent_of_trace (h : (serverMachine t).Trace es s) {p : Packet} (hmem : .sent .fin p ∈ es) :
    s.FinSent := by
  revert hmem
  refine h.invariant (I := fun es s => .sent .fin p ∈ es → s.FinSent) ?_ ?_
  · intro s _ hmem
    contradiction
  · intro es s a s' e _ ih hstep hmem
    rcases List.mem_append.mp hmem with hold | hnew
    · exact (ih hold).step hstep
    · exact finSent_of_step hstep hnew

end ServerState

section Outcomes

variable {ι : Type*} [DecidableEq ι] {d : Deployment ι} {S : DeploymentState ι}
  {es : List (DeploymentEvent ι)} {i : ℕ} {k : ι} {c : Call}

/-- A file that was handed over was transferred, if each client handles one datagram at a time.

As soon as client `k` has called `OnFileReceived`, the only call for its host is behind its FIN, no
exception has left it, and the call has returned FIN or is about to, whatever the other calls, their
clients and `AbortFileTransfer` do. The file of the client was verified, and it is that of the call. -/
theorem handed_over_agreed (h : (deploymentMachine d).Trace es S) (hcall : S.server.calls i = .entered c)
    (haddr : c.tran.addr = d.main k) (honly : S.OnlyCall d k i) {file : Option (List UInt8)} {version : UInt32}
    (hmem : .client k (.fileReceived file version) ∈ es) :
    c.thrown = false ∧ c.state.FinSent ∧ .client k (.verified c.tran.served) ∈ es ∧
      ∀ result, .server (.exited i result) ∈ es → result = .ok .fin := by
  have htransfer := transfer_of_trace h hcall haddr honly
  have hinv := systemInv_of_trace htransfer
  have hserver : (serverProcess d.udpSocket).Trace (es.filterMap DeploymentEvent.server?) S.server :=
    (processProjection d).trace h
  obtain ⟨pre, post, hsplit⟩ := List.append_of_mem
    (List.mem_filterMap.mpr ⟨_, hmem, if_pos rfl⟩ :
      SystemEvent.client (.fileReceived file version) ∈ es.filterMap (DeploymentEvent.of i k))
  obtain ⟨-, ⟨p, hfin⟩, r, hdone⟩ := hinv.handed _ _ _ hsplit file version rfl
  have hpre : ∀ {x}, x ∈ pre → x ∈ es.filterMap (DeploymentEvent.of i k) := by
    intro x hx
    rw [hsplit]
    exact List.mem_append_left _ hx
  have hsent : c.state.FinSent := by
    refine ServerState.finSent_of_trace (p := p) ((serverProjection _).trace htransfer) ?_
    exact List.mem_filterMap.mpr ⟨_, hpre hfin, rfl⟩
  have hthrown : c.thrown = false := by
    by_contra hthrew
    have hsends := ServerProcess.sends_of_thrown hserver hcall (Bool.not_eq_false _ ▸ hthrew)
    rcases hsent with hpos | hpos
    · rw [hpos] at hsends
      contradiction
    · rw [hpos] at hsends
      contradiction
  refine ⟨hthrown, hsent, ?_, fun result hexit => ?_⟩
  · exact mem_of_transfer_client (hinv.net.of_accepted_done (hpre hdone)).1
  · have hleft := ServerProcess.left_of_exited hserver (List.mem_filterMap.mpr ⟨_, hexit, rfl⟩) hcall
    rcases hleft with ⟨-, hthrew⟩ | ⟨id, rfl, hreturned⟩
    · rw [hthrown] at hthrew
      contradiction
    · rcases hsent with hpos | hpos
      · rw [hpos] at hreturned
        contradiction
      · rw [hpos] at hreturned
        cases hreturned
        rfl

end Outcomes

/-- Beside the other call, the first one is behind its FIN as its client has handed the file over. -/
theorem handed_over_agreed_twoClients :
    ∃ S es c file version, (deploymentMachine twoClients).exec deployedStart deployedSchedule = some (S, es) ∧
      S.server.calls 0 = .entered c ∧ .client false (.fileReceived file version) ∈ es ∧
      c.thrown = false ∧ c.state.FinSent ∧ .client false (.verified c.tran.served) ∈ es ∧
        ∀ result, .server (.exited 0 result) ∈ es → result = .ok .fin := by
  obtain ⟨S, es, c, hexec, hcall, haddr, honly, -, file, version, hmem⟩ := twoClients_run
  have htrace : (deploymentMachine twoClients).Trace es S := EventMachine.exec_trace deployedStart_initial hexec
  exact ⟨S, es, c, file, version, hexec, hcall, hmem, handed_over_agreed htrace hcall haddr honly hmem⟩

end Trftp
