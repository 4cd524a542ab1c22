import Trftp.System.Dispatching

/-!
# What a step of the server is for one call

A step of the process is a step of the transaction of a given call, or it leaves that
transaction as it is. A step that brings a datagram into the transaction is the arrival of
that datagram at the socket, and the map leads from its sender to the call.
-/

namespace Trftp

open Lib (EventMachine)

/-- The transaction is created for the socket of the server. -/
theorem StartArgs.createTransaction_udpSocket {a : StartArgs} {udpSocket : SockAddr} {t : ServerTransaction}
    (h : a.createTransaction udpSocket = .ok t) : t.udpSocket = udpSocket := by
  unfold createTransaction at h
  split_ifs at h
  split at h
  · contradiction
  · split at h
    · contradiction
    · cases h
      rfl

/-- How a call exited that was entered: by a return, or by an exception of `Send`. -/
def Call.Left (c : Call) (result : Except StartError MessageId) : Prop :=
  (result = .error .sendFailed ∧ c.thrown = true) ∨ ∃ id, result = .ok id ∧ c.state.driver = .returned id

namespace ServerProcess

variable {udpSocket : SockAddr} {S S' T : ServerProcess} {e : List ProcessEvent} {i j : ℕ} {c d : Call}

/-- What a step of the process is for a call that was entered. -/
inductive CallMove (i : ℕ) (S S' : ServerProcess) (act : ProcessAction) (e : List ProcessEvent) (c : Call) :
    Prop
  | still (d : Call) (hcall : S'.calls i = .entered d) (htran : d.tran = c.tran) (hstate : d.state = c.state)
      (hevents : e.filterMap (ProcessEvent.of i) = [])
  | moved (a : ServerAction) (s' : ServerState) (es : List ServerEvent)
      (hstep : c.state.step c.tran a = some (s', es)) (hcall : S'.calls i = .entered { c with state := s' })
      (hevents : e.filterMap (ProcessEvent.of i) = es)
      (hdeliver : ∀ r, a = .deliver r → ∃ buffer dgram, act = .datagram buffer dgram ∧
        udpReceive buffer dgram = some r ∧ S.dispatch r.addr.sinAddr = some i)
      (hthrown : c.thrown = true → a.ofDriver = false)

/-- Storing it tells what the transaction told, of that call only. -/
theorem update_events (S : ServerProcess) (i j : ℕ) (c : Call) (p : ServerState × List ServerEvent) :
    (S.update j c p).2.filterMap (ProcessEvent.of i) = if j = i then p.2 else [] := by
  have hmap := filterMap_of_map i j p.2
  unfold update
  split
  · split_ifs at hmap ⊢ <;> simp [hmap, ProcessEvent.of]
  · exact hmap

/-- A step that leaves the call alone. -/
theorem CallMove.refl {act : ProcessAction} (hcall : S'.calls i = .entered c)
    (hevents : e.filterMap (ProcessEvent.of i) = []) : CallMove i S S' act e c :=
  .still c hcall rfl rfl hevents

/-- A step of the transaction of one call, seen from any call. -/
theorem callMove_of_update {act : ProcessAction} {a : ServerAction} {p : ServerState × List ServerEvent}
    (pre : List ProcessEvent) (hcall : S.calls i = .entered c) (hother : S.calls j = .entered d)
    (hstep : d.state.step d.tran a = some p) (hcalls : T.calls = (S.update j d p).1.calls)
    (hpre : pre.filterMap (ProcessEvent.of i) = [])
    (hdeliver : ∀ r, a = .deliver r → ∃ buffer dgram, act = .datagram buffer dgram ∧
      udpReceive buffer dgram = some r ∧ S.dispatch r.addr.sinAddr = some j)
    (hthrown : d.thrown = true → a.ofDriver = false) :
    CallMove i S T act (pre ++ (S.update j d p).2) c := by
  rw [update_calls] at hcalls
  have hevents : (pre ++ (S.update j d p).2).filterMap (ProcessEvent.of i) = if j = i then p.2 else [] := by
    rw [List.filterMap_append, hpre, update_events, List.nil_append]
  by_cases hj : j = i
  · subst hj
    cases hcall.symm.trans hother
    rw [if_pos rfl] at hevents
    exact .moved a p.1 p.2 hstep (by rw [hcalls, Function.update_self]) hevents hdeliver hthrown
  · rw [if_neg hj] at hevents
    exact .refl (by rw [hcalls, Function.update_of_ne (Ne.symm hj), hcall]) hevents

/-- A call that is made, seen from another one. -/
theorem callMove_of_start {act : ProcessAction} {a : StartArgs} (hcall : S.calls i = .entered c) (hj : i ≠ j) :
    CallMove i S (S.start udpSocket j a).1 act (S.start udpSocket j a).2 c := by
  unfold start
  split
  · exact .refl (by simp only [Function.update_of_ne hj, hcall]) rfl
  · split
    · exact .refl (by simp only [Function.update_of_ne hj, hcall]) rfl
    · exact .refl (by simp only [Function.update_of_ne hj, hcall]) rfl

/-- A datagram is for the call that the map leads to, or for none. -/
theorem callMove_of_receive {buffer : TrftpMessage} {dgram : Datagram} (hcall : S.calls i = .entered c)
    (h : S.receive buffer dgram = some (S', e)) : CallMove i S S' (.datagram buffer dgram) e c := by
  unfold receive at h
  split at h
  · cases h
    exact .refl hcall rfl
  · rename_i r hr
    split at h
    · cases h
      exact .refl hcall rfl
    · rename_i j hdispatch
      split at h
      · contradiction
      · rename_i d hother
        obtain ⟨p, hstep, hp⟩ := Option.map_eq_some_iff.mp h
        cases hp
        refine callMove_of_update [.received dgram, .dispatched j r] (a := .deliver r) hcall
          (CallStatus.call?_eq_some.mp hother) hstep rfl rfl (fun r' hr' => ?_) fun _ => rfl
        cases hr'
        exact ⟨buffer, dgram, rfl, hr, hdispatch⟩

/-- Every step is a step of the transaction of a given call, or leaves it alone. -/
theorem step_callMove {act : ProcessAction} (hcall : S.calls i = .entered c)
    (h : S.step udpSocket act = some (S', e)) : CallMove i S S' act e c := by
  cases act with
  | start j a =>
    simp only [step] at h
    split at h
    · rename_i hunused
      have hj : i ≠ j := by
        intro hj
        rw [hj, hunused] at hcall
        contradiction
      have hmove : CallMove i S (S.start udpSocket j a).1 (.start j a) (S.start udpSocket j a).2 c :=
        callMove_of_start hcall hj
      rw [Option.some_inj.mp h] at hmove
      exact hmove
    · contradiction
  | call j a =>
    simp only [step] at h
    split at h
    · rename_i d _ hother
      split_ifs at h with hguard
      obtain ⟨p, hstep, hp⟩ := Option.map_eq_some_iff.mp h
      rw [not_or, not_not] at hguard
      have hmove : CallMove i S (S.update j d p).1 (.call j a) ([] ++ (S.update j d p).2) c := by
        refine callMove_of_update [] hcall (CallStatus.call?_eq_some.mp hother) hstep rfl rfl
          (fun r hr => ?_) fun hthrew => ?_
        · rw [hr] at hguard
          exact absurd hguard.1 Bool.false_ne_true
        · by_contra hdriver
          exact hguard.2 ⟨hthrew, Bool.not_eq_false _ ▸ hdriver⟩
      rw [List.nil_append, hp] at hmove
      exact hmove
    · contradiction
  | sendThrows j =>
    simp only [step] at h
    split at h
    · rename_i d _ hother
      split_ifs at h
      cases h
      by_cases hj : j = i
      · subst hj
        cases hcall.symm.trans (CallStatus.call?_eq_some.mp hother)
        exact .still { c with thrown := true } (by simp only [Function.update_self]) rfl rfl rfl
      · exact .refl (by simp only [Function.update_of_ne (Ne.symm hj), hcall]) rfl
    · contradiction
  | senderThrows j =>
    simp only [step] at h
    split at h
    · split_ifs at h
      cases h
      exact .refl hcall rfl
    · contradiction
  | abort clientIp =>
    simp only [step] at h
    split at h
    · cases h
      exact .refl hcall rfl
    · obtain ⟨d, hother, h⟩ := Option.bind_eq_some_iff.mp h
      obtain ⟨p, hstep, hp⟩ := Option.map_eq_some_iff.mp h
      have hmove : CallMove i S (S.update _ d p).1 (.abort clientIp) ([] ++ (S.update _ d p).2) c :=
        callMove_of_update [] (a := .abort) hcall (CallStatus.call?_eq_some.mp hother) hstep rfl rfl
          (fun r hr => by contradiction) fun _ => rfl
      rw [List.nil_append, hp] at hmove
      exact hmove
    · contradiction
  | datagram buffer dgram =>
    simp only [step] at h
    split at h
    · exact callMove_of_receive hcall h
    · contradiction
  | receiver =>
    simp only [step] at h
    split_ifs at h
    unfold receiver at h
    split at h
    · contradiction
    · split at h
      · contradiction
      · rename_i d hother
        obtain ⟨p, hstep, hp⟩ := Option.map_eq_some_iff.mp h
        cases hp
        exact callMove_of_update [] (a := .receiver) hcall (CallStatus.call?_eq_some.mp hother) hstep rfl rfl
          (fun r hr => by contradiction) fun _ => rfl

/-- A call that a step enters starts with a transaction that was just registered, and the step tells
nothing else of it. -/
theorem step_entering {act : ProcessAction} (hidle : (S.calls i).call? = none)
    (h : S.step udpSocket act = some (S', e)) (hcall : S'.calls i = .entered c) :
    c.state = c.tran.registeredState ∧ c.tran.udpSocket = udpSocket ∧ c.thrown = false ∧
      e.filterMap (ProcessEvent.of i) = [] := by
  have hfilter := filterMap_of_filter i e
  have hne : ∀ {j : ℕ} {d : Call}, S.calls j = .entered d → i ≠ j := by
    rintro j d hd rfl
    rw [hd] at hidle
    contradiction
  cases step_change h with
  | same hcalls =>
    rw [hcalls] at hcall
    rw [hcall] at hidle
    contradiction
  | refused j error hunused hcalls =>
    rcases entered_of_update hcalls hcall with ⟨-, hd⟩ | ⟨-, hd⟩
    · contradiction
    · rw [hd] at hidle
      contradiction
  | registered j a t hunused htran hfree hcalls hmap hevents =>
    rcases entered_of_update hcalls hcall with ⟨-, hd⟩ | ⟨-, hd⟩
    · cases hd
      rw [hevents] at hfilter
      exact ⟨rfl, StartArgs.createTransaction_udpSocket htran, rfl, hfilter.symm⟩
    · rw [hd] at hidle
      contradiction
  | advanced j d a s' es hother hstep hdeliver hregistered hcalls =>
    rcases entered_of_update hcalls hcall with ⟨hj, -⟩ | ⟨-, hd⟩
    · exact absurd hj (hne hother)
    · rw [hd] at hidle
      contradiction
  | returned j d a s' es result hother hthrown hstep hdeliver hregistered hresult hcalls =>
    rcases entered_of_update hcalls hcall with ⟨hj, -⟩ | ⟨-, hd⟩
    · exact absurd hj (hne hother)
    · rw [hd] at hidle
      contradiction
  | threw j d hother hthrown hsends hcalls =>
    rcases entered_of_update hcalls hcall with ⟨hj, -⟩ | ⟨-, hd⟩
    · exact absurd hj (hne hother)
    · rw [hd] at hidle
      contradiction

/-- A call that was entered was reported to have registered its transaction. -/
theorem registered_of_entered {es : List ProcessEvent} (h : (serverProcess udpSocket).Trace es S)
    (hcall : S.calls i = .entered c) : .registered i ∈ es := by
  have hall : ∀ c, S.calls i = .entered c → .registered i ∈ es := by
    refine h.invariant (I := fun es S => ∀ c, S.calls i = .entered c → .registered i ∈ es) ?_ ?_
    · rintro S rfl c hc
      contradiction
    · intro es S act S' e _ ih hstep c hc
      have hold : ∀ {d}, S.calls i = .entered d → .registered i ∈ es ++ e :=
        fun hd => List.mem_append_left e (ih _ hd)
      cases step_change hstep with
      | same hcalls => exact hold (hcalls ▸ hc)
      | refused j error hunused hcalls =>
        rcases entered_of_update hcalls hc with ⟨-, hd⟩ | ⟨-, hd⟩
        · contradiction
        · exact hold hd
      | registered j a t hunused htran hfree hcalls hmap hevents =>
        rcases entered_of_update hcalls hc with ⟨rfl, -⟩ | ⟨-, hd⟩
        · refine List.mem_append_right es ((mem_filter_ofCalls rfl).mpr ?_)
          rw [hevents]
          exact List.mem_singleton_self _
        · exact hold hd
      | advanced j d a s' es' hother hmove hdeliver hregistered hcalls =>
        rcases entered_of_update hcalls hc with ⟨rfl, -⟩ | ⟨-, hd⟩
        · exact hold hother
        · exact hold hd
      | returned j d a s' es' result hother hthrown hmove hdeliver hregistered hresult hcalls =>
        rcases entered_of_update hcalls hc with ⟨rfl, -⟩ | ⟨-, hd⟩
        · exact hold hother
        · exact hold hd
      | threw j d hother hthrown hsends hcalls =>
        rcases entered_of_update hcalls hc with ⟨rfl, -⟩ | ⟨-, hd⟩
        · exact hold hother
        · exact hold hd
  exact hall c hcall

/-! ## The exit of a call -/

/-- An exception leaves a call where it was about to send. -/
theorem sends_of_thrown {es : List ProcessEvent} (h : (serverProcess udpSocket).Trace es S)
    (hcall : S.calls i = .entered c) (hthrown : c.thrown = true) : c.state.driver.sends = true := by
  have hall : ∀ c, S.calls i = .entered c → c.thrown = true → c.state.driver.sends = true := by
    refine h.invariant (I := fun _ S => ∀ c, S.calls i = .entered c → c.thrown = true →
      c.state.driver.sends = true) ?_ ?_
    · rintro S rfl c hc
      contradiction
    · intro es S act S' e _ ih hstep d hd hthrew
      have hchange := step_change hstep
      by_cases hnew : .sendThrew i ∈ e
      · -- the step that throws is one of this call
        rw [mem_filter_ofCalls rfl] at hnew
        cases hchange with
        | same hcalls hmap hevents => simp [hevents] at hnew
        | refused j error hunused hcalls hmap hevents => simp [hevents] at hnew
        | registered j a t hunused htran hfree hcalls hmap hevents => simp [hevents] at hnew
        | advanced j b a s' es' hb hmove hdeliver hregistered hcalls hmap hevents => simp [hevents] at hnew
        | returned j b a s' es' id hb hnot hmove hdeliver hregistered hresult hcalls hmap hevents =>
          simp [hevents] at hnew
        | threw j b hb hnot hsends hcalls hmap hevents =>
          simp only [hevents, List.mem_cons, ProcessEvent.sendThrew.injEq, reduceCtorEq, List.not_mem_nil,
            or_false] at hnew
          subst hnew
          rw [hcalls, Function.update_self] at hd
          cases hd
          exact hsends
      · cases hbefore : (S.calls i).call? with
        | none =>
          have hfresh := (step_entering hbefore hstep hd).2.2.1
          rw [hthrew] at hfresh
          contradiction
        | some b =>
          rw [CallStatus.call?_eq_some] at hbefore
          obtain ⟨d', hd', -, hthrew'⟩ := hchange.entered hbefore
          cases hd.symm.trans hd'
          have hold := (hthrew'.mp hthrew).resolve_right hnew
          have hsends := ih b hbefore hold
          cases step_callMove hbefore hstep with
          | still d' hd' htran hstate =>
            cases hd.symm.trans hd'
            rw [hstate]
            exact hsends
          | moved a s' es' hmove hd' hevents hdeliver hother =>
            cases hd.symm.trans hd'
            exact (ServerState.driver_of_other (hother hold) hmove).symm ▸ hsends
  exact hall c hcall hthrown

/-- A call that was left stays so. -/
theorem left_step {act : ProcessAction} {result : Except StartError MessageId} (hleft : c.Left result)
    (hcall : S.calls i = .entered c) (h : S.step udpSocket act = some (S', e))
    (hcall' : S'.calls i = .entered d) : d.Left result := by
  rcases hleft with ⟨hresult, hthrown⟩ | ⟨id, hresult, hreturned⟩
  · obtain ⟨d', hd', -, hthrew⟩ := (step_change h).entered hcall
    cases hcall'.symm.trans hd'
    exact Or.inl ⟨hresult, hthrew.mpr (Or.inl hthrown)⟩
  · refine Or.inr ⟨id, hresult, ?_⟩
    cases step_callMove hcall h with
    | still d' hd' htran hstate =>
      cases hcall'.symm.trans hd'
      rw [hstate, hreturned]
    | moved a s' es hmove hd' =>
      cases hcall'.symm.trans hd'
      have hother : a.ofDriver = false := by
        by_contra hdriver
        have hregistered := ServerState.registered_of_step (Bool.not_eq_false _ ▸ hdriver) hmove
        rw [hreturned] at hregistered
        contradiction
      exact (ServerState.driver_of_other hother hmove).trans hreturned

/-- The exit that a step reports is the one that the call then shows. -/
theorem Change.left {result : Except StartError MessageId} (h : Change udpSocket S S' e)
    (hexit : .exited i result ∈ e) :
    S'.calls i ≠ .unused ∧ ∀ c, S'.calls i = .entered c → c.Left result := by
  rw [mem_filter_ofCalls rfl] at hexit
  cases h with
  | same hcalls hmap hevents => simp [hevents] at hexit
  | refused j error hunused hcalls hmap hevents =>
    simp only [hevents, List.mem_singleton, ProcessEvent.exited.injEq] at hexit
    obtain ⟨rfl, -⟩ := hexit
    rw [hcalls, Function.update_self]
    exact ⟨fun hstatus => by contradiction, fun c hc => by contradiction⟩
  | registered j a t hunused htran hfree hcalls hmap hevents => simp [hevents] at hexit
  | advanced j b a s' es hb hstep hdeliver hregistered hcalls hmap hevents => simp [hevents] at hexit
  | returned j b a s' es id hb hthrown hstep hdeliver hregistered hresult hcalls hmap hevents =>
    simp only [hevents, List.mem_append, List.mem_map, reduceCtorEq, and_false, exists_false,
      List.mem_singleton, ProcessEvent.exited.injEq, false_or] at hexit
    obtain ⟨rfl, rfl⟩ := hexit
    rw [hcalls, Function.update_self]
    refine ⟨fun hstatus => by contradiction, fun c hc => ?_⟩
    cases hc
    exact Or.inr ⟨id, rfl, hresult⟩
  | threw j b hb hthrown hsends hcalls hmap hevents =>
    simp only [hevents, List.mem_cons, reduceCtorEq, ProcessEvent.exited.injEq, List.not_mem_nil,
      or_false, false_or] at hexit
    obtain ⟨rfl, rfl⟩ := hexit
    rw [hcalls, Function.update_self]
    refine ⟨fun hstatus => by contradiction, fun c hc => ?_⟩
    cases hc
    exact Or.inl ⟨rfl, rfl⟩

/-- A call that was used stays used, and it is entered only if it was not refused. -/
theorem Change.used (h : Change udpSocket S S' e) (hused : S.calls i ≠ .unused) :
    S'.calls i ≠ .unused ∧ ∀ d, S'.calls i = .entered d → ∃ c, S.calls i = .entered c := by
  cases hstatus : S.calls i with
  | unused => exact absurd hstatus hused
  | refused =>
    have hsame := (h.refused_stays hstatus).1
    rw [hsame]
    exact ⟨fun hcall => by contradiction, fun d hd => by contradiction⟩
  | entered c =>
    obtain ⟨d, hd, -⟩ := h.entered hstatus
    rw [hd]
    exact ⟨fun hcall => by contradiction, fun _ _ => ⟨c, rfl⟩⟩

/-- Whatever a call was reported to exit with is what it shows. -/
theorem left_of_exited {es : List ProcessEvent} {result : Except StartError MessageId}
    (h : (serverProcess udpSocket).Trace es S) (hexit : .exited i result ∈ es)
    (hcall : S.calls i = .entered c) : c.Left result := by
  suffices hall : S.calls i ≠ .unused ∧ ∀ c, S.calls i = .entered c → c.Left result from hall.2 c hcall
  revert hexit
  refine h.invariant (I := fun es S => .exited i result ∈ es →
    S.calls i ≠ .unused ∧ ∀ c, S.calls i = .entered c → c.Left result) ?_ ?_
  · intro S _ hexit
    contradiction
  · intro es S act S' e _ ih hstep hexit
    have hchange := step_change hstep
    rcases List.mem_append.mp hexit with hold | hnew
    · obtain ⟨hused, hleft⟩ := ih hold
      obtain ⟨hused', hbefore⟩ := hchange.used hused
      refine ⟨hused', fun d hd => ?_⟩
      obtain ⟨c, hc⟩ := hbefore d hd
      exact left_step (hleft c hc) hc hstep hd
    · exact hchange.left hnew

end ServerProcess

end Trftp
