import Trftp.Server.Registry

/-!
# The slot of a call

A call of `StartFileTransfer` takes a slot in the map when it registers its transaction, and
gives it back at each of its returns. There is no other place where it does: an exception of
`Send` passes all of them, so the slot stays taken, and every later transfer to that client is
refused.
-/

namespace Trftp

open Lib (EventMachine)

namespace ServerProcess

variable {udpSocket : SockAddr} {S S' : ServerProcess} {es e : List ProcessEvent} {i : ℕ} {a : StartArgs}

/-- Call `i` of `StartFileTransfer` was made in the first state and has exited with the step to the
last one. -/
inductive Exited (udpSocket : SockAddr) (i : ℕ) (a : StartArgs) (S₀ : ServerProcess) :
    List ProcessEvent → ServerProcess → Prop
  | atOnce {S : ServerProcess} {e : List ProcessEvent} {result : Except StartError MessageId}
      (hstart : S₀.step udpSocket (.start i a) = some (S, e)) (hexit : .exited i result ∈ e) :
      Exited udpSocket i a S₀ e S
  | later {S₁ S₂ S : ServerProcess} {e₀ es e : List ProcessEvent} {action : ProcessAction}
      {result : Except StartError MessageId} (hstart : S₀.step udpSocket (.start i a) = some (S₁, e₀))
      (hrun : (serverProcess udpSocket).Run S₁ es S₂) (hstep : S₂.step udpSocket action = some (S, e))
      (hexit : .exited i result ∈ e) : Exited udpSocket i a S₀ (e₀ ++ es ++ e) S

/-- The steps of call `i`, made in this state, change the map at its own key only. -/
def OtherKeysKept (udpSocket : SockAddr) (i : ℕ) (a : StartArgs) (S₀ : ServerProcess) : Prop :=
  ∀ S₁ e₀, S₀.step udpSocket (.start i a) = some (S₁, e₀) →
    (∀ k ≠ a.clientIp, S₁.activeTransactions k = S₀.activeTransactions k) ∧
    ∀ es S action S' e, (serverProcess udpSocket).Run S₁ es S → action.MadeBy i →
      S.step udpSocket action = some (S', e) →
      ∀ k ≠ a.clientIp, S'.activeTransactions k = S.activeTransactions k

/-- The first step of a call refuses it or registers its transaction. -/
theorem start_cases (h : S.step udpSocket (.start i a) = some (S', e)) :
    S.calls i = .unused ∧
      ((S'.calls i = .refused ∧ S'.activeTransactions = S.activeTransactions ∧
          ∃ error, e = [.exited i (.error error)]) ∨
        ∃ t, S'.calls i = .entered ⟨a.clientIp, t, t.registeredState, false⟩ ∧
          S.activeTransactions a.clientIp = none ∧
          S'.activeTransactions = Function.update S.activeTransactions a.clientIp (some i) ∧
          e = [.registered i]) := by
  simp only [step] at h
  split at h
  · rename_i hunused
    refine ⟨hunused, ?_⟩
    unfold start at h
    split at h
    · cases h
      exact Or.inl ⟨Function.update_self .., rfl, _, rfl⟩
    · split at h
      · cases h
        exact Or.inl ⟨Function.update_self .., rfl, _, rfl⟩
      · cases h
        exact Or.inr ⟨_, Function.update_self .., ‹_›, rfl, rfl⟩
  · contradiction

/-- A call exits by a return, which frees its key, or by an exception, which leaves the map alone. -/
theorem Change.exited {c : Call} {result : Except StartError MessageId} (h : Change udpSocket S S' e)
    (hcall : S.calls i = .entered c) (hexit : .exited i result ∈ e) :
    (c.thrown = false ∧ .sendThrew i ∉ e ∧ S'.activeTransactions c.clientIp = none) ∨
      (.sendThrew i ∈ e ∧ c.state.driver.registered = true ∧ S'.activeTransactions = S.activeTransactions) := by
  rw [mem_filter_ofCalls rfl] at hexit
  cases h with
  | same hcalls hmap hevents => simp [hevents] at hexit
  | refused j error hunused hcalls hmap hevents =>
    simp only [hevents, List.mem_singleton, ProcessEvent.exited.injEq] at hexit
    rw [hexit.1, hunused] at hcall
    contradiction
  | registered j a t hunused htran hfree hcalls hmap hevents => simp [hevents] at hexit
  | advanced j b a s' es hb hstep hdeliver hregistered hcalls hmap hevents => simp [hevents] at hexit
  | returned j b a s' es result' hb hthrown hstep hdeliver hregistered hresult hcalls hmap hevents =>
    have hj : i = j := by
      simp only [hevents, List.mem_append, List.mem_map, reduceCtorEq, and_false, exists_false,
        List.mem_singleton, ProcessEvent.exited.injEq, false_or] at hexit
      exact hexit.1
    subst hj
    cases hcall.symm.trans hb
    refine Or.inl ⟨hthrown, ?_, by rw [hmap, Function.update_self]⟩
    rw [mem_filter_ofCalls rfl, hevents]
    simp
  | threw j b hb hthrown hsends hcalls hmap hevents =>
    have hj : i = j := by
      simp only [hevents, List.mem_cons, reduceCtorEq, ProcessEvent.exited.injEq, List.not_mem_nil,
        or_false, false_or] at hexit
      exact hexit.1
    subst hj
    cases hcall.symm.trans hb
    refine Or.inr ⟨?_, DriverPos.registered_of_sends hsends, hmap⟩
    rw [mem_filter_ofCalls rfl, hevents]
    exact List.mem_cons_self

/-- A call that was refused makes no further step. -/
theorem Change.refused_stays (h : Change udpSocket S S' e) (hcall : S.calls i = .refused) :
    S'.calls i = .refused ∧ ∀ result, .exited i result ∉ e := by
  have hother : ∀ {j status}, S.calls j = status → status ≠ .refused → i ≠ j := by
    rintro j status hj hne rfl
    exact hne (hj.symm.trans hcall)
  have hquiet : ∀ {es}, e.filter ProcessEvent.ofCalls = es → (∀ result, .exited i result ∉ es) →
      ∀ result, .exited i result ∉ e := by
    intro es hevents hes result hmem
    exact hes result (hevents ▸ (mem_filter_ofCalls rfl).mp hmem)
  cases h with
  | same hcalls hmap hevents => exact ⟨by rw [hcalls, hcall], hquiet hevents (by simp)⟩
  | refused j error hunused hcalls hmap hevents =>
    have hne := hother hunused (by simp)
    exact ⟨calls_of_ne hcall hne hcalls, hquiet hevents (by simp [hne])⟩
  | registered j a t hunused htran hfree hcalls hmap hevents =>
    exact ⟨calls_of_ne hcall (hother hunused (by simp)) hcalls, hquiet hevents (by simp)⟩
  | advanced j b a s' es hb hstep hdeliver hregistered hcalls hmap hevents =>
    exact ⟨calls_of_ne hcall (hother hb (by simp)) hcalls, hquiet hevents (by simp)⟩
  | returned j b a s' es result hb hthrown hstep hdeliver hregistered hresult hcalls hmap hevents =>
    have hne := hother hb (by simp)
    exact ⟨calls_of_ne hcall hne hcalls, hquiet hevents (by simp [hne])⟩
  | threw j b hb hthrown hsends hcalls hmap hevents =>
    have hne := hother hb (by simp)
    exact ⟨calls_of_ne hcall hne hcalls, hquiet hevents (by simp [hne])⟩

/-- A call that was refused has no steps. -/
theorem step_refused {action : ProcessAction} (hmade : action.MadeBy i) (hcall : S.calls i = .refused) :
    S.step udpSocket action = none := by
  cases action with
  | start j b | call j b | sendThrows j =>
    obtain rfl : j = i := hmade
    cases hterminated : S.terminated <;> simp [step, hcall, hterminated, CallStatus.call?]
  | senderThrows | abort | datagram | receiver => exact absurd hmade id

/-- The steps of a call change the map at its own key only. -/
theorem keys_of_madeBy {action : ProcessAction} {c : Call} (hmade : action.MadeBy i)
    (h : S.step udpSocket action = some (S', e)) (hcall : S.calls i = .entered c) :
    ∀ k ≠ c.clientIp, S'.activeTransactions k = S.activeTransactions k := by
  intro k hk
  cases action with
  | start j b =>
    obtain rfl : j = i := hmade
    rw [(start_cases h).1] at hcall
    contradiction
  | call j b =>
    obtain rfl : j = i := hmade
    simp only [step] at h
    split at h
    · rename_i d _ hd
      split_ifs at h
      obtain ⟨p, hstep, hp⟩ := Option.map_eq_some_iff.mp h
      cases hcall.symm.trans (CallStatus.call?_eq_some.mp hd)
      have hmap : (S.update j c p).1.activeTransactions k = S.activeTransactions k := by
        unfold update
        split
        · split_ifs
          · exact Function.update_of_ne hk ..
          · rfl
        · rfl
      rw [hp] at hmap
      exact hmap
    · contradiction
  | sendThrows j =>
    simp only [step] at h
    split at h
    · split_ifs at h
      cases h
      rfl
    · contradiction
  | senderThrows | abort | datagram | receiver => exact absurd hmade id

/-- What is known of a call while it runs. -/
structure Running (i : ℕ) (a : StartArgs) (es : List ProcessEvent) (S : ServerProcess) (c : Call) : Prop where
  entered : S.calls i = .entered c
  key : c.clientIp = a.clientIp
  thrown : c.thrown = true ↔ .sendThrew i ∈ es

/-- A call that was entered runs on. -/
theorem running_of_run {c : Call} (hrun : (serverProcess udpSocket).Run S es S')
    (hcall : S.calls i = .entered c) (hkey : c.clientIp = a.clientIp) (hthrown : c.thrown = false) :
    ∃ d, Running i a es S' d := by
  refine hrun.invariant (I := fun es S => ∃ d, Running i a es S d) ⟨c, hcall, hkey, by simp [hthrown]⟩ ?_
  rintro es S b S' e ⟨d, hd⟩ hstep
  obtain ⟨d', hcall', hkey', hthrown'⟩ := (step_change hstep).entered hd.entered
  exact ⟨d', hcall', hkey'.trans hd.key, by rw [hthrown', hd.thrown, List.mem_append]⟩

/-- A call that was refused stays so. -/
theorem refused_of_run (hrun : (serverProcess udpSocket).Run S es S') (hcall : S.calls i = .refused) :
    S'.calls i = .refused :=
  hrun.preserves (P := fun S => S.calls i = .refused) hcall fun hcall hstep =>
    ((step_change hstep).refused_stays hcall).1

/-- The steps of a call leave the other keys alone. -/
theorem otherKeysKept (udpSocket : SockAddr) (i : ℕ) (a : StartArgs) (S₀ : ServerProcess) :
    OtherKeysKept udpSocket i a S₀ := by
  intro S₁ e₀ hstart
  rcases (start_cases hstart).2 with ⟨hrefused, hmap, -⟩ | ⟨t, hentered, -, hmap, -⟩
  · constructor
    · intro k _
      rw [hmap]
    · intro es S action S' e hrun hmade hstep
      rw [step_refused hmade (refused_of_run hrun hrefused)] at hstep
      contradiction
  · constructor
    · intro k hk
      rw [hmap, Function.update_of_ne hk]
    · intro es S action S' e hrun hmade hstep
      obtain ⟨c, hc⟩ := running_of_run (a := a) hrun hentered rfl rfl
      rw [← hc.key]
      exact keys_of_madeBy hmade hstep hc.entered

/-- A call gives its slot back unless one of its own sendings throws.

When call `i` of `StartFileTransfer` exits, by a return or by an exception, its key is mapped to what it
was mapped to before, and the steps of the call have left the other keys alone, if and only if no
`Send` of the call threw. -/
theorem slot_released_iff {S₀ : ServerProcess} {es₀ : List ProcessEvent}
    (htrace : (serverProcess udpSocket).Trace es₀ S₀) (h : Exited udpSocket i a S₀ es S) :
    (S.activeTransactions a.clientIp = S₀.activeTransactions a.clientIp ∧ OtherKeysKept udpSocket i a S₀) ↔
      .sendThrew i ∉ es := by
  rw [and_iff_left (otherKeysKept udpSocket i a S₀)]
  cases h with
  | atOnce hstart hexit =>
    rcases (start_cases hstart).2 with ⟨-, hmap, error, rfl⟩ | ⟨t, -, -, -, rfl⟩
    · exact iff_of_true (congrFun hmap _) (by simp)
    · simp at hexit
  | @later S₁ S₂ S e₀ es e action result hstart hrun hstep hexit =>
    rcases (start_cases hstart).2 with ⟨hrefused, -, -⟩ | ⟨t, hentered, hfree, -, rfl⟩
    · exact absurd hexit (((step_change hstep).refused_stays (refused_of_run hrun hrefused)).2 _)
    · obtain ⟨c, hc⟩ := running_of_run (a := a) hrun hentered rfl rfl
      rw [hfree, ← hc.key]
      rcases (step_change hstep).exited hc.entered hexit with
        ⟨hthrown, hquiet, hreleased⟩ | ⟨hthrew, hregistered, hmap⟩
      · refine iff_of_true hreleased ?_
        have hes : .sendThrew i ∉ es := fun hmem => by simp [hc.thrown.mpr hmem] at hthrown
        simp [hes, hquiet]
      · refine iff_of_false ?_ (by simp [hthrew])
        have hstart' : (serverProcess udpSocket).step S₀ (.start i a) = some (S₁, [.registered i]) := hstart
        have hslot := (registryInv_of_trace ((htrace.step hstart').run hrun)).active hc.entered hregistered
        rw [hmap, hslot]
        exact Option.some_ne_none i

/-- A call that an exception left is known by its mark. -/
theorem thrown_of_trace (htrace : (serverProcess udpSocket).Trace es S) (hthrew : .sendThrew i ∈ es) :
    ∃ c, S.calls i = .entered c ∧ c.thrown = true := by
  revert hthrew
  refine htrace.invariant (I := fun es S => .sendThrew i ∈ es → ∃ c, S.calls i = .entered c ∧ c.thrown = true)
    ?_ ?_
  · intro S _ hthrew
    contradiction
  · intro es S action S' e _ ih hstep hthrew
    have hchange := step_change hstep
    rcases List.mem_append.mp hthrew with hold | hnew
    · obtain ⟨c, hcall, hthrown⟩ := ih hold
      obtain ⟨d, hd, -, hmark⟩ := hchange.entered hcall
      exact ⟨d, hd, hmark.mpr (Or.inl hthrown)⟩
    · obtain ⟨c, -, hcall⟩ := hchange.sendThrew hnew
      exact ⟨_, hcall, rfl⟩

/-- Behind such an exception no call with the same key gets a transaction any more. -/
theorem refused_of_sendThrew (htrace : (serverProcess udpSocket).Trace es S) (hthrew : .sendThrew i ∈ es) :
    ∃ c, S.calls i = .entered c ∧ ∀ j b S' e, b.clientIp = c.clientIp →
      S.step udpSocket (.start j b) = some (S', e) → ∃ error, e = [.exited j (.error error)] := by
  obtain ⟨c, hcall, hthrown⟩ := thrown_of_trace htrace hthrew
  have hinv := registryInv_of_trace htrace
  have hslot := hinv.active hcall ((hinv.ok hcall).thrown hthrown)
  refine ⟨c, hcall, fun j b S' e hkey hstart => ?_⟩
  rcases (start_cases hstart).2 with ⟨-, -, hrefused⟩ | ⟨t, -, hfree, -, -⟩
  · exact hrefused
  · rw [hkey, hslot] at hfree
    contradiction

/-- The arguments of a transfer of one byte to a client on the same host. -/
def localhost : StartArgs where
  clientUri := "127.0.0.1:64921".toList
  filePath := "firmware".toList
  file := some [0]
  fileVersion := 7
  device := 1

/-- The server before any call. -/
def idle : ServerProcess := ⟨fun _ => none, fun _ => .unused, none, false⟩

/-- A client that does not answer: the call returns NTF and gives its slot back. -/
theorem slot_released_unanswered :
    ∃ es S, Exited ⟨2, 2⟩ 0 localhost idle es S ∧
      (S.activeTransactions localhost.clientIp = idle.activeTransactions localhost.clientIp ∧
        OtherKeysKept ⟨2, 2⟩ 0 localhost idle) := by
  obtain ⟨S₁, e₀, hstart, S₂, es, hexec, S, e, hstep, hexit, hquiet⟩ :
      ∃ S₁ e₀, idle.step ⟨2, 2⟩ (.start 0 localhost) = some (S₁, e₀) ∧
      ∃ S₂ es, (serverProcess ⟨2, 2⟩).exec S₁
        [.call 0 .driver, .call 0 .driver, .call 0 .driver, .call 0 .timeout, .call 0 .driver] = some (S₂, es) ∧
      ∃ S e, S₂.step ⟨2, 2⟩ (.call 0 .driver) = some (S, e) ∧ .exited 0 (.ok .ntf) ∈ e ∧
        .sendThrew 0 ∉ e₀ ++ es ++ e := by
    refine ⟨_, _, rfl, _, _, rfl, _, _, rfl, List.mem_cons_of_mem _ List.mem_cons_self, ?_⟩
    intro hmem
    simp [ServerProcess.update] at hmem
  have hexited : Exited ⟨2, 2⟩ 0 localhost idle (e₀ ++ es ++ e) S :=
    .later hstart (EventMachine.exec_run hexec) hstep hexit
  exact ⟨_, S, hexited, (slot_released_iff (EventMachine.Trace.initial (M := serverProcess ⟨2, 2⟩) rfl)
    hexited).mpr hquiet⟩

/-- A sending that throws: the slot is not given back, and the next transfer is refused. -/
theorem slot_kept :
    ∃ es S, Exited ⟨2, 2⟩ 0 localhost idle es S ∧ idle.activeTransactions localhost.clientIp = none ∧
      S.activeTransactions localhost.clientIp = some 0 ∧
      ∃ S', S.step ⟨2, 2⟩ (.start 1 localhost) =
        some (S', [.exited 1 (.error (.alreadyExists localhost.clientIp))]) := by
  obtain ⟨S₁, e₀, hstart, S₂, es, hexec, S, e, hstep, hexit, hslot, hnext⟩ :
      ∃ S₁ e₀, idle.step ⟨2, 2⟩ (.start 0 localhost) = some (S₁, e₀) ∧
      ∃ S₂ es, (serverProcess ⟨2, 2⟩).exec S₁ [.call 0 .driver] = some (S₂, es) ∧
      ∃ S e, S₂.step ⟨2, 2⟩ (.sendThrows 0) = some (S, e) ∧ .exited 0 (.error .sendFailed) ∈ e ∧
        S.activeTransactions localhost.clientIp = some 0 ∧
        ∃ S', S.step ⟨2, 2⟩ (.start 1 localhost) =
          some (S', [.exited 1 (.error (.alreadyExists localhost.clientIp))]) :=
    ⟨_, _, rfl, _, _, rfl, _, _, rfl, List.mem_cons_of_mem _ List.mem_cons_self, rfl, _, rfl⟩
  exact ⟨_, S, .later hstart (EventMachine.exec_run hexec) hstep hexit, rfl, hslot, hnext⟩

end ServerProcess

end Trftp
