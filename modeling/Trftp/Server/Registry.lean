import Trftp.Server.Server

/-!
# The map of active transactions

What a step can do to the calls and to the map is said once, in `Change`. From it follow the
invariant of the map, the runs of the single transactions, the fate of a call's slot, and the
relation between the keys, which are texts that callers gave, and the addresses that datagrams
come from.
-/

namespace Trftp

open Lib (EventMachine)

/-- The events that tell of a call. -/
def ProcessEvent.ofCalls : ProcessEvent → Bool
  | .registered _ | .exited _ _ | .call _ _ | .sendThrew _ => true
  | .senderThrew _ | .noTransaction _ | .received _ | .dispatched _ _ | .receiveThrew => false

/-- The event of the transaction of call `i`, if it is one. -/
def ProcessEvent.of (i : ℕ) : ProcessEvent → Option ServerEvent
  | .call j e => if j = i then some e else none
  | _ => none

/-- The steps of call `i`. -/
def ProcessAction.MadeBy (i : ℕ) : ProcessAction → Prop
  | .start j _ | .call j _ | .sendThrows j => j = i
  | _ => False

/-- The transaction is created for the address that the text of the client's address stands for. -/
theorem StartArgs.createTransaction_addr {a : StartArgs} {udpSocket : SockAddr} {t : ServerTransaction}
    (h : a.createTransaction udpSocket = .ok t) : t.addr.sinAddr = a.address := by
  unfold createTransaction at h
  split_ifs at h
  split at h
  · contradiction
  · split at h
    · contradiction
    · cases h
      rfl

/-- A transaction that is about to send is registered. -/
theorem DriverPos.registered_of_sends {pos : DriverPos} (h : pos.sends = true) : pos.registered = true := by
  cases pos with
  | returned result => contradiction
  | start | sending | sample | waiting | woken | decide | finishing | cancelling | erase => rfl

/-- Only a call that has returned is no longer in the map. -/
theorem DriverPos.registered_eq_false {pos : DriverPos} (h : pos.registered = false) :
    ∃ result, pos = .returned result := by
  cases pos with
  | returned result => exact ⟨result, rfl⟩
  | start | sending | sample | waiting | woken | decide | finishing | cancelling | erase => contradiction

/-- A call that was entered. -/
theorem CallStatus.call?_eq_some {status : CallStatus} {c : Call} :
    status.call? = some c ↔ status = .entered c := by
  cases status <;> simp [CallStatus.call?]

namespace ServerState

variable {t : ServerTransaction} {s s' : ServerState} {e : List ServerEvent}

/-- The address of the client is recorded when a datagram is dispatched, and only then. -/
theorem step_clientAddress {a : ServerAction} (h : s.step t a = some (s', e)) :
    s'.vars.clientAddress = s.vars.clientAddress ∨ ∃ r, a = .deliver r ∧ s'.vars.clientAddress = r.addr := by
  cases a with
  | driver => exact Or.inl (driverStep_frame h).clientAddress
  | timeout => exact Or.inl (by rw [timeoutStep_frame h])
  | sender fileOk => exact Or.inl (senderStep_frame h).clientAddress
  | deliver r =>
    obtain ⟨-, -, rfl⟩ := deliverStep_eq h
    exact Or.inr ⟨r, rfl, rfl⟩
  | receiver =>
    rcases receiverStep_eq h with ⟨-, receiver, rfl, -⟩ | ⟨id, r, -, -, -, -, rfl⟩
    · exact Or.inl rfl
    · exact Or.inl (ServerVars.accepted_clientAddress _ _ _)
  | abort => exact Or.inl (by rw [(abortStep_eq h).2.1]; rfl)
  | abortSend => exact Or.inl (by rw [(abortSendStep_eq h).1])

/-- The other parties do not move `StartFileTransfer`. -/
theorem driver_of_other {a : ServerAction} (ha : a.ofDriver = false) (h : s.step t a = some (s', e)) :
    s'.driver = s.driver := by
  cases a with
  | driver | timeout => contradiction
  | sender fileOk => exact (senderStep_frame h).driver
  | deliver r => exact (deliverStep_frame h).1.driver
  | receiver => exact (receiverStep_frame h).driver
  | abort => rw [(abortStep_eq h).2.1]; rfl
  | abortSend => rw [(abortSendStep_eq h).1]

/-- `StartFileTransfer` makes no step after its return. -/
theorem registered_of_step {a : ServerAction} (ha : a.ofDriver = true) (h : s.step t a = some (s', e)) :
    s.driver.registered = true := by
  by_contra hreturned
  obtain ⟨result, hpos⟩ := DriverPos.registered_eq_false (Bool.not_eq_true _ ▸ hreturned)
  cases a with
  | driver =>
    simp only [step, driverStep, hpos] at h
    contradiction
  | timeout =>
    simp only [step, timeoutStep, hpos] at h
    contradiction
  | sender | deliver | receiver | abort | abortSend => contradiction

end ServerState

namespace ServerProcess

variable {udpSocket : SockAddr} {S S' : ServerProcess} {e : List ProcessEvent}

/-- What a step does to the calls and to the map, and what it tells of the calls. -/
inductive Change (udpSocket : SockAddr) (S S' : ServerProcess) (e : List ProcessEvent) : Prop
  | same (hcalls : S'.calls = S.calls) (hmap : S'.activeTransactions = S.activeTransactions)
      (hevents : e.filter ProcessEvent.ofCalls = [])
  | refused (i : ℕ) (error : StartError) (hunused : S.calls i = .unused)
      (hcalls : S'.calls = Function.update S.calls i .refused)
      (hmap : S'.activeTransactions = S.activeTransactions)
      (hevents : e.filter ProcessEvent.ofCalls = [.exited i (.error error)])
  | registered (i : ℕ) (a : StartArgs) (t : ServerTransaction) (hunused : S.calls i = .unused)
      (htran : a.createTransaction udpSocket = .ok t) (hfree : S.activeTransactions a.clientIp = none)
      (hcalls : S'.calls = Function.update S.calls i (.entered ⟨a.clientIp, t, t.registeredState, false⟩))
      (hmap : S'.activeTransactions = Function.update S.activeTransactions a.clientIp (some i))
      (hevents : e.filter ProcessEvent.ofCalls = [.registered i])
  | advanced (i : ℕ) (c : Call) (a : ServerAction) (s' : ServerState) (es : List ServerEvent)
      (hcall : S.calls i = .entered c) (hstep : c.state.step c.tran a = some (s', es))
      (hdeliver : ∀ r, a = .deliver r → S.dispatch r.addr.sinAddr = some i)
      (hregistered : s'.driver.registered = c.state.driver.registered)
      (hcalls : S'.calls = Function.update S.calls i (.entered { c with state := s' }))
      (hmap : S'.activeTransactions = S.activeTransactions)
      (hevents : e.filter ProcessEvent.ofCalls = es.map (.call i))
  | returned (i : ℕ) (c : Call) (a : ServerAction) (s' : ServerState) (es : List ServerEvent)
      (result : MessageId) (hcall : S.calls i = .entered c) (hthrown : c.thrown = false)
      (hstep : c.state.step c.tran a = some (s', es)) (hdeliver : ∀ r, a ≠ .deliver r)
      (hregistered : c.state.driver.registered = true) (hresult : s'.driver = .returned result)
      (hcalls : S'.calls = Function.update S.calls i (.entered { c with state := s' }))
      (hmap : S'.activeTransactions = Function.update S.activeTransactions c.clientIp none)
      (hevents : e.filter ProcessEvent.ofCalls = es.map (.call i) ++ [.exited i (.ok result)])
  | threw (i : ℕ) (c : Call) (hcall : S.calls i = .entered c) (hthrown : c.thrown = false)
      (hsends : c.state.driver.sends = true)
      (hcalls : S'.calls = Function.update S.calls i (.entered { c with thrown := true }))
      (hmap : S'.activeTransactions = S.activeTransactions)
      (hevents : e.filter ProcessEvent.ofCalls = [.sendThrew i, .exited i (.error .sendFailed)])

/-- The events of a transaction all tell of its call. -/
@[simp] theorem filter_ofCalls_map (i : ℕ) (es : List ServerEvent) :
    (es.map (ProcessEvent.call i)).filter ProcessEvent.ofCalls = es.map (.call i) := by
  rw [List.filter_eq_self]
  intro x hx
  obtain ⟨y, -, rfl⟩ := List.mem_map.mp hx
  rfl

/-- A step of a transaction that does not end its call. -/
theorem update_advanced {i : ℕ} {c : Call} {p : ServerState × List ServerEvent}
    (h : p.1.driver.registered = c.state.driver.registered) :
    S.update i c p =
      ({ S with calls := Function.update S.calls i (.entered { c with state := p.1 }) }, p.2.map (.call i)) := by
  unfold update
  split
  · rename_i hresult
    rw [hresult, DriverPos.registered] at h
    rw [if_neg (by rw [← h]; exact Bool.false_ne_true)]
  · rfl

/-- The statement of `StartFileTransfer` that returns. -/
theorem update_returned {i : ℕ} {c : Call} {p : ServerState × List ServerEvent} {result : MessageId}
    (hresult : p.1.driver = .returned result) (h : c.state.driver.registered = true) :
    S.update i c p =
      ({ S with
          calls := Function.update S.calls i (.entered { c with state := p.1 })
          activeTransactions := Function.update S.activeTransactions c.clientIp none },
        p.2.map (.call i) ++ [.exited i (.ok result)]) := by
  unfold update
  rw [hresult]
  exact if_pos h

/-- A step that a thread makes on a transaction. -/
theorem change_of_call {i : ℕ} {c : Call} {a : ServerAction} {p : ServerState × List ServerEvent}
    (hcall : S.calls i = .entered c) (ha : a.ofCall = true) (hthrown : ¬(c.thrown ∧ a.ofDriver))
    (hstep : c.state.step c.tran a = some p) : Change udpSocket S (S.update i c p).1 (S.update i c p).2 := by
  have hdeliver : ∀ r, a ≠ .deliver r := by
    rintro r rfl
    contradiction
  by_cases hregistered : p.1.driver.registered = c.state.driver.registered
  · rw [update_advanced hregistered]
    exact .advanced i c a p.1 p.2 hcall hstep (fun r hr => absurd hr (hdeliver r)) hregistered rfl rfl
      (filter_ofCalls_map i p.2)
  · have hdriver : a.ofDriver = true := by
      by_contra hother
      rw [Bool.not_eq_true] at hother
      exact hregistered (by rw [ServerState.driver_of_other hother hstep])
    have hbefore := ServerState.registered_of_step hdriver hstep
    rw [hbefore, Bool.not_eq_true] at hregistered
    obtain ⟨result, hresult⟩ := DriverPos.registered_eq_false hregistered
    rw [update_returned hresult hbefore]
    refine .returned i c a p.1 p.2 result hcall ?_ hstep hdeliver hbefore hresult rfl rfl ?_
    · by_contra hthrew
      exact hthrown ⟨Bool.not_eq_false _ ▸ hthrew, hdriver⟩
    · rw [List.filter_append, filter_ofCalls_map]
      rfl

/-- A step that the receive loop, or `AbortFileTransfer`, makes on a transaction. -/
theorem change_of_other {i : ℕ} {c : Call} {a : ServerAction} {p : ServerState × List ServerEvent}
    {T : ServerProcess} (pre : List ProcessEvent) (hcall : S.calls i = .entered c)
    (ha : a.ofDriver = false) (hstep : c.state.step c.tran a = some p)
    (hdeliver : ∀ r, a = .deliver r → S.dispatch r.addr.sinAddr = some i)
    (hcalls : T.calls = (S.update i c p).1.calls)
    (hmap : T.activeTransactions = (S.update i c p).1.activeTransactions)
    (hpre : pre.filter ProcessEvent.ofCalls = []) :
    Change udpSocket S T (pre ++ (S.update i c p).2) := by
  have hregistered : p.1.driver.registered = c.state.driver.registered := by
    rw [ServerState.driver_of_other ha hstep]
  rw [update_advanced hregistered] at hcalls hmap ⊢
  refine .advanced i c a p.1 p.2 hcall hstep hdeliver hregistered hcalls hmap ?_
  rw [List.filter_append, hpre, filter_ofCalls_map, List.nil_append]

/-- `StartFileTransfer` up to the registration. -/
theorem change_of_start {i : ℕ} {a : StartArgs} (hunused : S.calls i = .unused) :
    Change udpSocket S (S.start udpSocket i a).1 (S.start udpSocket i a).2 := by
  unfold start
  split
  · rename_i error _
    exact .refused i error hunused rfl rfl rfl
  · rename_i t htran
    split
    · exact .refused i _ hunused rfl rfl rfl
    · exact .registered i a t hunused htran ‹_› rfl rfl rfl

/-- The receive loop up to the entry of `OnReceive`. -/
theorem change_of_receive {buffer : TrftpMessage} {d : Datagram} (h : S.receive buffer d = some (S', e)) :
    Change udpSocket S S' e := by
  unfold receive at h
  split at h
  · cases h
    exact .same rfl rfl rfl
  · rename_i r hr
    split at h
    · cases h
      exact .same rfl rfl rfl
    · rename_i i hdispatch
      split at h
      · contradiction
      · rename_i c hcall
        obtain ⟨p, hstep, hp⟩ := Option.map_eq_some_iff.mp h
        cases hp
        refine change_of_other [.received d, .dispatched i r] (a := .deliver r)
          (CallStatus.call?_eq_some.mp hcall) rfl hstep (fun r' hr' => ?_) rfl rfl rfl
        cases hr'
        exact hdispatch

/-- The statements of `OnReceive`. -/
theorem change_of_receiver (h : S.receiver = some (S', e)) : Change udpSocket S S' e := by
  unfold receiver at h
  split at h
  · contradiction
  · rename_i i hreceiving
    split at h
    · contradiction
    · rename_i c hcall
      obtain ⟨p, hstep, hp⟩ := Option.map_eq_some_iff.mp h
      cases hp
      exact change_of_other [] (a := .receiver) (CallStatus.call?_eq_some.mp hcall) rfl hstep
        (fun r hr => by cases hr) rfl rfl rfl

/-- Every step is one of these changes. -/
theorem step_change {a : ProcessAction} (h : S.step udpSocket a = some (S', e)) :
    Change udpSocket S S' e := by
  cases a with
  | start i a =>
    simp only [step] at h
    split at h
    · rename_i hunused
      have hchange : Change udpSocket S (S.start udpSocket i a).1 (S.start udpSocket i a).2 :=
        change_of_start hunused
      rw [Option.some_inj.mp h] at hchange
      exact hchange
    · contradiction
  | call i a =>
    simp only [step] at h
    split at h
    · rename_i c _ hcall
      split_ifs at h with hguard
      obtain ⟨p, hstep, hp⟩ := Option.map_eq_some_iff.mp h
      rw [not_or, not_not] at hguard
      have hchange : Change udpSocket S (S.update i c p).1 (S.update i c p).2 :=
        change_of_call (CallStatus.call?_eq_some.mp hcall) hguard.1 hguard.2 hstep
      rw [hp] at hchange
      exact hchange
    · contradiction
  | sendThrows i =>
    simp only [step] at h
    split at h
    · rename_i c _ hcall
      split_ifs at h with hguard
      cases h
      rw [not_or, not_not, Bool.not_eq_true] at hguard
      exact .threw i c (CallStatus.call?_eq_some.mp hcall) hguard.1 hguard.2 rfl rfl rfl
    · contradiction
  | senderThrows i =>
    simp only [step] at h
    split at h
    · split_ifs at h
      cases h
      exact .same rfl rfl rfl
    · contradiction
  | abort clientIp =>
    simp only [step] at h
    split at h
    · cases h
      exact .same rfl rfl rfl
    · obtain ⟨c, hcall, h⟩ := Option.bind_eq_some_iff.mp h
      obtain ⟨p, hstep, hp⟩ := Option.map_eq_some_iff.mp h
      have hchange : Change udpSocket S (S.update _ c p).1 ([] ++ (S.update _ c p).2) :=
        change_of_other [] (a := .abort) (CallStatus.call?_eq_some.mp hcall) rfl hstep
          (fun r hr => by cases hr) rfl rfl rfl
      rw [List.nil_append, hp] at hchange
      exact hchange
    · contradiction
  | datagram buffer d =>
    simp only [step] at h
    split at h
    · exact change_of_receive h
    · contradiction
  | receiver =>
    simp only [step] at h
    split_ifs at h
    exact change_of_receiver h

/-! ## The calls -/

/-- An event that tells of the calls is among those that a change lists. -/
theorem mem_filter_ofCalls {x : ProcessEvent} (hx : x.ofCalls = true) :
    x ∈ e ↔ x ∈ e.filter ProcessEvent.ofCalls := by
  rw [List.mem_filter]
  exact ⟨fun h => ⟨h, hx⟩, fun h => h.1⟩

/-- A sending of a call that throws is told when it throws. -/
theorem Change.sendThrew {i : ℕ} (h : Change udpSocket S S' e) (hthrew : .sendThrew i ∈ e) :
    ∃ c, S.calls i = .entered c ∧ S'.calls i = .entered { c with thrown := true } := by
  rw [mem_filter_ofCalls rfl] at hthrew
  cases h with
  | same hcalls hmap hevents => simp [hevents] at hthrew
  | refused j error hunused hcalls hmap hevents => simp [hevents] at hthrew
  | registered j a t hunused htran hfree hcalls hmap hevents => simp [hevents] at hthrew
  | advanced j c a s' es hcall hstep hdeliver hregistered hcalls hmap hevents => simp [hevents] at hthrew
  | returned j c a s' es result hcall hthrown hstep hdeliver hregistered hresult hcalls hmap hevents =>
    simp [hevents] at hthrew
  | threw j c hcall hthrown hsends hcalls hmap hevents =>
    simp only [hevents, List.mem_cons, ProcessEvent.sendThrew.injEq, reduceCtorEq, List.not_mem_nil,
      or_false] at hthrew
    subst hthrew
    exact ⟨c, hcall, by rw [hcalls, Function.update_self]⟩

/-- A change of one call leaves another one as it was. -/
theorem calls_of_ne {i j : ℕ} {status status' : CallStatus} (hcall : S.calls i = status)
    (hne : i ≠ j) (hcalls : S'.calls = Function.update S.calls j status') : S'.calls i = status := by
  rw [hcalls, Function.update_of_ne hne, hcall]

/-- A call that was entered stays so, and so does the mark of an exception. -/
theorem Change.entered {i : ℕ} {c : Call} (h : Change udpSocket S S' e) (hcall : S.calls i = .entered c) :
    ∃ d, S'.calls i = .entered d ∧ d.clientIp = c.clientIp ∧
      (d.thrown = true ↔ c.thrown = true ∨ .sendThrew i ∈ e) := by
  by_cases hthrew : .sendThrew i ∈ e
  · obtain ⟨d, hd, hd'⟩ := h.sendThrew hthrew
    cases hcall.symm.trans hd
    exact ⟨_, hd', rfl, by simp [hthrew]⟩
  · suffices hd : ∃ d, S'.calls i = .entered d ∧ d.clientIp = c.clientIp ∧ d.thrown = c.thrown by
      obtain ⟨d, hd, hkey, hthrown⟩ := hd
      exact ⟨d, hd, hkey, by simp [hthrown, hthrew]⟩
    have hunused_ne : ∀ {j}, S.calls j = .unused → i ≠ j := by
      rintro j hunused rfl
      rw [hunused] at hcall
      contradiction
    have hmove : ∀ {j : ℕ} {b : Call} {s' : ServerState}, S.calls j = .entered b →
        S'.calls = Function.update S.calls j (.entered { b with state := s' }) →
        ∃ d, S'.calls i = .entered d ∧ d.clientIp = c.clientIp ∧ d.thrown = c.thrown := by
      intro j b s' hb hcalls
      by_cases hj : i = j
      · subst hj
        cases hcall.symm.trans hb
        exact ⟨{ c with state := s' }, by rw [hcalls, Function.update_self], rfl, rfl⟩
      · exact ⟨c, calls_of_ne hcall hj hcalls, rfl, rfl⟩
    cases h with
    | same hcalls hmap hevents => exact ⟨c, by rw [hcalls, hcall], rfl, rfl⟩
    | refused j error hunused hcalls hmap hevents =>
      exact ⟨c, calls_of_ne hcall (hunused_ne hunused) hcalls, rfl, rfl⟩
    | registered j a t hunused htran hfree hcalls hmap hevents =>
      exact ⟨c, calls_of_ne hcall (hunused_ne hunused) hcalls, rfl, rfl⟩
    | advanced j b a s' es hb hstep hdeliver hregistered hcalls hmap hevents => exact hmove hb hcalls
    | returned j b a s' es result hb hthrown hstep hdeliver hregistered hresult hcalls hmap hevents =>
      exact hmove hb hcalls
    | threw j b hb hthrown hsends hcalls hmap hevents =>
      have hj : i ≠ j := by
        rintro rfl
        exact hthrew ((mem_filter_ofCalls rfl).mpr (by rw [hevents]; exact List.mem_cons_self))
      exact ⟨c, calls_of_ne hcall hj hcalls, rfl, rfl⟩

/-- An event of a transaction is reported by a step of it. -/
theorem Change.call {i : ℕ} {x : ServerEvent} (h : Change udpSocket S S' e) (hx : .call i x ∈ e) :
    ∃ c a s' es, S.calls i = .entered c ∧ c.state.step c.tran a = some (s', es) ∧ x ∈ es ∧
      S'.calls i = .entered { c with state := s' } := by
  rw [mem_filter_ofCalls rfl] at hx
  cases h with
  | same hcalls hmap hevents => simp [hevents] at hx
  | refused j error hunused hcalls hmap hevents => simp [hevents] at hx
  | registered j a t hunused htran hfree hcalls hmap hevents => simp [hevents] at hx
  | advanced j c a s' es hcall hstep hdeliver hregistered hcalls hmap hevents =>
    simp only [hevents, List.mem_map, ProcessEvent.call.injEq] at hx
    obtain ⟨y, hy, rfl, rfl⟩ := hx
    exact ⟨c, a, s', es, hcall, hstep, hy, by rw [hcalls, Function.update_self]⟩
  | returned j c a s' es result hcall hthrown hstep hdeliver hregistered hresult hcalls hmap hevents =>
    simp only [hevents, List.mem_append, List.mem_map, ProcessEvent.call.injEq, List.mem_singleton,
      reduceCtorEq, or_false] at hx
    obtain ⟨y, hy, rfl, rfl⟩ := hx
    exact ⟨c, a, s', es, hcall, hstep, hy, by rw [hcalls, Function.update_self]⟩
  | threw j c hcall hthrown hsends hcalls hmap hevents => simp [hevents] at hx

/-! ## The transactions -/

/-- The events of a transaction are among those that tell of the calls. -/
theorem filterMap_of_filter (i : ℕ) (e : List ProcessEvent) :
    (e.filter ProcessEvent.ofCalls).filterMap (ProcessEvent.of i) = e.filterMap (ProcessEvent.of i) := by
  rw [List.filterMap_filter]
  congr
  funext x
  cases x <;> rfl

/-- The events that call `i` adds to those of call `j`. -/
theorem filterMap_of_map (i j : ℕ) (es : List ServerEvent) :
    (es.map (ProcessEvent.call j)).filterMap (ProcessEvent.of i) = if j = i then es else [] := by
  rw [List.filterMap_map]
  by_cases h : j = i
  · rw [if_pos h]
    have hof : ProcessEvent.of i ∘ ProcessEvent.call j = some := by
      funext x
      exact if_pos h
    rw [hof, List.filterMap_some]
  · rw [if_neg h, List.filterMap_eq_nil_iff]
    intro x _
    exact if_neg h

/-- What was reported of call `i`, and the transaction it works on, are a run of that transaction. -/
structure CallRun (i : ℕ) (es : List ProcessEvent) (S : ServerProcess) : Prop where
  entered : ∀ c, S.calls i = .entered c →
    (serverMachine c.tran).Trace (es.filterMap (ProcessEvent.of i)) c.state
  idle : (S.calls i).call? = none → es.filterMap (ProcessEvent.of i) = []

/-- A step that tells nothing of the call and leaves it alone. -/
theorem CallRun.keep {i : ℕ} {es : List ProcessEvent} (h : CallRun i es S)
    (hcall : S'.calls i = S.calls i) (hevents : e.filterMap (ProcessEvent.of i) = []) :
    CallRun i (es ++ e) S' := by
  constructor
  · intro c hc
    rw [List.filterMap_append, hevents, List.append_nil]
    exact h.entered c (hcall ▸ hc)
  · intro hc
    rw [List.filterMap_append, hevents, List.append_nil]
    exact h.idle (hcall ▸ hc)

/-- A step of the transaction of the call. -/
theorem CallRun.advance {i : ℕ} {es : List ProcessEvent} {c : Call} {a : ServerAction} {s' : ServerState}
    {es' : List ServerEvent} (h : CallRun i es S) (hcall : S.calls i = .entered c)
    (hstep : c.state.step c.tran a = some (s', es')) (hcall' : S'.calls i = .entered { c with state := s' })
    (hevents : e.filterMap (ProcessEvent.of i) = es') : CallRun i (es ++ e) S' := by
  constructor
  · intro d hd
    cases hcall'.symm.trans hd
    rw [List.filterMap_append, hevents]
    have hstep' : (serverMachine c.tran).step c.state a = some (s', es') := hstep
    exact (h.entered c hcall).step hstep'
  · intro hd
    rw [hcall'] at hd
    contradiction

/-- A step keeps that. -/
theorem Change.callRun {i : ℕ} {es : List ProcessEvent} (h : Change udpSocket S S' e)
    (hrun : CallRun i es S) : CallRun i (es ++ e) S' := by
  have hfilter := filterMap_of_filter i e
  cases h with
  | same hcalls hmap hevents =>
    rw [hevents] at hfilter
    exact hrun.keep (congrFun hcalls i) hfilter.symm
  | refused j error hunused hcalls hmap hevents =>
    rw [hevents] at hfilter
    by_cases hj : j = i
    · subst hj
      have hnew : S'.calls j = .refused := by rw [hcalls, Function.update_self]
      have hbefore := hrun.idle (by rw [hunused]; rfl)
      constructor
      · intro c hc
        rw [hnew] at hc
        contradiction
      · intro _
        rw [List.filterMap_append, hbefore, ← hfilter]
        rfl
    · exact hrun.keep (by rw [hcalls, Function.update_of_ne (Ne.symm hj)]) hfilter.symm
  | registered j a t hunused htran hfree hcalls hmap hevents =>
    rw [hevents] at hfilter
    by_cases hj : j = i
    · subst hj
      have hnew : S'.calls j = .entered ⟨a.clientIp, t, t.registeredState, false⟩ := by
        rw [hcalls, Function.update_self]
      have hbefore := hrun.idle (by rw [hunused]; rfl)
      constructor
      · intro c hc
        cases hnew.symm.trans hc
        rw [List.filterMap_append, hbefore, ← hfilter]
        exact EventMachine.Trace.initial (M := serverMachine t) rfl
      · intro hidle
        rw [hnew] at hidle
        contradiction
    · exact hrun.keep (by rw [hcalls, Function.update_of_ne (Ne.symm hj)]) hfilter.symm
  | advanced j c a s' es' hcall hstep hdeliver hregistered hcalls hmap hevents =>
    rw [hevents, filterMap_of_map] at hfilter
    by_cases hj : j = i
    · subst hj
      rw [if_pos rfl] at hfilter
      exact hrun.advance hcall hstep (by rw [hcalls, Function.update_self]) hfilter.symm
    · rw [if_neg hj] at hfilter
      exact hrun.keep (by rw [hcalls, Function.update_of_ne (Ne.symm hj)]) hfilter.symm
  | returned j c a s' es' result hcall hthrown hstep hdeliver hregistered hresult hcalls hmap hevents =>
    rw [hevents, List.filterMap_append, filterMap_of_map] at hfilter
    by_cases hj : j = i
    · subst hj
      rw [if_pos rfl] at hfilter
      refine hrun.advance hcall hstep (by rw [hcalls, Function.update_self]) ?_
      rw [← hfilter]
      exact List.append_nil _
    · rw [if_neg hj] at hfilter
      exact hrun.keep (by rw [hcalls, Function.update_of_ne (Ne.symm hj)]) hfilter.symm
  | threw j c hcall hthrown hsends hcalls hmap hevents =>
    rw [hevents] at hfilter
    by_cases hj : j = i
    · subst hj
      have hnew : S'.calls j = .entered { c with thrown := true } := by rw [hcalls, Function.update_self]
      constructor
      · intro d hd
        cases hnew.symm.trans hd
        have hevents' : e.filterMap (ProcessEvent.of j) = [] := hfilter.symm
        rw [List.filterMap_append, hevents', List.append_nil]
        exact hrun.entered c hcall
      · intro hidle
        rw [hnew] at hidle
        contradiction
    · exact hrun.keep (by rw [hcalls, Function.update_of_ne (Ne.symm hj)]) hfilter.symm

/-- Every call is a run of its transaction, whatever the other calls do. -/
theorem call_trace {es : List ProcessEvent} {i : ℕ} {c : Call} (h : (serverProcess udpSocket).Trace es S)
    (hcall : S.calls i = .entered c) :
    (serverMachine c.tran).Trace (es.filterMap (ProcessEvent.of i)) c.state := by
  have hrun : CallRun i es S := by
    refine h.invariant (I := fun es S => CallRun i es S) ?_ ?_
    · rintro S rfl
      exact ⟨fun c hc => (by contradiction), fun _ => rfl⟩
    · intro es S a S' e _ hrun hstep
      exact Change.callRun (step_change hstep) hrun
  exact hrun.entered c hcall

/-! ## The map -/

/-- What is known of a call that was entered. -/
structure CallOk (c : Call) : Prop where
  /-- a call that an exception left has not returned -/
  thrown : c.thrown = true → c.state.driver.registered = true
  /-- its transaction is for the address that its key stands for -/
  address : c.tran.addr.sinAddr = inetAddr (cStr c.clientIp)
  /-- and its messages go there -/
  clientAddress : c.state.vars.clientAddress.sinAddr = c.tran.addr.sinAddr

/-- The map and the calls agree. -/
structure RegistryInv (S : ServerProcess) : Prop where
  /-- an entry names a call that has not returned, under its own key -/
  entry : ∀ {k i}, S.activeTransactions k = some i →
    ∃ c, S.calls i = .entered c ∧ c.clientIp = k ∧ c.state.driver.registered = true
  /-- a call that has not returned is in the map -/
  active : ∀ {i c}, S.calls i = .entered c → c.state.driver.registered = true →
    S.activeTransactions c.clientIp = some i
  ok : ∀ {i c}, S.calls i = .entered c → CallOk c

/-- A datagram that is dispatched to a transaction comes from the address it is for. -/
theorem RegistryInv.dispatch_address {i : ℕ} {c : Call} {addr : UInt32} (h : RegistryInv S)
    (hcall : S.calls i = .entered c) (hdispatch : S.dispatch addr = some i) : addr = c.tran.addr.sinAddr := by
  obtain ⟨d, hd, hkey, -⟩ := h.entry hdispatch
  cases hcall.symm.trans hd
  rw [(h.ok hcall).address, hkey, cStr_inetNtoa, inetAddr_inetNtoa]

/-- A call that was entered behind a change of one call. -/
theorem entered_of_update {i j : ℕ} {status : CallStatus} {c : Call}
    (hcalls : S'.calls = Function.update S.calls i status) (h : S'.calls j = .entered c) :
    (j = i ∧ status = .entered c) ∨ (j ≠ i ∧ S.calls j = .entered c) := by
  rw [hcalls] at h
  by_cases hj : j = i
  · subst hj
    rw [Function.update_self] at h
    exact Or.inl ⟨rfl, h⟩
  · rw [Function.update_of_ne hj] at h
    exact Or.inr ⟨hj, h⟩

/-- A call goes on and keeps its entry. -/
theorem RegistryInv.advance {i : ℕ} {c d : Call} (h : RegistryInv S) (hcall : S.calls i = .entered c)
    (hcalls : S'.calls = Function.update S.calls i (.entered d))
    (hmap : S'.activeTransactions = S.activeTransactions) (hkey : d.clientIp = c.clientIp)
    (hregistered : d.state.driver.registered = c.state.driver.registered) (hok : CallOk d) :
    RegistryInv S' := by
  constructor
  · intro k j hentry
    rw [hmap] at hentry
    obtain ⟨b, hb, hbkey, hactive⟩ := h.entry hentry
    by_cases hj : j = i
    · subst hj
      cases hcall.symm.trans hb
      exact ⟨d, by rw [hcalls, Function.update_self], hkey.trans hbkey, hregistered.trans hactive⟩
    · exact ⟨b, by rw [hcalls, Function.update_of_ne hj, hb], hbkey, hactive⟩
  · intro j b hb hactive
    rw [hmap]
    rcases entered_of_update hcalls hb with ⟨rfl, hd⟩ | ⟨-, hb⟩
    · cases hd
      rw [hkey]
      exact h.active hcall (hregistered ▸ hactive)
    · exact h.active hb hactive
  · intro j b hb
    rcases entered_of_update hcalls hb with ⟨rfl, hd⟩ | ⟨-, hb⟩
    · cases hd
      exact hok
    · exact h.ok hb

/-- A call returns and takes its entry with it. -/
theorem RegistryInv.finish {i : ℕ} {c d : Call} (h : RegistryInv S) (hcall : S.calls i = .entered c)
    (hcalls : S'.calls = Function.update S.calls i (.entered d))
    (hmap : S'.activeTransactions = Function.update S.activeTransactions c.clientIp none)
    (hbefore : c.state.driver.registered = true) (hregistered : d.state.driver.registered = false)
    (hok : CallOk d) : RegistryInv S' := by
  have hentry := h.active hcall hbefore
  constructor
  · intro k j hj
    rw [hmap] at hj
    by_cases hk : k = c.clientIp
    · rw [hk, Function.update_self] at hj
      contradiction
    · rw [Function.update_of_ne hk] at hj
      obtain ⟨b, hb, hbkey, hactive⟩ := h.entry hj
      have hne : j ≠ i := by
        rintro rfl
        cases hcall.symm.trans hb
        exact hk hbkey.symm
      exact ⟨b, by rw [hcalls, Function.update_of_ne hne, hb], hbkey, hactive⟩
  · intro j b hb hactive
    rcases entered_of_update hcalls hb with ⟨rfl, hd⟩ | ⟨hne, hb⟩
    · cases hd
      rw [hregistered] at hactive
      contradiction
    · have hother := h.active hb hactive
      have hk : b.clientIp ≠ c.clientIp := by
        intro hk
        rw [hk, hentry] at hother
        exact hne (Option.some.inj hother).symm
      rw [hmap, Function.update_of_ne hk, hother]
  · intro j b hb
    rcases entered_of_update hcalls hb with ⟨rfl, hd⟩ | ⟨-, hb⟩
    · cases hd
      exact hok
    · exact h.ok hb

/-- A call is entered and takes a free key. -/
theorem RegistryInv.register {i : ℕ} {d : Call} (h : RegistryInv S) (hunused : S.calls i = .unused)
    (hfree : S.activeTransactions d.clientIp = none)
    (hcalls : S'.calls = Function.update S.calls i (.entered d))
    (hmap : S'.activeTransactions = Function.update S.activeTransactions d.clientIp (some i))
    (hregistered : d.state.driver.registered = true) (hok : CallOk d) : RegistryInv S' := by
  constructor
  · intro k j hj
    rw [hmap] at hj
    by_cases hk : k = d.clientIp
    · rw [hk, Function.update_self] at hj
      cases hj
      exact ⟨d, by rw [hcalls, Function.update_self], hk.symm, hregistered⟩
    · rw [Function.update_of_ne hk] at hj
      obtain ⟨b, hb, hbkey, hactive⟩ := h.entry hj
      have hne : j ≠ i := by
        rintro rfl
        rw [hunused] at hb
        contradiction
      exact ⟨b, by rw [hcalls, Function.update_of_ne hne, hb], hbkey, hactive⟩
  · intro j b hb hactive
    rcases entered_of_update hcalls hb with ⟨rfl, hd⟩ | ⟨-, hb⟩
    · cases hd
      rw [hmap, Function.update_self]
    · have hother := h.active hb hactive
      have hk : b.clientIp ≠ d.clientIp := by
        intro hk
        rw [hk, hfree] at hother
        contradiction
      rw [hmap, Function.update_of_ne hk, hother]
  · intro j b hb
    rcases entered_of_update hcalls hb with ⟨rfl, hd⟩ | ⟨-, hb⟩
    · cases hd
      exact hok
    · exact h.ok hb

/-- A call that is refused leaves the map alone. -/
theorem RegistryInv.refuse {i : ℕ} (h : RegistryInv S) (hunused : S.calls i = .unused)
    (hcalls : S'.calls = Function.update S.calls i .refused)
    (hmap : S'.activeTransactions = S.activeTransactions) : RegistryInv S' := by
  constructor
  · intro k j hj
    rw [hmap] at hj
    obtain ⟨b, hb, hbkey, hactive⟩ := h.entry hj
    have hne : j ≠ i := by
      rintro rfl
      rw [hunused] at hb
      contradiction
    exact ⟨b, by rw [hcalls, Function.update_of_ne hne, hb], hbkey, hactive⟩
  · intro j b hb hactive
    rcases entered_of_update hcalls hb with ⟨rfl, hd⟩ | ⟨-, hb⟩
    · contradiction
    · rw [hmap]
      exact h.active hb hactive
  · intro j b hb
    rcases entered_of_update hcalls hb with ⟨rfl, hd⟩ | ⟨-, hb⟩
    · contradiction
    · exact h.ok hb

/-- A step of a transaction keeps what is known of its call. -/
theorem RegistryInv.callOk {i : ℕ} {c : Call} {a : ServerAction} {s' : ServerState} {es : List ServerEvent}
    (h : RegistryInv S) (hcall : S.calls i = .entered c) (hstep : c.state.step c.tran a = some (s', es))
    (hdeliver : ∀ r, a = .deliver r → S.dispatch r.addr.sinAddr = some i)
    (hthrown : c.thrown = true → s'.driver.registered = true) : CallOk { c with state := s' } := by
  have hok := h.ok hcall
  refine ⟨hthrown, hok.address, ?_⟩
  rcases ServerState.step_clientAddress hstep with hsame | ⟨r, ha, haddr⟩
  · exact (congrArg SockAddr.sinAddr hsame).trans hok.clientAddress
  · have hpeer := h.dispatch_address hcall (hdeliver r ha)
    exact (congrArg SockAddr.sinAddr haddr).trans hpeer

/-- Every change keeps the invariant. -/
theorem Change.registryInv (hchange : Change udpSocket S S' e) (h : RegistryInv S) : RegistryInv S' := by
  cases hchange with
  | same hcalls hmap _ =>
    refine ⟨?_, ?_, ?_⟩
    all_goals rw [hcalls]
    · rw [hmap]
      exact h.entry
    · rw [hmap]
      exact h.active
    · exact h.ok
  | refused i error hunused hcalls hmap _ => exact h.refuse hunused hcalls hmap
  | registered i a t hunused htran hfree hcalls hmap _ =>
    refine h.register hunused hfree hcalls hmap rfl ⟨fun hthrown => ?_, ?_, rfl⟩
    · contradiction
    · exact StartArgs.createTransaction_addr htran
  | advanced i c a s' es hcall hstep hdeliver hregistered hcalls hmap _ =>
    refine h.advance hcall hcalls hmap rfl hregistered (h.callOk hcall hstep hdeliver fun hthrown => ?_)
    exact hregistered.trans ((h.ok hcall).thrown hthrown)
  | returned i c a s' es result hcall hthrown hstep hdeliver hregistered hresult hcalls hmap _ =>
    refine h.finish hcall hcalls hmap hregistered (by rw [hresult]; rfl) (h.callOk hcall hstep ?_ ?_)
    · exact fun r ha => absurd ha (hdeliver r)
    · intro hthrew
      rw [hthrown] at hthrew
      contradiction
  | threw i c hcall hthrown hsends hcalls hmap _ =>
    have hok := h.ok hcall
    exact h.advance hcall hcalls hmap rfl rfl
      ⟨fun _ => DriverPos.registered_of_sends hsends, hok.address, hok.clientAddress⟩

/-- The invariant holds in every reachable state. -/
theorem registryInv_of_trace {es : List ProcessEvent} (h : (serverProcess udpSocket).Trace es S) :
    RegistryInv S := by
  refine h.invariant (I := fun _ S => RegistryInv S) ?_ ?_
  · rintro S rfl
    constructor
    · intro k i hentry
      contradiction
    · intro i c hcall
      contradiction
    · intro i c hcall
      contradiction
  · intro es S a S' e _ hinv hstep
    exact Change.registryInv (step_change hstep) hinv

end ServerProcess

end Trftp
