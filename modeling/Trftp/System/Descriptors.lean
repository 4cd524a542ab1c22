import Trftp.System.EndpointThreads

/-!
# Descriptors

A step of an object opens a descriptor for one of its sockets, uses or closes the one that the socket holds, or
makes no system call. So the descriptors that are open are exactly those that somebody holds.
-/

namespace Trftp

open Lib (EventMachine Owned)

/-! ## One step -/

/-- What a call means for the descriptor that a socket holds. -/
def CallMeans (before after : Option ℕ) : Option SocketCall → Prop
  | none => after = before
  | some (.opened fd) => before = none ∧ after = some fd
  | some (.used fd) => before = some fd ∧ after = before
  | some (.closed fd) => before = some fd ∧ after = none

/-- The descriptor behind a step of the constructor. -/
def SocketResult.fd? : SocketResult → Option ℕ
  | .at pos => pos.fd?
  | .made fd => some fd
  | .failed => none

/-- The constructor loses no descriptor. -/
theorem SocketPos.next_transfers (pos : SocketPos) (ok : Bool) (fd : ℕ) :
    CallMeans pos.fd? (pos.next ok fd).1.fd? (pos.next ok fd).2 := by
  cases pos <;> cases ok <;> first | rfl | exact ⟨rfl, rfl⟩

/-- The call on this socket, if the step makes one. -/
def EndpointResult.on (r : EndpointResult) (slot : SocketSlot) : Option SocketCall :=
  (r.call?.filter (·.1 = slot)).map (·.2)

/-- An object uses and gives back the descriptors that it holds, and no others. -/
def Endpoint.Transfers (e : Endpoint) (r : EndpointResult) : Prop :=
  ∀ slot, CallMeans (e.holds slot) (r.next.holds slot) (r.on slot)

namespace Endpoint

variable {e : Endpoint} {r : EndpointResult} {kind : EndpointKind}

/-- A step without a system call. -/
theorem transfers_of_quiet (hcall : r.call? = .none) (hown : r.next.pos.own? = e.pos.own?)
    (htransaction : r.next.pos.transaction? = e.pos.transaction?) : e.Transfers r := by
  intro slot
  rw [EndpointResult.on, hcall]
  cases slot with
  | own => exact hown
  | transaction => exact htransaction

/-- A step with a call on `udp_socket_`. -/
theorem transfers_of_own (call? : Option SocketCall) (hcall : r.call? = call?.map (.own, ·))
    (hown : CallMeans e.pos.own? r.next.pos.own? call?)
    (htransaction : r.next.pos.transaction? = e.pos.transaction?) : e.Transfers r := by
  intro slot
  rw [EndpointResult.on, hcall]
  cases slot with
  | own => cases call? <;> exact hown
  | transaction => cases call? <;> exact htransaction

/-- A step with a call on the socket of the transaction. -/
theorem transfers_of_transaction (call? : Option SocketCall) (hcall : r.call? = call?.map (.transaction, ·))
    (hown : r.next.pos.own? = e.pos.own?)
    (htransaction : CallMeans e.pos.transaction? r.next.pos.transaction? call?) : e.Transfers r := by
  intro slot
  rw [EndpointResult.on, hcall]
  cases slot with
  | own => cases call? <;> exact hown
  | transaction => cases call? <;> exact htransaction

/-- Construction and destruction lose no descriptor. -/
theorem ownerStep_transfers {ok : Bool} {fd : ℕ} (h : e.ownerStep kind ok fd = some r) : e.Transfers r := by
  cases hpos : e.pos with
  | socket pos =>
    have hnext := pos.next_transfers ok fd
    simp only [ownerStep, hpos] at h
    split at h <;> cases h
    all_goals
      rename_i hresult
      rw [hresult] at hnext
      exact transfers_of_own _ rfl (by rw [hpos]; exact hnext) (by rw [hpos]; rfl)
  | transaction fd' pos =>
    have hnext := pos.next_transfers ok fd
    simp only [ownerStep, hpos] at h
    split at h <;> cases h
    all_goals
      rename_i hresult
      rw [hresult] at hnext
      exact transfers_of_transaction _ rfl (by rw [hpos]; rfl) (by rw [hpos]; exact hnext)
  | readTimeout fd fd' | unwind fd fd' | closeTransaction fd fd' =>
    simp only [ownerStep, hpos] at h
    cases h
    exact transfers_of_transaction (some _) rfl (by rw [hpos]; rfl) (by rw [hpos]; exact ⟨rfl, rfl⟩)
  | close fd =>
    simp only [ownerStep, hpos] at h
    cases h
    exact transfers_of_own (some _) rfl (by rw [hpos]; exact ⟨rfl, rfl⟩) (by rw [hpos]; rfl)
  | absent | members fd =>
    simp only [ownerStep, hpos] at h
    cases h
    exact transfers_of_quiet rfl (by rw [hpos]; rfl) (by rw [hpos]; rfl)
  | unwound fd =>
    simp only [ownerStep, hpos] at h
    cases h
    exact transfers_of_quiet rfl rfl rfl
  | path fd fd' =>
    simp only [ownerStep, hpos] at h
    cases h
    cases ok <;> exact transfers_of_quiet rfl (by rw [hpos]; rfl) (by rw [hpos]; rfl)
  | thread fd =>
    simp only [ownerStep, hpos] at h
    cases kind <;> split_ifs at h <;> cases h <;> exact transfers_of_quiet rfl (by rw [hpos]; rfl) (by rw [hpos]; rfl)
  | ready fd fd'? | transactions fd | reset fd fd' =>
    simp only [ownerStep, hpos] at h
    split_ifs at h
    cases h
    exact transfers_of_quiet rfl (by rw [hpos]; rfl) (by rw [hpos]; rfl)
  | join fd fd'? =>
    cases fd'? <;> simp only [ownerStep, hpos] at h <;> split_ifs at h <;> cases h <;>
      exact transfers_of_quiet rfl (by rw [hpos]; rfl) (by rw [hpos]; rfl)

/-- A step with a call on the socket of the transaction, or without one, that leaves the owner where it is. -/
theorem transfers_of_call (hpos : r.next.pos = e.pos)
    (hcall : r.call? = none ∨ ∃ fd', e.pos.transaction? = some fd' ∧ r.call? = some (.transaction, .used fd')) :
    e.Transfers r := by
  rcases hcall with hnone | ⟨fd', hfd, hcall⟩
  · exact transfers_of_quiet hnone (by rw [hpos]) (by rw [hpos])
  · exact transfers_of_transaction (some _) hcall (by rw [hpos]) ⟨hfd, by rw [hpos]⟩

/-- The receive loop uses the sockets of its object. -/
theorem loopStep_transfers {o : LoopOutcome} (h : e.loopStep o = some r) : e.Transfers r := by
  unfold loopStep at h
  split at h
  case _ | _ => contradiction
  case _ =>
    cases h
    exact transfers_of_quiet rfl rfl rfl
  case _ =>
    split at h
    · cases h
      exact transfers_of_quiet rfl rfl rfl
    · cases o <;> cases h <;> exact transfers_of_own (some _) rfl ⟨‹_›, rfl⟩ rfl
  case _ | _ | _ =>
    by_cases hwhole : e.pos.whole = true
    · rw [if_pos hwhole] at h
      have hr := handles_of_handleStep h
      exact transfers_of_call hr.pos hr.call
    · rw [if_neg hwhole] at h
      cases h
      exact transfers_of_quiet rfl rfl rfl

/-- The calls and the sender threads use the socket of the server. -/
theorem sendStep_transfers (e : Endpoint) : e.Transfers e.sendStep := by
  unfold sendStep
  split
  · exact transfers_of_quiet rfl rfl rfl
  · exact transfers_of_own (some _) rfl ⟨‹_›, rfl⟩ rfl

/-- No thread of an object uses or gives back a descriptor that the object does not hold. -/
theorem step_transfers {a : EndpointAction} (h : e.step kind a = some r) : e.Transfers r := by
  cases a with
  | owner ok fd => exact ownerStep_transfers h
  | loop o => exact loopStep_transfers h
  | transactionLoop o =>
    have hr := transactionRuns_of_step (o := o) h
    exact transfers_of_call hr.pos hr.call
  | enter =>
    simp only [step] at h
    split at h <;> cases h
    exact transfers_of_quiet rfl rfl rfl
  | callSends | senderSends =>
    simp only [step] at h
    split_ifs at h
    cases h
    exact sendStep_transfers e
  | startSender | leave | senderEnds =>
    simp only [step] at h
    split_ifs at h
    cases h
    exact transfers_of_quiet rfl rfl rfl

end Endpoint

/-! ## Runs -/

namespace EndpointProcess

variable {ι : Type*} [DecidableEq ι] {S S' : EndpointProcess ι} {kind : ι → EndpointKind}
  {es e : List (EndpointProcessEvent ι)}

/-- What holds between the steps of a process. -/
structure Inv (es : List (EndpointProcessEvent ι)) (S : EndpointProcess ι) : Prop where
  owned : Owned S.descriptors S.holds
  coherent : ∀ i, (S.endpoint i).Coherent
  early : ∀ i, (S.endpoint i).busy = true → (S.endpoint i).pos.whole = false → .note i .early ∈ es
  undefined : ∀ i, .note i .undefined ∈ es → .note i .early ∈ es

/-- Nobody else's descriptor changes with a step of one object. -/
theorem holds_update (i : ι) (e : Endpoint) (slot : SocketSlot)
    (hother : ∀ slot', slot' ≠ slot → e.holds slot' = (S.endpoint i).holds slot')
    {descriptors : ℕ → Bool} {terminated : Bool} :
    EndpointProcess.holds ⟨Function.update S.endpoint i e, descriptors, S.others, terminated⟩ =
      Function.update S.holds (.endpoint i slot) (e.holds slot) := by
  funext owner
  cases owner with
  | rest fd => rfl
  | endpoint j slot' =>
    by_cases hj : j = i
    · subst hj
      by_cases hslot : slot' = slot
      · subst hslot
        simp [holds]
      · rw [Function.update_of_ne (by simp [hslot])]
        simp only [holds, Function.update_self]
        exact hother slot' hslot
    · rw [Function.update_of_ne (by simp [hj])]
      simp only [holds]
      rw [Function.update_of_ne hj]

omit [DecidableEq ι] in
/-- The sockets that a step makes no call on keep their descriptors. -/
theorem holds_eq_of_on {e : Endpoint} {r : EndpointResult} {slot : SocketSlot} (h : e.Transfers r)
    (hnone : r.on slot = none) : r.next.holds slot = e.holds slot := by
  have hslot := h slot
  rw [hnone] at hslot
  exact hslot

/-- A step of one object keeps the descriptors and their owners in order. -/
theorem Inv.owned_update (h : Inv es S) {i : ι} {r : EndpointResult} (htransfers : (S.endpoint i).Transfers r)
    (hupdate : S.update i r = some (S', e)) : Owned S'.descriptors S'.holds := by
  unfold update at hupdate
  simp only at hupdate
  split at hupdate
  case _ hcall =>
    cases hupdate
    have hsame (slot : SocketSlot) : r.next.holds slot = (S.endpoint i).holds slot :=
      holds_eq_of_on htransfers (by rw [EndpointResult.on, hcall]; rfl)
    rw [holds_update i r.next .own fun slot _ => hsame slot, hsame]
    have hown : (S.endpoint i).holds .own = S.holds (.endpoint i .own) := rfl
    rw [hown, Function.update_eq_self]
    exact h.owned
  case _ slot call hcall =>
    obtain ⟨descriptors, happly, hresult⟩ := Option.map_eq_some_iff.mp hupdate
    cases hresult
    have hothers (slot' : SocketSlot) (hne : slot' ≠ slot) : r.next.holds slot' = (S.endpoint i).holds slot' := by
      refine holds_eq_of_on htransfers ?_
      rw [EndpointResult.on, hcall, Option.filter_some, if_neg (by simpa using Ne.symm hne)]
      rfl
    have hslot : CallMeans ((S.endpoint i).holds slot) (r.next.holds slot) (some call) := by
      have hslot := htransfers slot
      rw [EndpointResult.on, hcall, Option.filter_some, if_pos (by simp)] at hslot
      exact hslot
    rw [holds_update i r.next slot hothers]
    have hholds : (S.endpoint i).holds slot = S.holds (.endpoint i slot) := rfl
    rw [hholds] at hslot
    cases call with
    | opened fd =>
      rw [SocketCall.apply] at happly
      split_ifs at happly with hfree
      cases happly
      rw [hslot.2]
      exact h.owned.acquire (Bool.not_eq_true _ ▸ hfree) hslot.1
    | used fd =>
      cases happly
      rw [hslot.2, Function.update_eq_self]
      exact h.owned
    | closed fd =>
      cases happly
      rw [hslot.2]
      exact h.owned.release hslot.1

/-- What the rest of the process holds behind a step of its own. -/
theorem holds_rest (fd : ℕ) (isOpen : Bool) (descriptors : ℕ → Bool) :
    EndpointProcess.holds
        { S with descriptors := descriptors, others := Function.update S.others fd isOpen } =
      Function.update S.holds (.rest fd) (if isOpen then some fd else none) := by
  funext owner
  cases owner with
  | endpoint j slot => rfl
  | rest fd' =>
    by_cases hfd : fd' = fd
    · subst hfd
      simp [holds]
    · rw [Function.update_of_ne (by simp [hfd])]
      simp only [holds, Function.update_of_ne hfd]

/-- The events of a step of one object. -/
theorem update_frame {i : ι} {r : EndpointResult} (h : S.update i r = some (S', e)) :
    S'.endpoint = Function.update S.endpoint i r.next ∧
      ∀ j note, .note j note ∈ e ↔ j = i ∧ note ∈ r.notes := by
  unfold update at h
  simp only at h
  split at h
  · cases h
    refine ⟨rfl, fun j note => ?_⟩
    simp [eq_comm, and_comm]
  · obtain ⟨descriptors, -, hresult⟩ := Option.map_eq_some_iff.mp h
    cases hresult
    refine ⟨rfl, fun j note => ?_⟩
    simp [eq_comm, and_comm]

/-- The system call of a step of one object. -/
theorem update_system {i j : ι} {r : EndpointResult} {slot : SocketSlot} {call : SocketCall}
    (h : S.update i r = some (S', e)) (hmem : .system j slot call ∈ e) : j = i ∧ r.call? = some (slot, call) := by
  unfold update at h
  simp only at h
  split at h
  · cases h
    simp at hmem
  case _ hcall =>
    obtain ⟨descriptors, -, hresult⟩ := Option.map_eq_some_iff.mp h
    cases hresult
    simp only [List.mem_cons, EndpointProcessEvent.system.injEq, List.mem_map, reduceCtorEq, and_false, exists_false,
      or_false] at hmem
    obtain ⟨rfl, rfl, rfl⟩ := hmem
    exact ⟨rfl, hcall⟩

/-- A system call that does not open a descriptor is on the one that the socket holds. -/
theorem holds_of_system {a : EndpointProcessAction ι} (hstep : S.step kind a = some (S', e)) {i : ι}
    {slot : SocketSlot} {fd : ℕ} (hmem : .system i slot (.used fd) ∈ e ∨ .system i slot (.closed fd) ∈ e) :
    S.holds (.endpoint i slot) = some fd := by
  cases a with
  | opens fd' | closes fd' =>
    simp only [EndpointProcess.step] at hstep
    split_ifs at hstep
    cases hstep
    simp at hmem
  | endpoint j a =>
    simp only [EndpointProcess.step] at hstep
    split_ifs at hstep
    obtain ⟨r, hr, hupdate⟩ := Option.bind_eq_some_iff.mp hstep
    have hslot := Endpoint.step_transfers hr slot
    cases hmem with
    | inl hused =>
      obtain ⟨rfl, hcall⟩ := update_system hupdate hused
      rw [EndpointResult.on, hcall, Option.filter_some, if_pos (by simp)] at hslot
      exact hslot.1
    | inr hclosed =>
      obtain ⟨rfl, hcall⟩ := update_system hupdate hclosed
      rw [EndpointResult.on, hcall, Option.filter_some, if_pos (by simp)] at hslot
      exact hslot.1

/-- Every step keeps the descriptors and the threads in order. -/
theorem Inv.step (h : Inv es S) {a : EndpointProcessAction ι} (hstep : S.step kind a = some (S', e)) :
    Inv (es ++ e) S' := by
  cases a with
  | endpoint i a =>
    simp only [EndpointProcess.step] at hstep
    split_ifs at hstep
    obtain ⟨r, hr, hupdate⟩ := Option.bind_eq_some_iff.mp hstep
    obtain ⟨hendpoint, hnotes⟩ := update_frame hupdate
    have howned := h.owned_update (Endpoint.step_transfers hr) hupdate
    refine ⟨howned, fun j => ?_, fun j hbusy hwhole => ?_, fun j hnote => ?_⟩
    · rw [hendpoint]
      by_cases hj : j = i
      · rw [hj, Function.update_self]
        exact (h.coherent i).step hr
      · rw [Function.update_of_ne hj]
        exact h.coherent j
    · rw [hendpoint] at hbusy hwhole
      rw [List.mem_append]
      by_cases hj : j = i
      · subst hj
        rw [Function.update_self] at hbusy hwhole
        rcases Endpoint.early_of_step hr hbusy hwhole with hbefore | hnow
        · exact Or.inl (h.early j hbefore.1 hbefore.2)
        · exact Or.inr ((hnotes j .early).mpr ⟨rfl, hnow⟩)
      · rw [Function.update_of_ne hj] at hbusy hwhole
        exact Or.inl (h.early j hbusy hwhole)
    · rw [List.mem_append] at hnote ⊢
      rcases hnote with hbefore | hnow
      · exact Or.inl (h.undefined j hbefore)
      · obtain ⟨rfl, hmem⟩ := (hnotes j .undefined).mp hnow
        obtain ⟨hbusy, hwhole⟩ := (h.coherent j).undefined_of_step hr hmem
        exact Or.inl (h.early j hbusy hwhole)
  | opens fd =>
    simp only [EndpointProcess.step] at hstep
    split_ifs at hstep with hfree
    cases hstep
    rw [not_or, Bool.not_eq_true, Bool.not_eq_true] at hfree
    rw [List.append_nil]
    refine ⟨?_, h.coherent, h.early, h.undefined⟩
    rw [holds_rest fd true]
    refine h.owned.acquire hfree.2 ?_
    by_contra hheld
    rw [holds] at hheld
    split_ifs at hheld with hother
    · have hheld : S.holds (.rest fd) = some fd := if_pos hother
      rw [h.owned.used_of_holds hheld] at hfree
      exact absurd hfree.2 (by decide)
    · exact hheld rfl
  | closes fd =>
    simp only [EndpointProcess.step] at hstep
    split_ifs at hstep with hother
    cases hstep
    rw [not_or, not_not] at hother
    rw [List.append_nil]
    refine ⟨?_, h.coherent, h.early, h.undefined⟩
    rw [holds_rest fd false]
    refine h.owned.release ?_
    rw [holds, if_pos hother.2]

/-- So it is in every run. -/
theorem trace_inv (h : (endpointMachine kind).Trace es S) : Inv es S := by
  refine h.invariant (fun S hinit => ?_) fun _ hinv hstep => hinv.step hstep
  obtain ⟨hendpoint, hdescriptors, hothers, -⟩ := hinit
  have hholds : S.holds = fun _ => none := by
    funext owner
    cases owner with
    | endpoint i slot =>
      rw [holds, hendpoint]
      cases slot <;> rfl
    | rest fd =>
      rw [holds, hothers]
      rfl
  refine ⟨?_, fun i => ?_, fun i hbusy => ?_, fun i hmem => by contradiction⟩
  · rw [hholds, funext hdescriptors]
    exact Owned.none
  · rw [hendpoint]
    exact ⟨⟨fun hne => absurd rfl hne, fun hfalse => by contradiction⟩,
      fun hne => absurd rfl hne, fun hne => absurd rfl hne, fun hne => absurd rfl hne⟩
  · rw [hendpoint] at hbusy
    contradiction

end EndpointProcess

/-- Descriptors and threads of servers and clients are never mixed up, whatever fails and however often a number
is handed out again.

A descriptor is open if and only if one socket, or the rest of the process, holds it, and then only one. A
system call of a thread is on a descriptor that is open and that the socket of its own object holds. A member
that is not alive is used only if the receive loop took a datagram before its object was whole. Where there is no
object, none of its threads is left. -/
theorem descriptors_owned {ι : Type*} [DecidableEq ι] {kind : ι → EndpointKind}
    {es : List (EndpointProcessEvent ι)} {S : EndpointProcess ι} (h : (endpointMachine kind).Trace es S) :
    (∀ fd, S.descriptors fd = true ↔ ∃! owner, S.holds owner = some fd) ∧
    (∀ a S' e i slot fd, S.step kind a = some (S', e) →
      (.system i slot (.used fd) ∈ e ∨ .system i slot (.closed fd) ∈ e) →
        S.descriptors fd = true ∧ S.holds (.endpoint i slot) = some fd) ∧
    (∀ i, .note i .undefined ∈ es → .note i .early ∈ es) ∧
    (∀ i, (S.endpoint i).pos = .absent → (S.endpoint i).loop = .none ∧ (S.endpoint i).transactionLoop = .none ∧
      (S.endpoint i).calls = 0 ∧ (S.endpoint i).senders = 0) := by
  have hinv := EndpointProcess.trace_inv h
  refine ⟨hinv.owned.existsUnique, fun a S' e i slot fd hstep hcall => ?_, hinv.undefined, fun i habsent => ?_⟩
  · have hheld := EndpointProcess.holds_of_system hstep hcall
    exact ⟨hinv.owned.used_of_holds hheld, hheld⟩
  · obtain ⟨hloop, htransaction, hcalls, hsenders⟩ := hinv.coherent i
    rw [habsent] at hloop htransaction hcalls hsenders
    refine ⟨?_, ?_, ?_, ?_⟩
    · exact not_not.mp fun hne => Bool.false_ne_true (hloop.mp hne)
    · exact not_not.mp fun hne => Bool.false_ne_true (htransaction hne)
    · by_contra hne
      obtain ⟨fd, hpos⟩ := hcalls hne
      contradiction
    · exact not_not.mp fun hne => Bool.false_ne_true (hsenders hne)

/-- A server and a client. -/
def serverAndClient : Bool → EndpointKind
  | false => .server
  | true => .client

/-- Before anything is constructed. -/
def EndpointProcess.start : EndpointProcess Bool :=
  { endpoint := fun _ => .absent, descriptors := fun _ => false, others := fun _ => false, terminated := false }

/-- The port of the server is in use; the client gets the number that the server gave back, and is constructed
with a transaction whose loop runs. -/
def serverFails : List (EndpointProcessAction Bool) :=
  [.owner true 0, .owner true 3, .owner true 0, .owner true 0, .owner false 0, .owner true 0].map (.endpoint false) ++
    [.owner true 0, .owner true 3, .owner true 0, .owner true 0, .owner true 0, .owner true 0, .owner true 4,
      .owner true 0, .owner true 0, .owner true 0, .owner true 0, .owner true 0, .loop .done, .loop .datagram,
      .loop .begins, .loop .done, .loop .starts, .loop .sends].map (.endpoint true)

theorem descriptors_owned_serverFails : ∃ es S, (endpointMachine serverAndClient).exec .start serverFails = some (S, es) ∧
    (S.endpoint true).pos = .ready 3 (some 4) ∧
    .system false .own (.closed 3) ∈ es ∧ .system true .transaction (.used 4) ∈ es ∧
    (∀ fd, S.descriptors fd = true ↔ ∃! owner, S.holds owner = some fd) ∧
    (∀ a S' e i slot fd, S.step serverAndClient a = some (S', e) →
      (.system i slot (.used fd) ∈ e ∨ .system i slot (.closed fd) ∈ e) →
        S.descriptors fd = true ∧ S.holds (.endpoint i slot) = some fd) ∧
    (∀ i, .note i .undefined ∈ es → .note i .early ∈ es) ∧
    (∀ i, (S.endpoint i).pos = .absent → (S.endpoint i).loop = .none ∧ (S.endpoint i).transactionLoop = .none ∧
      (S.endpoint i).calls = 0 ∧ (S.endpoint i).senders = 0) := by
  have hinit : (endpointMachine serverAndClient).initial .start :=
    ⟨fun _ => rfl, fun _ => rfl, fun _ => rfl, rfl⟩
  have hexec : (endpointMachine serverAndClient).exec .start serverFails = some (_, _) := rfl
  refine ⟨_, _, hexec, rfl, by decide, by decide, ?_⟩
  exact descriptors_owned (EventMachine.exec_trace hinit hexec)

end Trftp
