import Trftp.System.Lifetimes

/-!
# The threads of an object

Each thread of an object runs between a place that starts it and one that joins it, and between them the
socket that it uses is there. The receive loop is the one that runs before its object is whole: then it must not
get a datagram.
-/

namespace Trftp

namespace EndpointPos

/-- `thread_` has been started and not joined. -/
def hasLoop : EndpointPos → Bool
  | .members _ | .transaction _ _ | .path _ _ | .readTimeout _ _ | .unwind _ _ | .unwound _ => true
  | .ready _ _ | .join _ _ => true
  | .absent | .socket _ | .thread _ | .transactions _ | .reset _ _ | .closeTransaction _ _ | .close _ => false

/-- `transaction_.thread_` may be running. -/
def hasTransactionLoop : EndpointPos → Bool
  | .ready _ (some _) | .join _ (some _) | .reset _ _ => true
  | _ => false

/-- Threads of `SendFileAsync` may be running. -/
def hasSenders : EndpointPos → Bool
  | .ready _ none | .join _ none | .transactions _ => true
  | _ => false

/-- The receive loop runs while there is a socket. -/
theorem own_of_hasLoop {pos : EndpointPos} (h : pos.hasLoop = true) : ∃ fd, pos.own? = some fd := by
  cases pos <;> first | exact ⟨_, rfl⟩ | contradiction

/-- So do the sender threads. -/
theorem own_of_hasSenders {pos : EndpointPos} (h : pos.hasSenders = true) : ∃ fd, pos.own? = some fd := by
  cases pos <;> first | exact ⟨_, rfl⟩ | contradiction

/-- The loop of the transaction runs while the transaction has its socket. -/
theorem transaction_of_hasTransactionLoop {pos : EndpointPos} (h : pos.hasTransactionLoop = true) :
    ∃ fd', pos.transaction? = some fd' := by
  cases pos with
  | ready fd fd'? | join fd fd'? =>
    cases fd'? with
    | none => contradiction
    | some fd' => exact ⟨fd', rfl⟩
  | reset fd fd' => exact ⟨fd', rfl⟩
  | _ => contradiction

end EndpointPos

namespace Endpoint

variable {e : Endpoint} {r : EndpointResult} {kind : EndpointKind}

/-- The receive loop is behind `Receive`, with a datagram. -/
def busy (e : Endpoint) : Bool :=
  match e.loop with
  | .handle | .reset | .begun => true
  | .none | .test | .receive | .ended => false

/-- What the receive loop does with a datagram. -/
structure Handles (e : Endpoint) (r : EndpointResult) : Prop where
  notes : r.notes = []
  call : r.call? = none ∨ ∃ fd', e.pos.transaction? = some fd' ∧ r.call? = some (.transaction, .used fd')
  pos : r.next.pos = e.pos
  calls : r.next.calls = e.calls
  senders : r.next.senders = e.senders
  loop : r.next.loop = .test ∨ r.next.busy = true
  /-- `Reset` joins the thread of the transaction, and `OnReceive` starts it -/
  transactionLoop : r.next.transactionLoop = e.transactionLoop ∨ r.next.transactionLoop = .none ∨
    ∃ fd', e.pos.transaction? = some fd'

/-- Every statement behind `Receive` does this. -/
theorem handles_of_handleStep {o : LoopOutcome} (h : e.handleStep o = some r) : e.Handles r := by
  have hbusy {loop : EndpointLoop} (hloop : e.loop = loop)
      (hcases : loop = .handle ∨ loop = .begun) : e.busy = true := by
    rcases hcases with rfl | rfl <;> rw [busy, hloop]
  unfold handleStep at h
  split at h
  case h_1 | h_2 =>
    cases h
    exact ⟨rfl, Or.inl rfl, rfl, rfl, rfl, Or.inl rfl, Or.inl rfl⟩
  case h_3 hloop | h_4 hloop =>
    cases h
    exact ⟨rfl, Or.inl rfl, rfl, rfl, rfl, Or.inr (hbusy hloop (by simp)), Or.inl rfl⟩
  case h_5 =>
    split_ifs at h
    obtain ⟨fd', -, hr⟩ := Option.map_eq_some_iff.mp h
    cases hr
    exact ⟨rfl, Or.inl rfl, rfl, rfl, rfl, Or.inr rfl, Or.inl rfl⟩
  case h_6 =>
    split_ifs at h
    cases h
    exact ⟨rfl, Or.inl rfl, rfl, rfl, rfl, Or.inr rfl, Or.inr (Or.inl rfl)⟩
  case h_7 | h_8 =>
    obtain ⟨fd', hfd, hr⟩ := Option.map_eq_some_iff.mp h
    cases hr
    exact ⟨rfl, Or.inr ⟨fd', hfd, rfl⟩, rfl, rfl, rfl, Or.inl rfl, Or.inl rfl⟩
  case h_9 hloop =>
    split_ifs at h with hstart
    cases h
    exact ⟨rfl, Or.inl rfl, rfl, rfl, rfl, Or.inr (hbusy hloop (by simp)),
      Or.inr (Or.inr (Option.ne_none_iff_exists'.mp hstart.2))⟩
  case h_10 => contradiction

/-- What the loop of the transaction does. -/
structure TransactionRuns (e : Endpoint) (r : EndpointResult) : Prop where
  pos : r.next.pos = e.pos
  loop : r.next.loop = e.loop
  calls : r.next.calls = e.calls
  senders : r.next.senders = e.senders
  runs : e.transactionLoop ≠ .none
  call : r.call? = none ∨ ∃ fd', e.pos.transaction? = some fd' ∧ r.call? = some (.transaction, .used fd')
  notes : r.notes = [] ∨ e.pos.transaction? = none ∧ r.notes = [.undefined]

/-- Every statement of it does this. -/
theorem transactionRuns_of_step {o : LoopOutcome} (h : e.transactionLoopStep o = some r) : e.TransactionRuns r := by
  unfold transactionLoopStep at h
  split at h
  case h_1 | h_2 => contradiction
  case h_3 hloop =>
    cases h
    exact ⟨rfl, rfl, rfl, rfl, by rw [hloop]; exact TransactionLoop.noConfusion, Or.inl rfl, Or.inl rfl⟩
  case h_4 hloop hnone | h_5 hloop hnone | h_6 hloop hnone =>
    cases h
    exact ⟨rfl, rfl, rfl, rfl, by rw [hloop]; exact TransactionLoop.noConfusion, Or.inl rfl, Or.inr ⟨hnone, rfl⟩⟩
  case h_7 hloop hfd | h_8 hloop hfd =>
    have hruns : e.transactionLoop ≠ .none := by rw [hloop]; exact TransactionLoop.noConfusion
    cases o <;> cases h
    all_goals first
      | exact ⟨rfl, rfl, rfl, rfl, hruns, Or.inl rfl, Or.inl rfl⟩
      | exact ⟨rfl, rfl, rfl, rfl, hruns, Or.inr ⟨_, hfd, rfl⟩, Or.inl rfl⟩
  case h_9 hloop hfd =>
    cases h
    exact ⟨rfl, rfl, rfl, rfl, by rw [hloop]; exact TransactionLoop.noConfusion, Or.inr ⟨_, hfd, rfl⟩, Or.inl rfl⟩

/-- The threads of an object run between the places that start and join them. -/
structure Coherent (e : Endpoint) : Prop where
  loop : e.loop ≠ .none ↔ e.pos.hasLoop = true
  transactionLoop : e.transactionLoop ≠ .none → e.pos.hasTransactionLoop = true
  calls : e.calls ≠ 0 → ∃ fd, e.pos = .ready fd none
  senders : e.senders ≠ 0 → e.pos.hasSenders = true

/-- A step of the constructor or of the destructor that leaves the threads alone. -/
theorem Coherent.setPos (h : e.Coherent) {pos : EndpointPos} (hloop : pos.hasLoop = e.pos.hasLoop)
    (htransaction : e.transactionLoop ≠ .none → e.pos.hasTransactionLoop = true → pos.hasTransactionLoop = true)
    (hcalls : e.calls = 0) (hsenders : e.senders ≠ 0 → e.pos.hasSenders = true → pos.hasSenders = true) :
    { e with pos := pos }.Coherent := by
  constructor
  · rw [hloop]
    exact h.loop
  · exact fun hne => htransaction hne (h.transactionLoop hne)
  · exact fun hne => absurd hcalls hne
  · exact fun hne => hsenders hne (h.senders hne)

/-- `is_active_` is no thread. -/
theorem Coherent.setActive (h : e.Coherent) (active : Bool) : { e with active := active }.Coherent :=
  ⟨h.loop, h.transactionLoop, h.calls, h.senders⟩

/-- No call is running while the object is not whole. -/
theorem Coherent.calls_eq (h : e.Coherent) (hpos : ∀ fd, e.pos ≠ .ready fd none) : e.calls = 0 := by
  by_contra hne
  obtain ⟨fd, hready⟩ := h.calls hne
  exact hpos fd hready

/-- The loop of the transaction does not run where it cannot. -/
theorem Coherent.transactionLoop_eq (h : e.Coherent) (hpos : e.pos.hasTransactionLoop = false) :
    e.transactionLoop = .none := by
  by_contra hne
  rw [h.transactionLoop hne] at hpos
  contradiction

/-- Neither do the sender threads. -/
theorem Coherent.senders_eq (h : e.Coherent) (hpos : e.pos.hasSenders = false) : e.senders = 0 := by
  by_contra hne
  rw [h.senders hne] at hpos
  contradiction

/-- The constructor starts the receive loop, before any other thread. -/
theorem Coherent.startLoop (h : e.Coherent) {fd : ℕ} (hpos : e.pos = .thread fd) {pos : EndpointPos}
    (hloop : pos.hasLoop = true) : { e with pos := pos, loop := .test }.Coherent := by
  have hcalls := h.calls_eq fun fd => by rw [hpos]; exact EndpointPos.noConfusion
  have htransaction := h.transactionLoop_eq (by rw [hpos]; rfl)
  have hsenders := h.senders_eq (by rw [hpos]; rfl)
  exact ⟨⟨fun _ => hloop, fun _ => EndpointLoop.noConfusion⟩, fun hne => absurd htransaction hne,
    fun hne => absurd hcalls hne, fun hne => absurd hsenders hne⟩

/-- The destructor joins it, and the others may still run. -/
theorem Coherent.joinLoop (hcalls : e.calls = 0) {pos : EndpointPos} (hloop : pos.hasLoop = false)
    (htransaction : e.transactionLoop ≠ .none → pos.hasTransactionLoop = true)
    (hsenders : e.senders ≠ 0 → pos.hasSenders = true) : { e with pos := pos, loop := .none }.Coherent := by
  refine ⟨⟨fun hne => absurd rfl hne, fun hhas => ?_⟩, htransaction, fun hne => absurd hcalls hne, hsenders⟩
  rw [hloop] at hhas
  contradiction

/-- The destructor of the transaction joins the loop of the transaction. -/
theorem Coherent.joinTransaction (h : e.Coherent) {fd fd' : ℕ} (hpos : e.pos = .reset fd fd') :
    { e with pos := .closeTransaction fd fd', transactionLoop := .none }.Coherent := by
  have hcalls := h.calls_eq fun fd => by rw [hpos]; exact EndpointPos.noConfusion
  have hsenders := h.senders_eq (by rw [hpos]; rfl)
  have hloop := h.loop
  rw [hpos] at hloop
  exact ⟨hloop, fun hne => absurd rfl hne, fun hne => absurd hcalls hne, fun hne => absurd hsenders hne⟩

/-- Construction and destruction start and join the threads in their places. -/
theorem Coherent.ownerStep (h : e.Coherent) {ok : Bool} {fd : ℕ} (hstep : e.ownerStep kind ok fd = some r) :
    r.next.Coherent := by
  cases hpos : e.pos with
  | absent =>
    have hcalls := h.calls_eq fun fd => by rw [hpos]; exact EndpointPos.noConfusion
    simp only [Endpoint.ownerStep, hpos] at hstep
    cases hstep
    refine (@Coherent.setPos _ h (.socket .create) ?_ (fun _ hhas => ?_) hcalls fun _ hhas => ?_).setActive false
    all_goals rw [hpos] at *
    all_goals first | rfl | contradiction
  | members fd | path fd fd' | readTimeout fd fd' | unwind fd fd' | closeTransaction fd fd' | close fd =>
    have hcalls := h.calls_eq fun fd => by rw [hpos]; exact EndpointPos.noConfusion
    simp only [Endpoint.ownerStep, hpos] at hstep
    cases hstep
    refine h.setPos ?_ (fun _ hhas => ?_) hcalls fun _ hhas => ?_
    all_goals rw [hpos] at *
    all_goals cases ok <;> first | rfl | contradiction
  | unwound fd =>
    simp only [Endpoint.ownerStep, hpos] at hstep
    cases hstep
    exact h
  | socket pos | transaction fd' pos =>
    have hcalls := h.calls_eq fun fd => by rw [hpos]; exact EndpointPos.noConfusion
    simp only [Endpoint.ownerStep, hpos] at hstep
    split at hstep <;> cases hstep
    all_goals
      refine h.setPos (by rw [hpos]; rfl) (fun _ hhas => ?_) hcalls fun _ hhas => ?_
      all_goals
        rw [hpos] at hhas
        contradiction
  | thread fd =>
    have hcalls := h.calls_eq fun fd => by rw [hpos]; exact EndpointPos.noConfusion
    simp only [Endpoint.ownerStep, hpos] at hstep
    split_ifs at hstep
    · cases kind <;> cases hstep <;> exact h.startLoop hpos rfl
    · cases hstep
      refine h.setPos (by rw [hpos]; rfl) (fun _ hhas => ?_) hcalls fun _ hhas => ?_
      all_goals
        rw [hpos] at hhas
        contradiction
  | ready fd fd'? =>
    simp only [Endpoint.ownerStep, hpos] at hstep
    split_ifs at hstep with hcalls
    cases hstep
    refine h.setPos (by rw [hpos]; rfl) (fun _ hhas => ?_) hcalls fun _ hhas => ?_
    all_goals
      rw [hpos] at hhas
      cases fd'? <;> first | rfl | contradiction
  | transactions fd =>
    have hcalls := h.calls_eq fun fd => by rw [hpos]; exact EndpointPos.noConfusion
    simp only [Endpoint.ownerStep, hpos] at hstep
    split_ifs at hstep with hsenders
    cases hstep
    refine h.setPos (by rw [hpos]; rfl) (fun _ hhas => ?_) hcalls fun hne _ => absurd hsenders hne
    rw [hpos] at hhas
    contradiction
  | reset fd fd' =>
    simp only [Endpoint.ownerStep, hpos] at hstep
    split_ifs at hstep
    cases hstep
    exact h.joinTransaction hpos
  | join fd fd'? =>
    have hcalls := h.calls_eq fun fd => by rw [hpos]; exact EndpointPos.noConfusion
    cases fd'? with
    | none =>
      have htransaction := h.transactionLoop_eq (by rw [hpos]; rfl)
      simp only [Endpoint.ownerStep, hpos] at hstep
      split_ifs at hstep
      cases hstep
      exact Coherent.joinLoop hcalls rfl (fun hne => absurd htransaction hne) fun _ => rfl
    | some fd' =>
      have hsenders := h.senders_eq (by rw [hpos]; rfl)
      simp only [Endpoint.ownerStep, hpos] at hstep
      split_ifs at hstep
      cases hstep
      exact Coherent.joinLoop hcalls rfl (fun _ => rfl) fun hne => absurd hsenders hne

/-- A step of the receive loop. -/
theorem Coherent.setLoop (h : e.Coherent) (hloop : e.loop ≠ .none) {loop : EndpointLoop} (hnone : loop ≠ .none) :
    { e with loop := loop }.Coherent :=
  ⟨⟨fun _ => h.loop.mp hloop, fun _ => hnone⟩, h.transactionLoop, h.calls, h.senders⟩

/-- A whole object that has a transaction may have its loop. -/
theorem hasTransactionLoop_of_whole {pos : EndpointPos} {fd' : ℕ} (hwhole : pos.whole = true)
    (hfd : pos.transaction? = some fd') : pos.hasTransactionLoop = true := by
  cases pos with
  | ready fd fd'? | join fd fd'? =>
    cases fd'? with
    | none => contradiction
    | some _ => rfl
  | _ => contradiction

/-- What the receive loop does with a datagram keeps the threads in order. -/
theorem Coherent.handles (h : e.Coherent) (hwhole : e.pos.whole = true) (hbusy : e.busy = true)
    (hr : e.Handles r) : r.next.Coherent := by
  have hloop : e.loop ≠ .none := by
    intro hnone
    rw [busy, hnone] at hbusy
    contradiction
  have hnext : r.next.loop ≠ .none := by
    intro hnone
    rcases hr.loop with htest | hbusy'
    · rw [htest] at hnone
      contradiction
    · rw [busy, hnone] at hbusy'
      contradiction
  constructor
  · rw [hr.pos]
    exact ⟨fun _ => h.loop.mp hloop, fun _ => hnext⟩
  · rw [hr.pos]
    intro hne
    rcases hr.transactionLoop with hsame | hnone | ⟨fd', hfd⟩
    · exact h.transactionLoop (hsame ▸ hne)
    · exact absurd hnone hne
    · exact hasTransactionLoop_of_whole hwhole hfd
  · rw [hr.calls, hr.pos]
    exact h.calls
  · rw [hr.senders, hr.pos]
    exact h.senders

/-- The receive loop keeps the threads in order. -/
theorem Coherent.loopStep (h : e.Coherent) {o : LoopOutcome} (hstep : e.loopStep o = some r) :
    r.next.Coherent := by
  unfold Endpoint.loopStep at hstep
  split at hstep
  case _ | _ => contradiction
  case _ hloop =>
    cases hstep
    exact h.setLoop (by rw [hloop]; exact EndpointLoop.noConfusion) (by split_ifs <;> exact EndpointLoop.noConfusion)
  case _ hloop =>
    have hne : e.loop ≠ .none := by rw [hloop]; exact EndpointLoop.noConfusion
    split at hstep
    · cases hstep
      exact h
    · cases o <;> cases hstep
      case _ | _ => exact h.setLoop hne EndpointLoop.noConfusion
      case _ => exact h
  case _ hloop | _ hloop | _ hloop =>
    by_cases hwhole : e.pos.whole = true
    · rw [if_pos hwhole] at hstep
      exact h.handles hwhole (by rw [busy, hloop]) (handles_of_handleStep hstep)
    · rw [if_neg hwhole] at hstep
      cases hstep
      exact h

/-- The loop of the transaction keeps the threads in order. -/
theorem Coherent.transactionRuns (h : e.Coherent) (hr : e.TransactionRuns r) : r.next.Coherent := by
  constructor
  · rw [hr.loop, hr.pos]
    exact h.loop
  · rw [hr.pos]
    exact fun _ => h.transactionLoop hr.runs
  · rw [hr.calls, hr.pos]
    exact h.calls
  · rw [hr.senders, hr.pos]
    exact h.senders

/-- Every step keeps the threads in order. -/
theorem Coherent.step (h : e.Coherent) {a : EndpointAction} (hstep : e.step kind a = some r) : r.next.Coherent := by
  have hsend : e.sendStep.next = e := by
    unfold Endpoint.sendStep
    split <;> rfl
  cases a with
  | owner ok fd => exact h.ownerStep hstep
  | loop o => exact h.loopStep hstep
  | transactionLoop o => exact h.transactionRuns (transactionRuns_of_step hstep)
  | enter =>
    simp only [Endpoint.step] at hstep
    split at hstep <;> cases hstep
    exact ⟨h.loop, h.transactionLoop, fun _ => ⟨_, ‹_›⟩, h.senders⟩
  | callSends | senderSends =>
    simp only [Endpoint.step] at hstep
    split_ifs at hstep
    cases hstep
    rw [hsend]
    exact h
  | startSender =>
    simp only [Endpoint.step] at hstep
    split_ifs at hstep with hcall
    cases hstep
    obtain ⟨fd, hpos⟩ := h.calls (Nat.pos_iff_ne_zero.mp hcall)
    exact ⟨h.loop, h.transactionLoop, h.calls, fun _ => by rw [hpos]; rfl⟩
  | leave =>
    simp only [Endpoint.step] at hstep
    split_ifs at hstep with hcall
    cases hstep
    exact ⟨h.loop, h.transactionLoop, fun _ => h.calls (Nat.pos_iff_ne_zero.mp hcall), h.senders⟩
  | senderEnds =>
    simp only [Endpoint.step] at hstep
    split_ifs at hstep with hsender
    cases hstep
    exact ⟨h.loop, h.transactionLoop, h.calls, fun _ => h.senders (Nat.pos_iff_ne_zero.mp hsender)⟩

/-- What there is to say of construction and destruction; they keep an object whole while its loop has a
datagram. -/
theorem ownerStep_notes {ok : Bool} {fd : ℕ} (h : e.ownerStep kind ok fd = some r) :
    (∀ note ∈ r.notes, note = .failed ∨ note = .destroyed) ∧
      (r.next.busy = true → e.busy = true ∧ (e.pos.whole = true → r.next.pos.whole = true)) := by
  have hnothing {notes : List EndpointNote} (hnotes : notes = []) :
      ∀ note ∈ notes, note = .failed ∨ note = .destroyed := by
    rw [hnotes]
    exact List.forall_mem_nil _
  cases hpos : e.pos with
  | socket pos | transaction fd' pos =>
    simp only [ownerStep, hpos] at h
    split at h <;> cases h <;> exact ⟨by simp, fun hbusy => ⟨hbusy, fun hwhole => by contradiction⟩⟩
  | absent | members fd | path fd fd' | readTimeout fd fd' | unwind fd fd' | closeTransaction fd fd' | close fd =>
    simp only [ownerStep, hpos] at h
    cases h
    exact ⟨by simp, fun hbusy => ⟨hbusy, fun hwhole => by contradiction⟩⟩
  | unwound fd =>
    simp only [ownerStep, hpos] at h
    cases h
    exact ⟨hnothing rfl, fun hbusy => ⟨hbusy, fun hwhole => by contradiction⟩⟩
  | thread fd =>
    simp only [ownerStep, hpos] at h
    split_ifs at h
    · cases kind <;> cases h <;> exact ⟨hnothing rfl, fun hbusy => by contradiction⟩
    · cases h
      exact ⟨by simp, fun hbusy => ⟨hbusy, fun hwhole => by contradiction⟩⟩
  | ready fd fd'? =>
    simp only [ownerStep, hpos] at h
    split_ifs at h
    cases h
    exact ⟨hnothing rfl, fun hbusy => ⟨hbusy, fun _ => rfl⟩⟩
  | transactions fd | reset fd fd' =>
    simp only [ownerStep, hpos] at h
    split_ifs at h
    cases h
    exact ⟨hnothing rfl, fun hbusy => ⟨hbusy, fun hwhole => by contradiction⟩⟩
  | join fd fd'? =>
    cases fd'? with
    | none | some fd' =>
      simp only [ownerStep, hpos] at h
      split_ifs at h
      cases h
      exact ⟨hnothing rfl, fun hbusy => by contradiction⟩

/-- With its threads in order, an object meets a member that is not alive only in the receive loop, and only
before it is whole. -/
theorem Coherent.undefined_of_step (h : e.Coherent) {a : EndpointAction} (hstep : e.step kind a = some r)
    (hnote : .undefined ∈ r.notes) : e.busy = true ∧ e.pos.whole = false := by
  have hsend (hown : ∃ fd, e.pos.own? = some fd) : .undefined ∉ e.sendStep.notes := by
    obtain ⟨fd, hfd⟩ := hown
    simp [Endpoint.sendStep, hfd]
  cases a with
  | owner ok fd => exact absurd ((ownerStep_notes hstep).1 _ hnote) (by simp)
  | loop o =>
    have hstep' : e.loopStep o = some r := hstep
    unfold Endpoint.loopStep at hstep'
    split at hstep'
    case _ | _ => contradiction
    case _ =>
      cases hstep'
      contradiction
    case _ hloop =>
      obtain ⟨fd, hfd⟩ := EndpointPos.own_of_hasLoop (h.loop.mp (by rw [hloop]; exact EndpointLoop.noConfusion))
      simp only [hfd] at hstep'
      cases o with
      | datagram =>
        cases hstep'
        simp only at hnote
        split_ifs at hnote <;> simp at hnote
      | nothing | error =>
        cases hstep'
        simp at hnote
      | sends | cancels | ends | begins | starts | done => contradiction
    case _ hloop | _ hloop | _ hloop =>
      refine ⟨by rw [busy, hloop], ?_⟩
      by_contra hwhole
      rw [if_pos (Bool.not_eq_false _ ▸ hwhole)] at hstep'
      rw [(handles_of_handleStep hstep').notes] at hnote
      contradiction
  | transactionLoop o =>
    have hruns := transactionRuns_of_step (o := o) hstep
    obtain ⟨fd, hfd⟩ := EndpointPos.transaction_of_hasTransactionLoop (h.transactionLoop hruns.runs)
    rcases hruns.notes with hnone | ⟨hnone, -⟩
    · rw [hnone] at hnote
      contradiction
    · rw [hfd] at hnone
      contradiction
  | enter =>
    simp only [Endpoint.step] at hstep
    split at hstep <;> cases hstep
    contradiction
  | callSends =>
    simp only [Endpoint.step] at hstep
    split_ifs at hstep with hcall
    cases hstep
    obtain ⟨fd, hpos⟩ := h.calls (Nat.pos_iff_ne_zero.mp hcall)
    exact absurd hnote (hsend ⟨fd, by rw [hpos]; rfl⟩)
  | senderSends =>
    simp only [Endpoint.step] at hstep
    split_ifs at hstep with hsender
    cases hstep
    exact absurd hnote (hsend (EndpointPos.own_of_hasSenders (h.senders (Nat.pos_iff_ne_zero.mp hsender))))
  | startSender | leave | senderEnds =>
    simp only [Endpoint.step] at hstep
    split_ifs at hstep
    cases hstep
    contradiction

/-- The receive loop has a datagram while the object is not whole only if it took it that early. -/
theorem early_of_step {a : EndpointAction} (hstep : e.step kind a = some r) (hbusy : r.next.busy = true)
    (hwhole : r.next.pos.whole = false) : e.busy = true ∧ e.pos.whole = false ∨ .early ∈ r.notes := by
  have hsend : e.sendStep.next = e := by
    unfold sendStep
    split <;> rfl
  cases a with
  | owner ok fd =>
    obtain ⟨hbefore, hkept⟩ := (ownerStep_notes hstep).2 hbusy
    refine Or.inl ⟨hbefore, ?_⟩
    by_contra hwhole'
    rw [hkept (Bool.not_eq_false _ ▸ hwhole')] at hwhole
    contradiction
  | loop o =>
    have hstep' : e.loopStep o = some r := hstep
    unfold loopStep at hstep'
    split at hstep'
    case _ | _ => contradiction
    case _ hloop =>
      cases hstep'
      simp only [busy] at hbusy
      split_ifs at hbusy
    case _ hloop =>
      split at hstep'
      · cases hstep'
        rw [undefined, busy, hloop] at hbusy
        contradiction
      · cases o <;> cases hstep'
        case _ => contradiction
        case _ =>
          right
          rw [if_neg (by rw [hwhole]; exact Bool.false_ne_true)]
          simp
        case _ =>
          rw [busy, hloop] at hbusy
          contradiction
    case _ hloop | _ hloop | _ hloop =>
      refine Or.inl ⟨by rw [busy, hloop], ?_⟩
      by_contra hwhole'
      have hsame : r.next.pos = e.pos := by
        rw [if_pos (Bool.not_eq_false _ ▸ hwhole')] at hstep'
        exact (handles_of_handleStep hstep').pos
      exact hwhole' (hsame ▸ hwhole)
  | transactionLoop o =>
    have hruns := transactionRuns_of_step (o := o) hstep
    rw [hruns.pos] at hwhole
    rw [busy, hruns.loop] at hbusy
    exact Or.inl ⟨hbusy, hwhole⟩
  | enter =>
    simp only [step] at hstep
    split at hstep <;> cases hstep
    exact Or.inl ⟨hbusy, hwhole⟩
  | callSends | senderSends =>
    simp only [step] at hstep
    split_ifs at hstep
    cases hstep
    rw [hsend] at hbusy hwhole
    exact Or.inl ⟨hbusy, hwhole⟩
  | startSender | leave | senderEnds =>
    simp only [step] at hstep
    split_ifs at hstep
    cases hstep
    exact Or.inl ⟨hbusy, hwhole⟩

end Endpoint

end Trftp
