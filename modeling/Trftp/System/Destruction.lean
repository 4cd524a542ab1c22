import Trftp.System.Descriptors
import Mathlib.Data.List.Count

/-!
# Destruction

`~Server` and `~Client` clear `is_running_` and wait for the receive loop, which asks for a datagram at most
once more; `Receive` returns after its timeout if there is none. Then the transactions that are left wait for
their threads, and the sockets are closed. A sender thread counts as one step. Nothing clears `is_active_`, so
the loop of a client's transaction ends when the transaction does, and each datagram before lets it go on.
-/

namespace Trftp

open Lib (EventMachine)

/-! ## The last datagram -/

namespace Endpoint

variable {e : Endpoint} {r : EndpointResult} {kind : EndpointKind}

/-- How many times the receive loop still asks for a datagram before it looks at `is_running_`. -/
def pending (e : Endpoint) : ℕ :=
  match e.loop with
  | .receive => 1
  | .none | .test | .handle | .reset | .begun | .ended => 0

/-- At most once. -/
theorem pending_le (e : Endpoint) : e.pending ≤ 1 := by
  unfold pending
  split
  · exact Nat.le_refl 1
  all_goals exact Nat.zero_le 1

/-- With a datagram in hand none is asked for. -/
theorem pending_of_busy (h : e.busy = true) : e.pending = 0 := by
  unfold busy at h
  unfold pending
  split
  case h_1 hloop =>
    rw [hloop] at h
    contradiction
  all_goals rfl

/-- With a datagram, the receive loop gets back to its condition before it asks for another one. -/
theorem Handles.pending (h : e.Handles r) : r.next.pending = 0 := by
  rcases h.loop with htest | hbusy
  · rw [Endpoint.pending, htest]
  · exact pending_of_busy hbusy

/-- While the object is destroyed, a step asks for no more datagrams than are pending. -/
structure AsksNoMore (e : Endpoint) (r : EndpointResult) : Prop where
  stopping : r.next.pos.isRunning = false
  asked : r.notes.count .received + (if r.terminates then 0 else r.next.pending) ≤ e.pending

/-- A step that is not one of the receive loop asks for nothing. -/
theorem asksNoMore_of_quiet (hstopping : r.next.pos.isRunning = false) (hloop : r.next.pending ≤ e.pending)
    (hnotes : .received ∉ r.notes) : e.AsksNoMore r := by
  refine ⟨hstopping, ?_⟩
  rw [List.count_eq_zero.mpr hnotes, Nat.zero_add]
  split_ifs
  · exact Nat.zero_le _
  · exact hloop

/-- The destructor. -/
theorem ownerStep_asks {ok : Bool} {fd : ℕ} (hstopping : e.pos.isRunning = false)
    (h : e.ownerStep kind ok fd = some r) : .destroyed ∈ r.notes ∨ e.AsksNoMore r := by
  cases hpos : e.pos with
  | join fd fd'? =>
    right
    cases fd'? with
    | none | some fd' =>
      simp only [ownerStep, hpos] at h
      split_ifs at h
      cases h
      exact asksNoMore_of_quiet rfl (Nat.zero_le _) (List.not_mem_nil)
  | transactions fd | reset fd fd' =>
    right
    simp only [ownerStep, hpos] at h
    split_ifs at h
    cases h
    exact asksNoMore_of_quiet rfl (Nat.le_refl e.pending) (List.not_mem_nil)
  | closeTransaction fd fd' =>
    right
    simp only [ownerStep, hpos] at h
    cases h
    exact asksNoMore_of_quiet rfl (Nat.le_refl e.pending) (List.not_mem_nil)
  | close fd =>
    left
    simp only [ownerStep, hpos] at h
    cases h
    exact List.mem_singleton.mpr rfl
  | _ =>
    rw [hpos] at hstopping
    contradiction

/-- The receive loop. -/
theorem loopStep_asks {o : LoopOutcome} (hstopping : e.pos.isRunning = false) (h : e.loopStep o = some r) :
    e.AsksNoMore r := by
  unfold loopStep at h
  split at h
  case h_1 | h_2 => contradiction
  case h_3 =>
    cases h
    refine ⟨hstopping, ?_⟩
    rw [hstopping]
    exact Nat.zero_le _
  case h_4 hloop =>
    have hpending : e.pending = 1 := by rw [pending, hloop]
    split at h
    · cases h
      exact ⟨hstopping, Nat.zero_le _⟩
    · cases o <;> cases h
      · exact ⟨hstopping, Nat.le_of_eq hpending.symm⟩
      · refine ⟨hstopping, ?_⟩
        rw [hpending]
        simp only
        split_ifs <;> exact Nat.le_refl 1
      · exact ⟨hstopping, Nat.le_of_eq hpending.symm⟩
  case h_5 | h_6 | h_7 =>
    by_cases hwhole : e.pos.whole = true
    · rw [if_pos hwhole] at h
      have hr := handles_of_handleStep h
      exact asksNoMore_of_quiet (hr.pos ▸ hstopping) (by rw [hr.pending]; exact Nat.zero_le _)
        (by rw [hr.notes]; exact List.not_mem_nil)
    · rw [if_neg hwhole] at h
      cases h
      exact ⟨hstopping, Nat.zero_le _⟩

/-- While an object is destroyed, its receive loop asks for no more datagrams than are pending. -/
theorem asked_of_stopping {a : EndpointAction} (hstopping : e.pos.isRunning = false) (h : e.step kind a = some r) :
    .destroyed ∈ r.notes ∨ e.AsksNoMore r := by
  cases a with
  | owner ok fd => exact ownerStep_asks hstopping h
  | loop o => exact Or.inr (loopStep_asks hstopping h)
  | transactionLoop o =>
    have hr := transactionRuns_of_step (o := o) h
    have hpending : r.next.pending = e.pending := by rw [pending, hr.loop, pending]
    refine Or.inr (asksNoMore_of_quiet (hr.pos ▸ hstopping) (Nat.le_of_eq hpending) ?_)
    rcases hr.notes with hnone | ⟨-, hundefined⟩
    · rw [hnone]
      exact List.not_mem_nil
    · rw [hundefined]
      simp
  | enter =>
    simp only [step] at h
    split at h <;> cases h
    exact Or.inr (asksNoMore_of_quiet hstopping (Nat.le_refl e.pending) List.not_mem_nil)
  | callSends | senderSends =>
    simp only [step] at h
    split_ifs at h
    cases h
    have hnext : e.sendStep.next = e ∧ .received ∉ e.sendStep.notes := by
      unfold sendStep
      split <;> simp [undefined]
    have hstopping' : e.sendStep.next.pos.isRunning = false := by
      rw [hnext.1]
      exact hstopping
    exact Or.inr (asksNoMore_of_quiet hstopping' (Nat.le_of_eq (congrArg pending hnext.1)) hnext.2)
  | startSender | leave | senderEnds =>
    simp only [step] at h
    split_ifs at h
    cases h
    exact Or.inr (asksNoMore_of_quiet hstopping (Nat.le_refl e.pending) List.not_mem_nil)

end Endpoint

namespace EndpointProcess

variable {ι : Type*} [DecidableEq ι] {S S' : EndpointProcess ι} {kind : ι → EndpointKind}
  {es e : List (EndpointProcessEvent ι)} {i : ι}

/-- What a step of an object says of another one, or of itself. -/
theorem count_update {j : ι} {r : EndpointResult} (h : S.update j r = some (S', e)) :
    e.count (.note i .received) = if i = j then r.notes.count .received else 0 := by
  have hnotes : (r.notes.map (EndpointProcessEvent.note j)).count (.note i .received) =
      if i = j then r.notes.count .received else 0 := by
    split_ifs with hsame
    · rw [hsame]
      refine List.count_map_of_injective _ _ (fun note note' hnote => ?_) _
      cases hnote
      rfl
    · rw [List.count_eq_zero]
      intro hmem
      obtain ⟨note, -, hnote⟩ := List.mem_map.mp hmem
      cases hnote
      exact hsame rfl
  unfold update at h
  simp only at h
  split at h
  · cases h
    exact hnotes
  · obtain ⟨descriptors, -, hresult⟩ := Option.map_eq_some_iff.mp h
    cases hresult
    rw [List.count_cons_of_ne (by simp)]
    exact hnotes

/-- A step of an object may end the process. -/
theorem update_terminated {j : ι} {r : EndpointResult} (h : S.update j r = some (S', e)) :
    S'.terminated = r.terminates := by
  unfold update at h
  simp only at h
  split at h
  · cases h
    rfl
  · obtain ⟨descriptors, -, hresult⟩ := Option.map_eq_some_iff.mp h
    cases hresult
    rfl

/-- So many datagrams were asked for since the destruction began, and at most one is pending. -/
structure Stopping (i : ι) (asked : ℕ) (S : EndpointProcess ι) : Prop where
  stopping : (S.endpoint i).pos.isRunning = false
  asked_le : asked ≤ 1
  pending_le : S.terminated = false → asked + (S.endpoint i).pending ≤ 1

/-- It is so until the object is gone. -/
theorem Stopping.step {asked : ℕ} (h : Stopping i asked S) {a : EndpointProcessAction ι}
    (hstep : S.step kind a = some (S', e)) (hexists : .note i .destroyed ∉ e) :
    Stopping i (asked + e.count (.note i .received)) S' := by
  cases a with
  | opens fd | closes fd =>
    simp only [EndpointProcess.step] at hstep
    split_ifs at hstep
    cases hstep
    exact ⟨h.stopping, h.asked_le, h.pending_le⟩
  | endpoint j a =>
    simp only [EndpointProcess.step] at hstep
    split_ifs at hstep with hrunning
    rw [Bool.not_eq_true] at hrunning
    obtain ⟨r, hr, hupdate⟩ := Option.bind_eq_some_iff.mp hstep
    obtain ⟨hendpoint, hnotes⟩ := update_frame hupdate
    have hpending := h.pending_le hrunning
    rw [count_update (i := i) hupdate]
    by_cases hsame : i = j
    · subst hsame
      rw [if_pos rfl]
      rcases Endpoint.asked_of_stopping h.stopping hr with hgone | ⟨hstopping, hasked⟩
      · exact absurd ((hnotes i .destroyed).mpr ⟨rfl, hgone⟩) hexists
      · have hnext : S'.endpoint i = r.next := by rw [hendpoint, Function.update_self]
        have hterminated : S'.terminated = r.terminates := update_terminated hupdate
        refine ⟨by rw [hnext]; exact hstopping, by omega, fun hgoes => ?_⟩
        rw [← hterminated, hgoes] at hasked
        rw [hnext]
        simp only [Bool.false_eq_true, if_false] at hasked
        omega
    · have hnext : S'.endpoint i = S.endpoint i := by rw [hendpoint, Function.update_of_ne hsame]
      rw [if_neg hsame, Nat.add_zero]
      exact ⟨by rw [hnext]; exact h.stopping, h.asked_le, fun _ => by rw [hnext]; exact hpending⟩

/-- From the destructor on, the receive loop asks for at most one more datagram. -/
theorem stopping_of_run (hstopping : (S.endpoint i).pos.isRunning = false)
    (hrun : (endpointMachine kind).Run S es S') (hexists : .note i .destroyed ∉ es) :
    Stopping i (es.count (.note i .received)) S' := by
  have hinv : .note i .destroyed ∈ es ∨ Stopping i (es.count (.note i .received)) S' := by
    refine hrun.invariant (I := fun es S => .note i .destroyed ∈ es ∨ Stopping i (es.count (.note i .received)) S)
      (Or.inr ⟨hstopping, Nat.zero_le 1, fun _ => ?_⟩) fun {es S a S' e} hi hstep => ?_
    · rw [List.count_nil, Nat.zero_add]
      exact Endpoint.pending_le _
    · rw [List.mem_append, List.count_append]
      by_cases hgone : .note i .destroyed ∈ e
      · exact Or.inl (Or.inr hgone)
      · exact hi.imp Or.inl fun hstopped => hstopped.step hstep hgone
  exact hinv.resolve_left hexists

end EndpointProcess

/-! ## The way out -/

/-- How far the loop of a transaction is from its end, if no datagram comes. -/
def TransactionLoop.rank : TransactionLoop → ℕ
  | .none | .ended => 0
  | .cancel => 1
  | .receive => 2
  | .test => 3
  | .handle => 4

/-- How far the destructor is from its end, if it need not wait. -/
def EndpointPos.rank : EndpointPos → ℕ
  | .close _ => 1
  | .closeTransaction _ _ | .transactions _ => 2
  | .reset _ _ | .join _ none => 3
  | .join _ (some _) => 4
  | _ => 0

namespace Endpoint

variable {e : Endpoint} {r : EndpointResult} {kind : EndpointKind}

/-- How far the receive loop is from its end; it may still start the loop of a transaction. -/
def loopRank (e : Endpoint) : ℕ :=
  match e.loop with
  | .none | .ended => 0
  | .test => 1
  | .begun => if e.transactionLoop = .none then 6 else 2
  | .reset => 7
  | .handle => 8
  | .receive => 9

/-- How many steps the threads of an object have before it is gone. -/
def rank (e : Endpoint) : ℕ := e.pos.rank + e.loopRank + e.transactionLoop.rank + e.senders

/-- What a step of a thread does to the rank, unless it is the last one. -/
def Lowers (e : Endpoint) (a : EndpointAction) (r : EndpointResult) : Prop :=
  r.terminates = true ∨ r.next.rank < e.rank ∨ (a = .senderSends ∧ r.next = e) ∨
    (a = .transactionLoop .datagram ∧ r.next.rank < e.rank + 3)

/-- It is at most this. -/
theorem rank_le (e : Endpoint) : e.rank ≤ 17 + e.senders := by
  have hpos : e.pos.rank ≤ 4 := by
    unfold EndpointPos.rank
    split <;> omega
  have hloop : e.loopRank ≤ 9 := by
    unfold loopRank
    split <;> first | omega | (split_ifs <;> omega)
  have htransaction : e.transactionLoop.rank ≤ 4 := by
    cases e.transactionLoop <;> decide
  unfold rank
  omega

/-- The destructor goes on. -/
theorem ownerStep_lowers {ok : Bool} {fd : ℕ} (hcoherent : e.Coherent) (hstopping : e.pos.isRunning = false)
    (h : e.ownerStep kind ok fd = some r) : .destroyed ∈ r.notes ∨ r.next.rank < e.rank := by
  cases hpos : e.pos with
  | join fd fd'? =>
    right
    cases fd'? with
    | none | some fd' =>
      simp only [ownerStep, hpos] at h
      split_ifs at h with hended
      cases h
      simp [rank, loopRank, EndpointPos.rank, hpos, hended]
  | transactions fd =>
    right
    simp only [ownerStep, hpos] at h
    split_ifs at h
    cases h
    simp [rank, loopRank, EndpointPos.rank, hpos]
  | reset fd fd' =>
    right
    have hloop : e.loop = .none := by
      by_contra hne
      have hhas := hcoherent.loop.mp hne
      rw [hpos] at hhas
      contradiction
    simp only [ownerStep, hpos] at h
    split_ifs at h
    cases h
    simp [rank, loopRank, EndpointPos.rank, TransactionLoop.rank, hpos, hloop]
    omega
  | closeTransaction fd fd' =>
    right
    simp only [ownerStep, hpos] at h
    cases h
    simp [rank, loopRank, EndpointPos.rank, hpos]
  | close fd =>
    left
    simp only [ownerStep, hpos] at h
    cases h
    exact List.mem_singleton.mpr rfl
  | _ =>
    rw [hpos] at hstopping
    contradiction

/-- A datagram of the receive loop is done with in a few steps. -/
theorem handleStep_lowers {o : LoopOutcome} (h : e.handleStep o = some r) :
    r.terminates = true ∨ r.next.rank < e.rank := by
  unfold handleStep at h
  split at h
  case h_1 hloop =>
    cases h
    right
    simp only [rank, loopRank, hloop]
    omega
  case h_2 hloop =>
    cases h
    right
    simp only [rank, loopRank, hloop]
    split_ifs <;> omega
  case h_3 | h_4 =>
    cases h
    exact Or.inl rfl
  case h_5 hloop =>
    split_ifs at h
    obtain ⟨fd', -, hr⟩ := Option.map_eq_some_iff.mp h
    cases hr
    right
    simp only [rank, loopRank, hloop]
    omega
  case h_6 hloop =>
    split_ifs at h with hjoined
    cases h
    right
    simp only [rank, loopRank, hloop, TransactionLoop.rank, if_true]
    omega
  case h_7 hloop | h_8 hloop =>
    obtain ⟨fd', -, hr⟩ := Option.map_eq_some_iff.mp h
    cases hr
    right
    simp only [rank, loopRank, hloop]
    split_ifs <;> omega
  case h_9 hloop =>
    split_ifs at h with hstart
    cases h
    right
    simp [rank, loopRank, hloop, hstart.1, TransactionLoop.rank]
  case h_10 => contradiction

/-- The receive loop ends. -/
theorem loopStep_lowers {o : LoopOutcome} (hstopping : e.pos.isRunning = false) (h : e.loopStep o = some r) :
    r.terminates = true ∨ r.next.rank < e.rank := by
  unfold loopStep at h
  split at h
  case h_1 | h_2 => contradiction
  case h_3 hloop =>
    cases h
    right
    simp [rank, loopRank, hloop, hstopping]
  case h_4 hloop =>
    split at h
    · cases h
      exact Or.inl rfl
    · cases o <;> cases h
      · right
        simp [rank, loopRank, hloop]
      · right
        simp [rank, loopRank, hloop]
      · exact Or.inl rfl
  case h_5 | h_6 | h_7 =>
    by_cases hwhole : e.pos.whole = true
    · rw [if_pos hwhole] at h
      exact handleStep_lowers h
    · rw [if_neg hwhole] at h
      cases h
      exact Or.inl rfl

/-- The loop of the transaction ends, unless a datagram comes. -/
theorem transactionLoopStep_lowers {o : LoopOutcome} (h : e.transactionLoopStep o = some r) :
    e.Lowers (.transactionLoop o) r := by
  have hrank (loop : TransactionLoop) (active : Bool) (hruns : e.transactionLoop ≠ .none) (hloop : loop ≠ .none) :
      Endpoint.rank { e with transactionLoop := loop, active := active } + e.transactionLoop.rank =
        e.rank + loop.rank := by
    simp only [rank, loopRank, hruns, hloop, if_false]
    omega
  have hruns := (transactionRuns_of_step h).runs
  unfold transactionLoopStep at h
  split at h
  case h_1 | h_2 => contradiction
  case h_3 hloop =>
    cases h
    right; left
    have hreceive := hrank .receive e.active hruns TransactionLoop.noConfusion
    have hended := hrank .ended e.active hruns TransactionLoop.noConfusion
    rw [hloop] at hreceive hended
    simp only [TransactionLoop.rank] at hreceive hended
    by_cases hactive : e.active = true
    · simp only [hactive, if_true] at hreceive ⊢
      omega
    · rw [Bool.not_eq_true] at hactive
      simp only [hactive, Bool.false_eq_true, if_false] at hended ⊢
      omega
  case h_4 | h_5 | h_6 =>
    cases h
    exact Or.inl rfl
  case h_7 hloop _ =>
    cases o with
    | nothing =>
      cases h
      right; left
      have hnext := hrank .cancel e.active hruns TransactionLoop.noConfusion
      rw [hloop] at hnext
      simp only [TransactionLoop.rank] at hnext ⊢
      omega
    | datagram =>
      cases h
      right; right; right
      have hnext := hrank .handle e.active hruns TransactionLoop.noConfusion
      rw [hloop] at hnext
      refine ⟨rfl, ?_⟩
      simp only [TransactionLoop.rank] at hnext ⊢
      omega
    | error =>
      cases h
      exact Or.inl rfl
    | sends | cancels | ends | begins | starts | done => contradiction
  case h_8 hloop _ =>
    have hnext (active : Bool) := hrank .test active hruns TransactionLoop.noConfusion
    rw [hloop] at hnext
    simp only [TransactionLoop.rank] at hnext
    cases o with
    | done | sends =>
      cases h
      right; left
      have hsame := hnext e.active
      simp only at hsame ⊢
      omega
    | cancels | ends =>
      cases h
      right; left
      have hdead := hnext false
      simp only at hdead ⊢
      omega
    | error =>
      cases h
      exact Or.inl rfl
    | nothing | datagram | begins | starts => contradiction
  case h_9 hloop _ =>
    cases h
    right; left
    have hnext := hrank .ended false hruns TransactionLoop.noConfusion
    rw [hloop] at hnext
    simp only [TransactionLoop.rank] at hnext ⊢
    omega

/-- While an object is destroyed, each step of its threads brings them closer to their ends, apart from the sends
of a sender thread and from the datagrams of the transaction. -/
theorem lowers_of_stopping {a : EndpointAction} (hcoherent : e.Coherent) (hstopping : e.pos.isRunning = false)
    (h : e.step kind a = some r) : .destroyed ∈ r.notes ∨ e.Lowers a r := by
  have hcalls : ¬0 < e.calls := by
    rw [hcoherent.calls_eq fun fd hpos => by rw [hpos] at hstopping; contradiction]
    exact Nat.lt_irrefl 0
  cases a with
  | owner ok fd => exact (ownerStep_lowers hcoherent hstopping h).imp_right fun hless => Or.inr (Or.inl hless)
  | loop o =>
    right
    exact (loopStep_lowers hstopping h).imp_right Or.inl
  | transactionLoop o => exact Or.inr (transactionLoopStep_lowers h)
  | enter =>
    simp only [step] at h
    split at h
    · rename_i hpos
      rw [hpos] at hstopping
      contradiction
    · contradiction
  | callSends | startSender | leave =>
    simp only [step] at h
    rw [if_neg hcalls] at h
    contradiction
  | senderSends =>
    simp only [step] at h
    split_ifs at h
    cases h
    right; right; right; left
    refine ⟨rfl, ?_⟩
    unfold sendStep
    split <;> rfl
  | senderEnds =>
    simp only [step] at h
    split_ifs at h with hsenders
    cases h
    right; right; left
    simp only [rank, loopRank]
    omega

/-- A loop of a transaction that has not ended has a next statement. -/
theorem transactionLoop_goes {fd' : ℕ} (hfd : e.pos.transaction? = some fd')
    (hruns : ¬(e.transactionLoop = .none ∨ e.transactionLoop = .ended)) :
    ∃ o r, e.transactionLoopStep o = some r ∧ ∀ slot fd, r.call? ≠ some (slot, .opened fd) := by
  rw [not_or] at hruns
  cases hloop : e.transactionLoop with
  | none => exact absurd hloop hruns.1
  | ended => exact absurd hloop hruns.2
  | test => exact ⟨.done, _, by simp only [transactionLoopStep, hloop]; rfl, by simp⟩
  | receive => exact ⟨.nothing, _, by simp only [transactionLoopStep, hloop, hfd]; rfl, by simp⟩
  | handle => exact ⟨.done, _, by simp only [transactionLoopStep, hloop, hfd]; rfl, by simp⟩
  | cancel => exact ⟨.done, _, by simp only [transactionLoopStep, hloop, hfd]; rfl, by simp⟩

/-- While an object is destroyed, one of its threads has a next statement: those that wait for another one do not
wait for each other. -/
theorem goes_on (hcoherent : e.Coherent) (hstopping : e.pos.isRunning = false) :
    ∃ a r, a ≠ .senderSends ∧ e.step kind a = some r ∧ ∀ slot fd, r.call? ≠ some (slot, .opened fd) := by
  have howner {r : EndpointResult} (h : e.ownerStep kind true 0 = some r)
      (hcall : ∀ slot fd, r.call? ≠ some (slot, .opened fd)) :
      ∃ a r, a ≠ .senderSends ∧ e.step kind a = some r ∧ ∀ slot fd, r.call? ≠ some (slot, .opened fd) :=
    ⟨.owner true 0, r, by simp, h, hcall⟩
  have htransaction (hhas : ∃ fd', e.pos.transaction? = some fd')
      (hruns : ¬(e.transactionLoop = .none ∨ e.transactionLoop = .ended)) :
      ∃ a r, a ≠ .senderSends ∧ e.step kind a = some r ∧ ∀ slot fd, r.call? ≠ some (slot, .opened fd) := by
    obtain ⟨fd', hfd⟩ := hhas
    obtain ⟨o, r, hstep, hcall⟩ := transactionLoop_goes hfd hruns
    exact ⟨.transactionLoop o, r, by simp, hstep, hcall⟩
  cases hpos : e.pos with
  | close fd | closeTransaction fd fd' =>
    exact howner (by simp only [ownerStep, hpos]; rfl) (by simp)
  | transactions fd =>
    by_cases hsenders : e.senders = 0
    · exact howner (by simp only [ownerStep, hpos, hsenders, if_true]; rfl) (by simp)
    · refine ⟨.senderEnds, _, by simp, by simp only [step, Nat.pos_of_ne_zero hsenders, if_true]; rfl, by simp⟩
  | reset fd fd' =>
    by_cases hended : e.transactionLoop = .none ∨ e.transactionLoop = .ended
    · exact howner (by simp only [ownerStep, hpos, hended, if_true]; rfl) (by simp)
    · exact htransaction ⟨fd', by rw [hpos]; rfl⟩ hended
  | join fd fd'? =>
    have hwhole : e.pos.whole = true := by rw [hpos]; rfl
    have hown : e.pos.own? = some fd := by rw [hpos]; rfl
    have hloop {o : LoopOutcome} {r : EndpointResult} (h : e.loopStep o = some r)
        (hcall : ∀ slot fd, r.call? ≠ some (slot, .opened fd)) :
        ∃ a r, a ≠ .senderSends ∧ e.step kind a = some r ∧ ∀ slot fd, r.call? ≠ some (slot, .opened fd) :=
      ⟨.loop o, r, by simp, h, hcall⟩
    cases hplace : e.loop with
    | none => exact absurd hplace (hcoherent.loop.mpr (by rw [hpos]; rfl))
    | ended => cases fd'? <;> exact howner (by simp only [ownerStep, hpos, hplace, if_true]; rfl) (by simp)
    | test => exact hloop (o := .done) (by simp only [loopStep, hplace]; rfl) (by simp)
    | receive => exact hloop (o := .nothing) (by simp only [loopStep, hplace, hown]; rfl) (by simp)
    | handle | begun =>
      exact hloop (o := .done) (by simp only [loopStep, hplace, hwhole, if_true, handleStep]; rfl) (by simp)
    | reset =>
      by_cases hended : e.transactionLoop = .none ∨ e.transactionLoop = .ended
      · exact hloop (o := .done) (by simp only [loopStep, hplace, hwhole, if_true, handleStep, hended]; rfl)
          (by simp)
      · refine htransaction (EndpointPos.transaction_of_hasTransactionLoop (hcoherent.transactionLoop ?_)) hended
        exact fun hnone => hended (Or.inl hnone)
  | _ =>
    rw [hpos] at hstopping
    contradiction

end Endpoint

/-- The statements of the threads of an object, without the sends of its sender threads. -/
def EndpointProcessAction.isOf {ι : Type*} [DecidableEq ι] (i : ι) : EndpointProcessAction ι → Bool
  | .endpoint _ .senderSends | .opens _ | .closes _ => false
  | .endpoint j _ => j = i

/-- The loop of the transaction of an object takes a datagram. -/
def EndpointProcessAction.takesDatagram {ι : Type*} [DecidableEq ι] (i : ι) : EndpointProcessAction ι → Bool
  | .endpoint j (.transactionLoop .datagram) => j = i
  | _ => false

namespace EndpointProcess

variable {ι : Type*} [DecidableEq ι] {S S' : EndpointProcess ι} {kind : ι → EndpointKind}
  {es e : List (EndpointProcessEvent ι)} {i : ι}

/-- The process is over, or the object is being destroyed and has so many steps left. -/
def Leaving (i : ι) (S : EndpointProcess ι) (n : ℕ) : Prop :=
  S.terminated = true ∨
    ((S.endpoint i).Coherent ∧ (S.endpoint i).pos.isRunning = false ∧ (S.endpoint i).rank ≤ n)

/-- A statement of the object is one step less; other steps leave the object alone. -/
theorem leaving_step {a : EndpointProcessAction ι} {n : ℕ} (h : Leaving i S n)
    (hstep : S.step kind a = some (S', e)) (hexists : .note i .destroyed ∉ e) :
    ∃ n', Leaving i S' n' ∧ (n' < n ∨ (a.isOf i = false ∧ n' ≤ n) ∨ (a.takesDatagram i = true ∧ n' < n + 3)) := by
  cases a with
  | opens fd | closes fd =>
    simp only [EndpointProcess.step] at hstep
    split_ifs at hstep
    cases hstep
    exact ⟨n, h, Or.inr (Or.inl ⟨rfl, Nat.le_refl n⟩)⟩
  | endpoint j a =>
    simp only [EndpointProcess.step] at hstep
    split_ifs at hstep with hrunning
    obtain ⟨hcoherent, hstopping, hrank⟩ := h.resolve_left hrunning
    obtain ⟨r, hr, hupdate⟩ := Option.bind_eq_some_iff.mp hstep
    obtain ⟨hendpoint, hnotes⟩ := update_frame hupdate
    by_cases hsame : i = j
    · subst hsame
      have hnext : S'.endpoint i = r.next := by rw [hendpoint, Function.update_self]
      have hgone : .destroyed ∉ r.notes := fun hmem => hexists ((hnotes i .destroyed).mpr ⟨rfl, hmem⟩)
      have hstopping' := ((Endpoint.asked_of_stopping hstopping hr).resolve_left hgone).stopping
      have hleaving {n' : ℕ} (hn' : r.next.rank ≤ n') : Leaving i S' n' := by
        right
        rw [hnext]
        exact ⟨hcoherent.step hr, hstopping', hn'⟩
      rcases (Endpoint.lowers_of_stopping hcoherent hstopping hr).resolve_left hgone with
        hends | hless | ⟨rfl, hkept⟩ | ⟨rfl, hless⟩
      · -- the process ends here, and the destructor at least had something left to do
        have hpos : 0 < (S.endpoint i).rank := by
          have hhas : 0 < (S.endpoint i).pos.rank := by
            cases hpos : (S.endpoint i).pos with
            | join fd fd'? => cases fd'? <;> exact Nat.zero_lt_succ _
            | transactions | reset | closeTransaction | close => exact Nat.zero_lt_succ _
            | _ =>
              rw [hpos] at hstopping
              contradiction
          unfold Endpoint.rank
          omega
        exact ⟨0, Or.inl ((update_terminated hupdate).trans hends), Or.inl (by omega)⟩
      · exact ⟨_, hleaving (Nat.le_refl _), Or.inl (by omega)⟩
      · exact ⟨n, hleaving (by rw [hkept]; exact hrank), Or.inr (Or.inl ⟨rfl, Nat.le_refl n⟩)⟩
      · exact ⟨_, hleaving (Nat.le_refl _), Or.inr (Or.inr ⟨decide_eq_true rfl, by omega⟩)⟩
    · have hnext : S'.endpoint i = S.endpoint i := by rw [hendpoint, Function.update_of_ne hsame]
      refine ⟨n, Or.inr ?_, Or.inr (Or.inl ⟨?_, Nat.le_refl n⟩)⟩
      · rw [hnext]
        exact ⟨hcoherent, hstopping, hrank⟩
      · cases a <;> first | rfl | exact decide_eq_false (Ne.symm hsame)

/-- In a process that goes on, one of the threads of the object can go on. -/
theorem goes_on (hcoherent : (S.endpoint i).Coherent) (hstopping : (S.endpoint i).pos.isRunning = false)
    (hrunning : S.terminated = false) :
    ∃ a, EndpointProcessAction.isOf i (.endpoint i a) = true ∧ (S.step kind (.endpoint i a)).isSome = true := by
  obtain ⟨a, r, hother, hstep, hcall⟩ := @Endpoint.goes_on _ (kind i) hcoherent hstopping
  refine ⟨a, ?_, ?_⟩
  · cases a <;> first | exact absurd rfl hother | exact decide_eq_true rfl
  · simp only [EndpointProcess.step, hrunning, hstep, Bool.false_eq_true, if_false, Option.bind_some, update]
    split
    · rfl
    case _ slot call hcalls =>
      cases call with
      | opened fd => exact absurd hcalls (hcall slot fd)
      | used fd | closed fd => rfl

end EndpointProcess

/-- A destructor waits for no more than what is under way, and for the datagrams of the transaction.

From `is_running_ = false` on, whatever the other objects do, the receive loop asks for a datagram at most once
more. As long as the object is not gone, its threads have executed at most seventeen statements, one more for each
sender thread, and three more for each datagram that the loop of the transaction has taken; and unless an exception
has ended the process, one of them can go on. The sends of a sender thread are not counted here. -/
theorem destructor_returns {ι : Type*} [DecidableEq ι] {kind : ι → EndpointKind}
    {es : List (EndpointProcessEvent ι)} {S : EndpointProcess ι} (h : (endpointMachine kind).Trace es S) {i : ι}
    (hstopping : (S.endpoint i).pos.isRunning = false) {as : List (EndpointProcessAction ι)}
    {S' : EndpointProcess ι} {es' : List (EndpointProcessEvent ι)}
    (hexec : (endpointMachine kind).exec S as = some (S', es')) (hexists : .note i .destroyed ∉ es') :
    es'.count (.note i .received) ≤ 1 ∧
    as.countP (EndpointProcessAction.isOf i) ≤
      17 + (S.endpoint i).senders + 3 * as.countP (EndpointProcessAction.takesDatagram i) ∧
    (S'.terminated = false → ∃ a, EndpointProcessAction.isOf i (.endpoint i a) = true ∧
      (S'.step kind (.endpoint i a)).isSome = true) := by
  have hrun : (endpointMachine kind).Run S es' S' := EventMachine.exec_run hexec
  have hstopped := EndpointProcess.stopping_of_run hstopping hrun hexists
  refine ⟨hstopped.asked_le, ?_, fun hrunning => ?_⟩
  · have hleaving : EndpointProcess.Leaving i S (17 + (S.endpoint i).senders) :=
      Or.inr ⟨(EndpointProcess.trace_inv h).coherent i, hstopping, Endpoint.rank_le _⟩
    refine EventMachine.exec_countP_le_of_cost (I := EndpointProcess.Leaving i) (Q := (· ≠ .note i .destroyed))
      (fun hinv hstep hkept => ?_) hleaving hexec fun x hx heq => hexists (heq ▸ hx)
    exact EndpointProcess.leaving_step hinv hstep fun hmem => hkept _ hmem rfl
  · exact EndpointProcess.goes_on ((EndpointProcess.trace_inv (h.run hrun)).coherent i) hstopped.stopping hrunning

/-- A transaction that is alive goes on under the destructor: nothing clears `is_active_`, so the wait lasts as long
as datagrams come that do not end the transaction. -/
theorem destructor_waits {kind : EndpointKind} {e : Endpoint} {fd fd' : ℕ} (hpos : e.pos = .reset fd fd')
    (hloop : e.transactionLoop = .test) (hactive : e.active = true) :
    ∃ r r', e.step kind (.transactionLoop .done) = some r ∧ r.next.step kind (.transactionLoop .datagram) = some r' ∧
      r'.next.step kind (.transactionLoop .done) = some { next := e } := by
  refine ⟨{ next := { e with transactionLoop := .receive } },
    { next := { e with transactionLoop := .handle }, call? := some (.transaction, .used fd') }, ?_, ?_, ?_⟩
  · simp [Endpoint.step, Endpoint.transactionLoopStep, hloop, hactive]
  · simp [Endpoint.step, Endpoint.transactionLoopStep, hpos, EndpointPos.transaction?]
  · have hsame : { e with transactionLoop := .test } = e := by rw [← hloop]
    simp only [Endpoint.step, Endpoint.transactionLoopStep, hpos, EndpointPos.transaction?]
    rw [← hpos, hsame]

/-- The destructor of the client is entered while both of its loops run. -/
def clientDestroyed : List (EndpointProcessAction Bool) :=
  serverFails ++ [.endpoint true (.loop .done), .endpoint true (.owner true 0)]

/-- The loop of the transaction discards a datagram, then both loops time out, and the destructor gets to the last
socket. -/
def clientLeaves : List (EndpointProcessAction Bool) :=
  [.transactionLoop .done, .transactionLoop .datagram, .transactionLoop .done, .loop .nothing, .loop .done,
    .owner true 0, .transactionLoop .done, .transactionLoop .nothing, .transactionLoop .done, .owner true 0,
    .owner true 0].map (.endpoint true)

theorem destructor_returns_clientDestroyed : ∃ es S es' S',
    (endpointMachine serverAndClient).exec .start clientDestroyed = some (S, es) ∧
    (endpointMachine serverAndClient).exec S clientLeaves = some (S', es') ∧
    (S'.endpoint true).pos = .close 3 ∧ clientLeaves.countP (EndpointProcessAction.takesDatagram true) = 1 ∧
    es'.count (.note true .received) ≤ 1 ∧ clientLeaves.countP (EndpointProcessAction.isOf true) ≤ 20 ∧
    ∃ a, EndpointProcessAction.isOf true (.endpoint true a) = true ∧
      (S'.step serverAndClient (.endpoint true a)).isSome = true := by
  have hinit : (endpointMachine serverAndClient).initial .start := ⟨fun _ => rfl, fun _ => rfl, fun _ => rfl, rfl⟩
  have hrun : ∃ es S es' S', (endpointMachine serverAndClient).exec .start clientDestroyed = some (S, es) ∧
      (endpointMachine serverAndClient).exec S clientLeaves = some (S', es') ∧
      (S.endpoint true).pos.isRunning = false ∧ (S.endpoint true).senders = 0 ∧
      (S'.endpoint true).pos = .close 3 ∧ S'.terminated = false ∧ .note true .destroyed ∉ es' :=
    ⟨_, _, _, _, rfl, rfl, rfl, rfl, rfl, rfl, by decide⟩
  obtain ⟨es, S, es', S', hexec, hexec', hstopping, hsenders, hclose, hrunning, hexists⟩ := hrun
  obtain ⟨hasked, hsteps, hgoes⟩ := destructor_returns (EventMachine.exec_trace hinit hexec) hstopping hexec' hexists
  rw [hsenders] at hsteps
  exact ⟨es, S, es', S', hexec, hexec', hclose, rfl, hasked, hsteps, hgoes hrunning⟩

end Trftp
