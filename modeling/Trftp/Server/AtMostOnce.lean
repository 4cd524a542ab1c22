import Trftp.Server.Handshake
import Trftp.Server.Progress

/-!
# Each phase message takes effect at most once

A reply is accepted while the request of its phase is in the status. `StartFileTransfer` stores
each request once, and only moves forward, so once a reply has replaced its request the
request does not come back, whoever writes the status afterwards. Later copies of the reply
fail the phase check and change nothing but the address they came from.
-/

namespace Trftp

open Lib (EventMachine InOrder EachWithPast)

/-- `OnReceive` accepted a message of this kind. -/
def ServerEvent.accepts (id : MessageId) : ServerEvent → Bool
  | .accepted id' _ => id' = id
  | _ => false

namespace ServerState

variable {t : ServerTransaction} {phase : Phase} {s s' : ServerState} {es e : List ServerEvent}

/-- The request of the phase was stored and is gone for good, and no reply to it is pending. -/
structure Spent (phase : Phase) (s : ServerState) : Prop where
  behind : s.driver.remaining ≤ (DriverPos.sending phase).remaining
  status : s.vars.status ≠ phase.request
  pending : ∀ r, s.receiver = .psnCheck r ∨ s.receiver = .commit r → r.id? ≠ some phase.reply

/-- A reply behind its phase check: the request was stored before, and a reply is no request. -/
theorem request_ne_reply (phase phase' : Phase) : phase.request ≠ phase'.reply := by
  cases phase <;> cases phase' <;> simp [Phase.request, Phase.reply]

/-- A request in the status was stored by a driver that has gone on. -/
theorem PhaseInv.behind (hinv : PhaseInv s) (hs : s.vars.status = phase.request) (hstart : s.driver ≠ .start) :
    s.driver.remaining ≤ (DriverPos.sending phase).remaining := by
  have hholds := hinv.request phase hs
  cases hpos : s.driver <;> simp only [hpos, DriverPos.Holds] at hholds <;> try contradiction
  case sending | sample =>
    subst hholds
    simp [DriverPos.remaining]
  case waiting | decide =>
    obtain ⟨rfl, -⟩ := hholds
    simp [DriverPos.remaining]
  all_goals
    simp only [DriverPos.remaining]
    omega

/-- `StartFileTransfer` stores a request as it enters its phase. -/
theorem driverStep_stored (h : s.driverStep t = some (s', [.stored phase.request])) :
    s'.driver = .sending phase := by
  cases hpos : s.driver <;> simp only [driverStep, hpos] at h
  case start =>
    cases phase <;> cases h
    rfl
  case sending p => cases p <;> cases h
  case waiting => split at h <;> cases h
  case decide p status =>
    split at h
    case h_1 => cases h
    case h_2 => cases phase <;> cases h
    case h_3 =>
      cases p <;> cases phase <;> simp only [Phase.nextId, Phase.request, Option.some.injEq, Prod.mk.injEq,
        List.cons.injEq, ServerEvent.stored.injEq, reduceCtorEq, false_and, and_false] at h
      all_goals
        rw [← h.1]
        rfl
  case sample | woken | finishing | cancelling | erase | returned => cases h

/-- Whoever stores a request is `StartFileTransfer`, and it was in front of it. -/
theorem step_stored {a : ServerAction} (h : s.step t a = some (s', [.stored phase.request])) :
    s'.driver = .sending phase ∧ (DriverPos.sending phase).remaining < s.driver.remaining := by
  have hreports := step_reports_mem h (List.mem_singleton_self _)
  cases a with
  | driver =>
    have hless := driverStep_remaining h
    rw [driverStep_stored h] at hless
    exact ⟨driverStep_stored h, hless⟩
  | sender | abort => cases phase <;> contradiction
  | timeout | deliver | receiver | abortSend => contradiction

/-- A reply that is pending was pending before, or its request was in the status. -/
theorem step_pending {a : ServerAction} {r : Received} (h : s.step t a = some (s', e))
    (hpos : s'.receiver = .psnCheck r ∨ s'.receiver = .commit r) (hid : r.id? = some phase.reply) :
    (s.receiver = .psnCheck r ∨ s.receiver = .commit r) ∨
      (s.vars.status = phase.request ∧ s'.driver = s.driver) := by
  cases a with
  | receiver =>
    have hdriver := (receiverStep_frame h).driver
    revert h
    simp only [step]
    fun_cases ServerState.receiverStep t s <;> intro h <;> cases h <;>
      simp only [accept, reduceCtorEq, or_self, ReceiverPos.psnCheck.injEq, ReceiverPos.commit.injEq, or_false,
        false_or] at hpos <;> subst hpos
    all_goals first
      | exact Or.inl (Or.inl ‹_›)
      | (cases phase <;> simp_all [Phase.reply, Phase.request])
  | driver => exact Or.inl (by rwa [(driverStep_frame h).receiver] at hpos)
  | timeout =>
    rw [timeoutStep_frame h] at hpos
    exact Or.inl hpos
  | sender fileOk => exact Or.inl (by rwa [(senderStep_frame h).receiver] at hpos)
  | deliver r =>
    obtain ⟨-, -, rfl⟩ := deliverStep_eq h
    simp only at hpos
    split_ifs at hpos <;> simp at hpos
  | abort =>
    obtain ⟨-, rfl, -⟩ := abortStep_eq h
    exact Or.inl hpos
  | abortSend =>
    obtain ⟨rfl, -⟩ := abortSendStep_eq h
    exact Or.inl hpos

/-- What is spent stays spent. -/
theorem Spent.step {a : ServerAction} (hspent : Spent phase s) (h : s.step t a = some (s', e)) :
    Spent phase s' := by
  have hless := step_remaining h
  refine ⟨by have hbehind := hspent.behind; omega, fun hs => ?_, fun r hpos hid => ?_⟩
  · rcases step_status h with hkeep | hstored | ⟨r, haccepted, -⟩
    · exact hspent.status (hkeep ▸ hs)
    · rw [hs] at hstored
      exact absurd (step_stored (hstored ▸ h)).2 (Nat.not_lt.mpr hspent.behind)
    · exact (step_accepted h (haccepted ▸ List.mem_singleton_self _)).2.2.2.2.2 phase hs.symm
  · rcases step_pending h hpos hid with hbefore | ⟨hstatus, -⟩
    · exact hspent.pending r hbefore hid
    · exact hspent.status hstatus

/-- A pending reply follows its request; the first request is the status of a new transaction too. -/
def PendingBehind (s : ServerState) : Prop :=
  ∀ phase : Phase, ∀ r, s.receiver = .psnCheck r ∨ s.receiver = .commit r → r.id? = some phase.reply →
    phase = .ntf ∨ s.driver.remaining ≤ (DriverPos.sending phase).remaining

/-- What holds since the first request was stored: an accepted reply is spent, and replies were accepted
in the order of the phases, at most one of each kind. -/
structure OnceInv (es : List ServerEvent) (s : ServerState) : Prop where
  started : s.driver.remaining ≤ (DriverPos.sending .ntf).remaining
  spent : ∀ phase : Phase, (∃ r, .accepted phase.reply r ∈ es) → Spent phase s
  once : ∀ phase : Phase, es.countP (ServerEvent.accepts phase.reply) ≤ 1

end ServerState

/-- In every reachable state a pending reply follows its request. -/
theorem pendingBehind_of_trace {t : ServerTransaction} {es : List ServerEvent} {s : ServerState}
    (h : (serverMachine t).Trace es s) : ServerState.PendingBehind s := by
  refine h.invariant (I := fun _ s => ServerState.PendingBehind s) ?_ ?_
  · rintro s rfl phase r hpos
    rcases hpos with hpos | hpos <;> cases hpos
  · intro es s a s' e htrace ih hstep phase r hpos hid
    have hless := ServerState.step_remaining hstep
    rcases ServerState.step_pending hstep hpos hid with hbefore | ⟨hstatus, -⟩
    · exact (ih phase r hbefore hid).imp_right fun hbehind => by omega
    · by_cases hstart : s.driver = .start
      · have hholds := (phaseInv_of_trace htrace).request phase hstatus
        rw [hstart] at hholds
        exact Or.inl hholds
      · have hbehind := (phaseInv_of_trace htrace).behind hstatus hstart
        exact Or.inr (by omega)

/-- The first request is stored by the first statement. -/
theorem started_of_stored {t : ServerTransaction} {es : List ServerEvent} {s : ServerState}
    (h : (serverMachine t).Trace es s) :
    .stored .ntf ∈ es → s.driver.remaining ≤ (DriverPos.sending .ntf).remaining := by
  refine h.invariant
    (I := fun es s => .stored .ntf ∈ es → s.driver.remaining ≤ (DriverPos.sending .ntf).remaining) ?_ ?_
  · intro s _ hmem
    cases hmem
  · intro es s a s' e htrace ih hstep hmem
    have hless := ServerState.step_remaining hstep
    rcases List.mem_append.mp hmem with hold | hnew
    · have hbefore := ih hold
      omega
    · have he : e = [.stored Phase.ntf.request] := by
        rcases ServerState.step_events hstep with rfl | ⟨x, rfl⟩
        · cases hnew
        · rw [← List.mem_singleton.mp hnew]
          rfl
      subst he
      rw [(ServerState.step_stored hstep).1]

namespace ServerState

variable {t : ServerTransaction} {phase : Phase} {s s' : ServerState} {es e : List ServerEvent}

/-- Every statement keeps what holds since the first request was stored. -/
theorem OnceInv.step {a : ServerAction} (hinv : OnceInv es s) (hpending : PendingBehind s)
    (h : s.step t a = some (s', e)) : OnceInv (es ++ e) s' := by
  have hless := step_remaining h
  have hnew : ∀ phase : Phase, ∀ r, .accepted phase.reply r ∈ e →
      Spent phase s' ∧ (∀ r', .accepted phase.reply r' ∉ es) ∧ e = [.accepted phase.reply r] := by
    intro phase r hmem
    obtain ⟨he, hcommit, hid, hidle, hstatus, -⟩ := step_accepted h hmem
    have hbehind : s'.driver.remaining ≤ (DriverPos.sending phase).remaining := by
      rcases hpending phase r (Or.inr hcommit) hid with rfl | hbehind
      · have hstarted := hinv.started
        omega
      · omega
    refine ⟨⟨hbehind, ?_, fun r' hpos => ?_⟩, fun r' hmem' => ?_, he⟩
    · rw [hstatus (by cases phase <;> simp [Phase.reply])]
      exact (request_ne_reply phase phase).symm
    · rw [hidle] at hpos
      simp at hpos
    · exact (hinv.spent phase ⟨r', hmem'⟩).pending r (Or.inr hcommit) hid
  refine ⟨by have hstarted := hinv.started; omega, fun phase hacc => ?_, fun phase => ?_⟩
  · obtain ⟨r, hmem⟩ := hacc
    rcases List.mem_append.mp hmem with hold | hlast
    · exact (hinv.spent phase ⟨r, hold⟩).step h
    · exact (hnew phase r hlast).1
  · rw [List.countP_append]
    by_cases hmem : ∃ r, .accepted phase.reply r ∈ e
    · obtain ⟨r, hmem⟩ := hmem
      obtain ⟨-, hfresh, rfl⟩ := hnew phase r hmem
      have hzero : es.countP (ServerEvent.accepts phase.reply) = 0 := by
        refine List.countP_eq_zero.mpr fun x hx haccepts => ?_
        cases x <;> simp [ServerEvent.accepts] at haccepts
        exact hfresh _ (haccepts ▸ hx)
      have hone := List.countP_le_length (p := ServerEvent.accepts phase.reply)
        (l := [ServerEvent.accepted phase.reply r])
      rw [List.length_singleton] at hone
      omega
    · have hzero : e.countP (ServerEvent.accepts phase.reply) = 0 := by
        refine List.countP_eq_zero.mpr fun x hx haccepts => ?_
        cases x <;> simp [ServerEvent.accepts] at haccepts
        exact hmem ⟨_, haccepts ▸ hx⟩
      rw [hzero]
      exact hinv.once phase

/-- `OnReceive` discards a reply that is spent. -/
theorem Spent.discards (hspent : Spent phase s) {r : Received} (hid : r.id? = some phase.reply) :
    t.onReceive s.vars r = { s.vars with clientAddress := r.addr } := by
  have hstatus := hspent.status
  unfold ServerTransaction.onReceive
  cases phase <;> simp_all [Phase.request, Phase.reply]

end ServerState

section SinceStored

variable {t : ServerTransaction} {es₀ es : List ServerEvent} {s₀ s₁ s : ServerState}

/-- What holds since the first request was stored, in every run. -/
theorem onceInv_of_run (h : (serverMachine t).Trace es₀ s₀)
    (hstore : s₀.step t .driver = some (s₁, [.stored .ntf])) (hrun : (serverMachine t).Run s₁ es s) :
    (serverMachine t).Trace (es₀ ++ [.stored .ntf] ++ es) s ∧ ServerState.OnceInv es s := by
  have hstore' : (serverMachine t).step s₀ .driver = some (s₁, [.stored .ntf]) := hstore
  have htrace : (serverMachine t).Trace (es₀ ++ [.stored .ntf]) s₁ := h.step hstore'
  refine hrun.invariant
    (I := fun es s => (serverMachine t).Trace (es₀ ++ [.stored .ntf] ++ es) s ∧ ServerState.OnceInv es s)
    ?_ ?_
  · refine ⟨by simpa using htrace, ?_, ?_, ?_⟩
    · exact started_of_stored htrace (by simp)
    · rintro phase ⟨r, hmem⟩
      cases hmem
    · exact fun phase => Nat.zero_le 1
  · rintro es s a s' e ⟨htrace, hinv⟩ hstep
    have hnext := htrace.step hstep
    rw [List.append_assoc] at hnext
    exact ⟨hnext, hinv.step (pendingBehind_of_trace htrace) hstep⟩

/-- An event that the handshake has in front of a pending reply has occurred since the first request
was stored. -/
theorem mem_of_inOrder {k : ℕ} {id : MessageId} (h : (serverMachine t).Trace es₀ s₀)
    (hstore : s₀.step t .driver = some (s₁, [.stored .ntf]))
    (horder : InOrder (handshake.take (k + 1)) (es₀ ++ [.stored .ntf] ++ es))
    (hid : AcceptedIntact id ∈ handshake.take (k + 1)) : ∃ r, ServerEvent.accepted id r ∈ es := by
  have hstart : (DriverPos.sending .ntf).remaining < s₀.driver.remaining :=
    (ServerState.step_stored hstore).2
  have hnone : ∀ x ∈ es₀, ¬x = .stored .ntf := by
    rintro x hx rfl
    exact absurd (started_of_stored h hx) (Nat.not_le.mpr hstart)
  rw [List.append_assoc] at horder
  have hsince : InOrder (handshake.take (k + 1)) ([.stored .ntf] ++ es) := horder.skip hnone
  obtain ⟨x, hx, r, rfl, -⟩ := hsince.exists_mem hid
  refine ⟨r, ?_⟩
  simpa using hx

/-- Since the first request was stored, replies are accepted in the order of the phases. -/
theorem reply_order (h : (serverMachine t).Trace es₀ s₀)
    (hstore : s₀.step t .driver = some (s₁, [.stored .ntf])) (hrun : (serverMachine t).Run s₁ es s) :
    EachWithPast (fun pre x =>
      (∀ r, x = .accepted .rdy r → ∃ r', ServerEvent.accepted .chk r' ∈ pre) ∧
        ∀ r, x = .accepted .done r → ∃ r', ServerEvent.accepted .rdy r' ∈ pre) es := by
  refine (hrun.invariant (I := fun es s => (serverMachine t).Run s₁ es s ∧ EachWithPast (fun pre x =>
      (∀ r, x = .accepted .rdy r → ∃ r', ServerEvent.accepted .chk r' ∈ pre) ∧
        ∀ r, x = .accepted .done r → ∃ r', ServerEvent.accepted .rdy r' ∈ pre) es)
    ⟨.nil _, .nil⟩ ?_).2
  rintro es s a s' e ⟨hrun, hpast⟩ hstep
  have htrace := (onceInv_of_run h hstore hrun).1
  refine ⟨hrun.snoc hstep, ?_⟩
  rcases ServerState.step_events hstep with rfl | ⟨x, rfl⟩
  · simpa using hpast
  · refine hpast.snoc ⟨?_, ?_⟩
    all_goals
      rintro r rfl
      obtain ⟨-, hcommit, hid, -⟩ := ServerState.step_accepted hstep (List.mem_singleton_self _)
      have hpending := (handshakeInv_of_trace htrace).pending r (Or.inr hcommit)
    · exact mem_of_inOrder h hstore (k := 2) (hpending.1 hid) (by simp [handshake])
    · exact mem_of_inOrder h hstore (k := 4) (hpending.2 hid) (by simp [handshake])

/-- Each phase message takes effect at most once.

From the moment `SendMessage(NTF)` has stored its status, in every interleaving, `OnReceive`
accepts at most one CHK, at most one RDY and at most one DONE; it accepts RDY only behind CHK
and DONE only behind RDY; and a later copy of a message whose kind was accepted changes no
member but the address of the client. -/
theorem phase_messages_once (h : (serverMachine t).Trace es₀ s₀)
    (hstore : s₀.step t .driver = some (s₁, [.stored .ntf])) (hrun : (serverMachine t).Run s₁ es s) :
    (∀ kind, kind = .chk ∨ kind = .rdy ∨ kind = .done → es.countP (ServerEvent.accepts kind) ≤ 1) ∧
    (∀ pre r post, es = pre ++ .accepted .rdy r :: post → ∃ r', ServerEvent.accepted .chk r' ∈ pre) ∧
    (∀ pre r post, es = pre ++ .accepted .done r :: post → ∃ r', ServerEvent.accepted .rdy r' ∈ pre) ∧
    ∀ kind, kind = .chk ∨ kind = .rdy ∨ kind = .done → ∀ r', .accepted kind r' ∈ es → ∀ r : Received,
      r.id? = some kind → t.onReceive s.vars r = { s.vars with clientAddress := r.addr } := by
  obtain ⟨-, hinv⟩ := onceInv_of_run h hstore hrun
  have horder := reply_order h hstore hrun
  have hphase : ∀ kind, kind = .chk ∨ kind = .rdy ∨ kind = .done → ∃ phase : Phase, phase.reply = kind := by
    rintro kind (rfl | rfl | rfl)
    exacts [⟨.ntf, rfl⟩, ⟨.info, rfl⟩, ⟨.data, rfl⟩]
  refine ⟨fun kind hkind => ?_, fun pre r post heq => ?_, fun pre r post heq => ?_,
    fun kind hkind r' hmem r hid => ?_⟩
  · obtain ⟨phase, rfl⟩ := hphase kind hkind
    exact hinv.once phase
  · exact (horder pre _ post heq).1 r rfl
  · exact (horder pre _ post heq).2 r rfl
  · obtain ⟨phase, rfl⟩ := hphase kind hkind
    exact (hinv.spent phase ⟨r', hmem⟩).discards hid

end SinceStored

/-- In a transfer of one byte a second CHK changes nothing. -/
theorem phase_messages_once_oneByte :
    ∃ s₁ es s, oneByte.registeredState.step oneByte .driver = some (s₁, [.stored .ntf]) ∧
      (serverMachine oneByte).Run s₁ es s ∧ .accepted .chk (oneByte.reply .chk) ∈ es ∧
      oneByte.onReceive s.vars (oneByte.reply .chk) =
        { s.vars with clientAddress := (oneByte.reply .chk).addr } := by
  have hrun : ((serverMachine oneByte).exec { oneByte.registeredState.setStatus .ntf with driver := .sending .ntf }
      [.driver, .driver, .deliver (oneByte.reply .chk), .receiver, .receiver]).map
        (fun p => decide (.accepted .chk (oneByte.reply .chk) ∈ p.2)) = some true := by
    decide +kernel
  obtain ⟨⟨s, es⟩, hexec, hmem⟩ := Option.map_eq_some_iff.mp hrun
  have hrun := EventMachine.exec_run hexec
  have hmem := of_decide_eq_true hmem
  exact ⟨_, es, s, rfl, hrun, hmem,
    (phase_messages_once (.initial rfl) rfl hrun).2.2.2 .chk (Or.inl rfl) _ hmem _ (oneByte.reply_id? .chk)⟩

end Trftp
