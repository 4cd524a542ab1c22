import Trftp.Server.AtMostOnce
import Trftp.Server.Handshake
import Trftp.Server.SendingInv
import Trftp.Server.Registry

/-!
# The sender thread is joined

`StartFileTransfer` holds the last reference to its transaction, and the destructor of
`ServerTransaction` joins the thread that `SendFileAsync` started. The loop of that thread
goes on until it sees a cancellation or reaches the packet count. When `StartFileTransfer`
returns, one of the two is the case: the status is CXL, or DONE was accepted, which takes a
counter that has reached the packet count. So the thread is about to end, and the join
does not wait for the rest of the file.
-/

namespace Trftp

open Lib (EventMachine)

/-- `thr_` is not joinable, or its thread has ended. -/
def SenderPos.over : SenderPos → Bool
  | .notStarted | .stopped | .finished => true
  | .opening | .init | .loopTest | .cxlCheck | .rtxCheck | .rtxTake | .rtxStore _ | .send | .eofTest | .eofCheck
  | .eofTake | .eofStore _ | .increment | .failing | .cancelling => false

/-- Statements of the sender thread that are left at most once it does not pass its cancellation check
any more. -/
def SenderPos.rank : SenderPos → ℕ
  | .rtxCheck => 11
  | .rtxTake => 10
  | .rtxStore _ => 9
  | .send => 8
  | .eofTest => 7
  | .eofCheck => 6
  | .eofTake => 5
  | .eofStore _ | .opening => 4
  | .init | .increment => 3
  | .loopTest | .failing => 2
  | .cxlCheck | .cancelling => 1
  | .notStarted | .stopped | .finished => 0

/-- The steps of the sender thread. -/
def ServerAction.ofSender : ServerAction → Bool
  | .sender _ => true
  | .driver | .timeout | .deliver _ | .receiver | .abort | .abortSend => false

/-- A packet of the file was sent. -/
def ServerEvent.isTransmission : ServerEvent → Bool
  | .transmitted _ _ => true
  | .stored _ | .sent _ _ | .sampled _ | .waited _ _ | .returned _ | .iteration | .checked | .finished
  | .accepted _ _ => false

namespace ServerState

variable {t : ServerTransaction} {s s' : ServerState} {es e : List ServerEvent}

/-! ## No late reply -/

/-- A phase that `StartFileTransfer` has left by its reply is spent, and all of them are before the sender
thread starts. -/
structure SpentInv (s : ServerState) : Prop where
  status : s.driver ≠ .start → ∀ p : Phase, s.vars.status = p.reply → Spent p s
  decided : ∀ p : Phase, s.driver = .decide p (some p.reply) → Spent p s
  passed : ∀ p q : Phase, s.driver.phase? = some q → p.progress < q.progress → Spent p s
  started : s.sender ≠ .notStarted → ∀ p : Phase, p ≠ .data → Spent p s

/-- `SendMessage` of the server stores no reply. -/
theorem ne_reply_of_stored {a : ServerAction} {id : MessageId} (h : s.step t a = some (s', e))
    (hmem : .stored id ∈ e) (p : Phase) : id ≠ p.reply := by
  have hreports := step_reports_mem h hmem
  have hcxl : id = .cxl → id ≠ p.reply := by
    rintro rfl
    cases p <;> simp [Phase.reply]
  cases a with
  | driver =>
    revert h
    simp only [step]
    fun_cases ServerState.driverStep t s <;> intro h <;> cases h <;>
      simp only [List.mem_singleton, List.not_mem_nil, reduceCtorEq, ServerEvent.stored.injEq] at hmem <;>
      subst hmem
    · cases p <;> simp [Phase.reply]
    · exact hcxl rfl
    · rename_i phase _ _ _
      cases phase <;> cases p <;> simp [Phase.reply, Phase.nextId]
  | sender | abort => exact hcxl (by simpa [ServerAction.reports] using hreports)
  | timeout | deliver | receiver | abortSend => contradiction

/-- Behind its first statement `StartFileTransfer` has stored its first request. -/
theorem remaining_le_of_ne_start (h : s.driver ≠ .start) :
    s.driver.remaining ≤ (DriverPos.sending .ntf).remaining := by
  cases hpos : s.driver with
  | start => exact absurd hpos h
  | sending phase | sample phase | waiting phase | woken phase | decide phase =>
    cases phase <;> simp [DriverPos.remaining, Phase.remaining]
  | finishing | cancelling | erase | returned => simp [DriverPos.remaining, Phase.remaining]

/-- A reply that is accepted behind the first request is spent. -/
theorem spent_of_accepted {a : ServerAction} {phase : Phase} {r : Received} (hpending : PendingBehind s)
    (hstart : s.driver ≠ .start) (h : s.step t a = some (s', e)) (hmem : .accepted phase.reply r ∈ e) :
    Spent phase s' := by
  obtain ⟨-, hcommit, hid, hidle, hstatus, -⟩ := step_accepted h hmem
  have hless := step_remaining h
  have hbehind : s.driver.remaining ≤ (DriverPos.sending phase).remaining := by
    rcases hpending phase r (Or.inr hcommit) hid with rfl | hbehind
    · exact remaining_le_of_ne_start hstart
    · exact hbehind
  refine ⟨by omega, ?_, fun r' hpos => ?_⟩
  · rw [hstatus (by cases phase <;> simp [Phase.reply])]
    exact (request_ne_reply phase phase).symm
  · rw [hidle] at hpos
    simp at hpos

/-- A reply in the status is spent. -/
theorem SpentInv.step_reply {a : ServerAction} (hinv : SpentInv s) (hpending : PendingBehind s)
    (h : s.step t a = some (s', e)) (hstart : s'.driver ≠ .start) {p : Phase}
    (hstatus : s'.vars.status = p.reply) : Spent p s' := by
  by_cases hfirst : s.driver = .start
  · -- the first statement stores NTF
    cases hdriver : a.ofDriver with
    | false => exact absurd ((driver_of_other hdriver h).trans hfirst) hstart
    | true =>
      cases a with
      | driver =>
        simp only [step, driverStep, hfirst] at h
        cases h
        cases p <;> cases hstatus
      | timeout =>
        simp only [step, timeoutStep, hfirst] at h
        contradiction
      | sender | deliver | receiver | abort | abortSend => contradiction
  · rcases step_status h with hkeep | hstored | ⟨r, haccepted, -⟩
    · exact (hinv.status hfirst p (hkeep ▸ hstatus)).step h
    · exact absurd hstatus (ne_reply_of_stored h (hstored ▸ List.mem_singleton_self _) p)
    · rw [hstatus] at haccepted
      exact spent_of_accepted hpending hfirst h (haccepted ▸ List.mem_singleton_self _)

/-- Whoever moves the driver is the driver. -/
theorem driver_eq_or_driverStep {a : ServerAction} (h : s.step t a = some (s', e)) :
    s'.driver = s.driver ∨ s.driverStep t = some (s', e) ∨ ∃ phase, s'.driver = .decide phase none ∧
      s.driver.phase? = some phase := by
  cases hdriver : a.ofDriver with
  | false => exact Or.inl (driver_of_other hdriver h)
  | true =>
    cases a with
    | driver => exact Or.inr (Or.inl h)
    | timeout =>
      obtain ⟨phase, hpos, rfl, -⟩ := timeoutStep_eq h
      exact Or.inr (Or.inr ⟨phase, rfl, by rw [hpos]; rfl⟩)
    | sender | deliver | receiver | abort | abortSend => contradiction

/-- `StartFileTransfer` decides on the status that it saw. -/
theorem driverStep_decide {phase : Phase} {status : Option MessageId} (h : s.driverStep t = some (s', e))
    (hpos : s'.driver = .decide phase status) : s.driver = .woken phase ∧ status = some s.vars.status := by
  revert h
  fun_cases ServerState.driverStep t s <;> intro h <;> cases h <;> simp only [reduceCtorEq, DriverPos.decide.injEq] at hpos
  case case7.refl =>
    obtain ⟨rfl, rfl⟩ := hpos
    exact ⟨‹_›, rfl⟩
  case case10.refl phase' _ _ _ => cases phase' <;> contradiction

/-- `StartFileTransfer` stays in its phase, or it enters the first one, or it proceeds from the one before. -/
theorem driverStep_phase {q : Phase} (h : s.driverStep t = some (s', e)) (hpos : s'.driver.phase? = some q) :
    s.driver.phase? = some q ∨ q = .ntf ∨
      ∃ p, s.driver = .decide p (some p.reply) ∧ q.progress = p.progress + 2 := by
  revert h
  fun_cases ServerState.driverStep t s <;> intro h <;> cases h <;>
    simp only [DriverPos.phase?, Option.some.injEq, reduceCtorEq] at hpos
  case case1.refl => exact Or.inr (Or.inl hpos.symm)
  case case10.refl phase status hdecide hproceed =>
    cases status_of_proceed hproceed
    refine Or.inr (Or.inr ⟨phase, hdecide, ?_⟩)
    cases phase <;> cases hpos <;> rfl
  all_goals
    subst hpos
    simp_all [DriverPos.phase?]

/-- The sender thread is started by `SendMessage(DATA)`. -/
theorem driver_of_started {a : ServerAction} (h : s.step t a = some (s', e)) (hbefore : s.sender = .notStarted)
    (hafter : s'.sender ≠ .notStarted) : s'.driver = .sample .data := by
  have hsame : s'.sender ≠ s.sender := fun hsame => hafter (hsame.trans hbefore)
  cases a with
  | driver =>
    rcases (driverStep_frame h).sender with hkeep | ⟨hpos, -⟩
    · exact absurd hkeep hsame
    · simp only [step, driverStep, hpos] at h
      cases h
      rfl
  | timeout =>
    rw [timeoutStep_frame h] at hsame
    exact absurd rfl hsame
  | sender fileOk =>
    simp only [step, senderStep, hbefore] at h
    contradiction
  | deliver r => exact absurd (deliverStep_frame h).1.sender hsame
  | receiver => exact absurd (receiverStep_frame h).sender hsame
  | abort =>
    rw [(abortStep_eq h).2.1] at hsame
    exact absurd rfl hsame
  | abortSend =>
    rw [(abortSendStep_eq h).1] at hsame
    exact absurd rfl hsame

/-- Every statement keeps what is spent. -/
theorem SpentInv.step {a : ServerAction} (hinv : SpentInv s) (hpending : PendingBehind s)
    (h : s.step t a = some (s', e)) : SpentInv s' := by
  have hpassed : ∀ p q : Phase, s'.driver.phase? = some q → p.progress < q.progress → Spent p s' := by
    intro p q hq hless
    have hold : s.driver.phase? = some q → Spent p s' := fun hq => (hinv.passed p q hq hless).step h
    rcases driver_eq_or_driverStep h with hsame | hdriver | ⟨phase, hdecide, hphase⟩
    · exact hold (hsame ▸ hq)
    · rcases driverStep_phase hdriver hq with hq | rfl | ⟨p', hdecided, hprogress⟩
      · exact hold hq
      · cases p <;> simp [Phase.progress] at hless
      · by_cases hp : p = p'
        · subst hp
          exact (hinv.decided p hdecided).step h
        · refine (hinv.passed p p' (by rw [hdecided]; rfl) ?_).step h
          cases p <;> cases p' <;> simp_all [Phase.progress]
    · rw [hdecide] at hq
      cases hq
      exact hold hphase
  refine ⟨fun hstart p hstatus => hinv.step_reply hpending h hstart hstatus, fun p hdecide => ?_, hpassed,
    fun hstarted p hp => ?_⟩
  · rcases driver_eq_or_driverStep h with hsame | hdriver | ⟨phase, hnone, -⟩
    · exact (hinv.decided p (hsame ▸ hdecide)).step h
    · obtain ⟨hwoken, hstatus⟩ := driverStep_decide hdriver hdecide
      refine (hinv.status (by rw [hwoken]; simp) p ?_).step h
      exact (Option.some.inj hstatus).symm
    · rw [hdecide] at hnone
      cases hnone
  · by_cases hbefore : s.sender = .notStarted
    · refine hpassed p .data (by rw [driver_of_started h hbefore hstarted]; rfl) ?_
      cases p <;> simp_all [Phase.progress]
    · exact (hinv.started hbefore p hp).step h

/-! ## Winding down -/

variable (t) in
/-- The sender thread is over or about to end: it is cancelled, or the counter has reached the packet
count. -/
def Winding (s : ServerState) : Prop :=
  s.sender.over = true ∨ s.vars.status = .cxl ∨ s.psn = t.totalPacketNumber.toNat

/-- The counter at the packet count stays there. -/
theorem step_stable {a : ServerAction} (hinv : SendingInv t es s) (h : s.step t a = some (s', e))
    (hpsn : s.psn = t.totalPacketNumber.toNat) : s'.psn = t.totalPacketNumber.toNat := by
  have hkeep : s'.vars.packetSequenceNumber = s.vars.packetSequenceNumber →
      s'.psn = t.totalPacketNumber.toNat := by
    intro hsame
    unfold psn at hpsn ⊢
    rw [hsame, hpsn]
  cases a with
  | driver => exact hkeep (driverStep_frame h).psn
  | timeout => exact hkeep (by rw [timeoutStep_frame h])
  | sender fileOk => exact senderStep_stable hinv.sender h hpsn
  | deliver r => exact hkeep (deliverStep_frame h).1.psn
  | receiver => exact hkeep (receiverStep_frame h).psn
  | abort => exact hkeep (by rw [(abortStep_eq h).2.1]; rfl)
  | abortSend => exact hkeep (by rw [(abortSendStep_eq h).1])

/-- DONE is accepted behind the last packet only. -/
theorem psn_of_accepted_done {a : ServerAction} {r : Received} (hinv : SendingInv t es s)
    (h : s.step t a = some (s', e)) (hmem : .accepted .done r ∈ e) : s'.psn = t.totalPacketNumber.toNat := by
  obtain ⟨-, hcommit, hid, -⟩ := step_accepted h hmem
  have hreceiver := hinv.receiver
  rw [ReceiverOk, hcommit] at hreceiver
  exact step_stable hinv h (hreceiver.2.1 hid).1

/-- `OnReceive` accepts messages of the client only. -/
theorem receiver_of_accepted {a : ServerAction} {id : MessageId} {r : Received} (h : s.step t a = some (s', e))
    (hmem : .accepted id r ∈ e) : a = .receiver ∧ id.Accepted := by
  have hreports := step_reports_mem h hmem
  cases a with
  | receiver =>
    rcases receiverStep_eq h with ⟨rfl, -⟩ | ⟨id', r', -, -, haccepted, rfl, -⟩
    · contradiction
    · cases List.mem_singleton.mp hmem
      exact ⟨rfl, haccepted⟩
  | driver | timeout | sender | deliver | abort | abortSend => contradiction

/-- The other parties do not take back that the sender thread is about to end. -/
theorem Winding.step_other {a : ServerAction} (hwinding : Winding t s) (hinv : SendingInv t es s)
    (hspent : SpentInv s) (h : s.step t a = some (s', e)) (hother : a.ofDriver = false) : Winding t s' := by
  rcases hwinding with hover | hcxl | hpsn
  · refine Or.inl ?_
    cases a with
    | driver | timeout => contradiction
    | sender fileOk =>
      simp only [step] at h
      cases hpos : s.sender <;> simp only [hpos, SenderPos.over, Bool.false_eq_true] at hover
      all_goals simp only [senderStep, hpos, reduceCtorEq] at h
    | deliver r => rw [(deliverStep_frame h).1.sender, hover]
    | receiver => rw [(receiverStep_frame h).sender, hover]
    | abort => rw [(abortStep_eq h).2.1]; exact hover
    | abortSend => rw [(abortSendStep_eq h).1]; exact hover
  · rcases step_status h with hkeep | hstored | ⟨r, haccepted, hrtx⟩
    · exact Or.inr (Or.inl (hkeep.trans hcxl))
    · refine Or.inr (Or.inl ?_)
      have hreports := step_reports_mem h (hstored ▸ List.mem_singleton_self _)
      cases a with
      | sender | abort => simpa [ServerAction.reports] using hreports
      | driver | timeout => contradiction
      | deliver | receiver | abortSend => contradiction
    · have hmem : .accepted s'.vars.status r ∈ e := haccepted ▸ List.mem_singleton_self _
      obtain ⟨-, hcommit, hid, -⟩ := step_accepted h hmem
      obtain ⟨rfl, hkind⟩ := receiver_of_accepted h hmem
      -- a reply of an earlier phase is accepted only before the thread starts
      have hearly : ∀ p : Phase, p ≠ .data → s'.vars.status = p.reply → Winding t s' := by
        intro p hp hreply
        have hfresh : s.sender = .notStarted := by
          by_contra hstarted
          exact (hspent.started hstarted p hp).pending r (Or.inr hcommit) (by rw [hid, hreply])
        refine Or.inl ?_
        rw [(receiverStep_frame h).sender, hfresh]
        rfl
      rcases hkind with hstatus | hstatus | hstatus | hstatus | hstatus
      · exact hearly .ntf (by simp) hstatus
      · exact hearly .info (by simp) hstatus
      · exact Or.inr (Or.inr (psn_of_accepted_done hinv h (hstatus ▸ hmem)))
      · exact Or.inr (Or.inl hstatus)
      · exact absurd hstatus hrtx
  · exact Or.inr (Or.inr (step_stable hinv h hpsn))

/-- The positions of `StartFileTransfer` behind which it never waits for the sender thread again. -/
def Leaving : DriverPos → Bool
  | .decide .data (some .cxl) | .decide .data (some .done) => true
  | .finishing | .cancelling | .erase _ | .returned _ => true
  | _ => false

/-- A status that makes `StartFileTransfer` leave is CXL or DONE. -/
theorem status_of_leaving {phase : Phase} {status : MessageId} (h : Leaving (.decide phase (some status)) = true) :
    status = .cxl ∨ status = .done := by
  cases phase <;> cases status <;> first | contradiction | exact Or.inl rfl | exact Or.inr rfl

/-- Behind the first phase only CXL makes `StartFileTransfer` give up without a message. -/
theorem cxl_of_giveUp {phase : Phase} {status : Option MessageId} {result : MessageId}
    (h : phase.verdict status = .giveUp result) (hphase : phase ≠ .ntf) : status = some .cxl := by
  unfold Phase.verdict at h
  split_ifs at h with hnone hcxl
  · exact absurd hnone.1 hphase
  · exact hcxl

variable (t) in
/-- When `StartFileTransfer` leaves, the sender thread is about to end; behind DONE it has sent it all. -/
structure LeavingInv (s : ServerState) : Prop where
  winding : Leaving s.driver = true → Winding t s
  done : s.vars.status = .done → s.psn = t.totalPacketNumber.toNat
  decided : s.driver = .decide .data (some .done) → s.psn = t.totalPacketNumber.toNat
  succeeded : s.driver.succeeded = true → s.psn = t.totalPacketNumber.toNat

/-- DONE in the status was accepted. -/
theorem LeavingInv.step_done {a : ServerAction} (hleaving : LeavingInv t s) (hinv : SendingInv t es s)
    (h : s.step t a = some (s', e)) (hstatus : s'.vars.status = .done) :
    s'.psn = t.totalPacketNumber.toNat := by
  rcases step_status h with hkeep | hstored | ⟨r, haccepted, -⟩
  · exact step_stable hinv h (hleaving.done (hkeep ▸ hstatus))
  · exact absurd hstatus (ne_reply_of_stored h (hstored ▸ List.mem_singleton_self _) .data)
  · rw [hstatus] at haccepted
    exact psn_of_accepted_done hinv h (haccepted ▸ List.mem_singleton_self _)

/-- A statement of `StartFileTransfer` keeps that. -/
theorem LeavingInv.driverStep (hleaving : LeavingInv t s) (hinv : SendingInv t es s)
    (h : s.driverStep t = some (s', e)) : LeavingInv t s' := by
  have hstep : s.step t .driver = some (s', e) := h
  have hdone := hleaving.step_done hinv hstep
  have hfresh : s.driver.beforeData = true → s.sender.over = true := by
    intro hbefore
    rw [hinv.fresh hbefore]
    rfl
  obtain ⟨hwinding, -, hdecided, hsucceeded⟩ := hleaving
  cases hpos : s.driver <;> simp only [ServerState.driverStep, hpos] at h hwinding hdecided hsucceeded
  case start | sample =>
    cases h
    exact ⟨by simp [Leaving], hdone, by simp, by simp [DriverPos.succeeded]⟩
  case sending phase =>
    cases phase <;> cases h <;> exact ⟨by simp [Leaving], hdone, by simp, by simp [DriverPos.succeeded]⟩
  case waiting phase oldStatus =>
    split at h <;> cases h
    exact ⟨by simp [Leaving], hdone, by simp, by simp [DriverPos.succeeded]⟩
  case woken phase =>
    cases h
    have hseen : s.vars.status = .done → s.psn = t.totalPacketNumber.toNat := hdone
    refine ⟨fun hleave => ?_, hdone, fun hdecide => ?_, by simp [DriverPos.succeeded]⟩
    · rcases status_of_leaving hleave with hcxl | hstatus
      · exact Or.inr (Or.inl hcxl)
      · exact Or.inr (Or.inr (hseen hstatus))
    · simp only [DriverPos.decide.injEq, Option.some.injEq] at hdecide
      exact hseen hdecide.2
  case decide phase status =>
    split at h <;> cases h
    case _ result hverdict =>
      refine ⟨fun _ => ?_, hdone, by simp, fun hsuccess => ?_⟩
      · cases phase with
        | ntf | info => exact Or.inl (hfresh (by rw [hpos]; rfl))
        | data =>
          cases cxl_of_giveUp hverdict (by simp)
          exact hwinding rfl
      · simp only [DriverPos.succeeded, decide_eq_true_eq] at hsuccess
        exact absurd hsuccess (ne_fin_of_giveUp hverdict)
    case _ => exact ⟨fun _ => Or.inr (Or.inl rfl), by simp, by simp, by simp [DriverPos.succeeded]⟩
    case _ hproceed =>
      cases status_of_proceed hproceed
      cases phase with
      | ntf | info =>
        exact ⟨by simp [Leaving, Phase.nextPos], hdone, by simp [Phase.nextPos],
          by simp [Phase.nextPos, DriverPos.succeeded]⟩
      | data =>
        have hpsn := hdecided rfl
        exact ⟨fun _ => Or.inr (Or.inr hpsn), fun _ => hpsn, fun _ => hpsn, fun _ => hpsn⟩
  case finishing =>
    cases h
    exact ⟨fun _ => hwinding rfl, hdone, by simp, fun _ => hsucceeded rfl⟩
  case cancelling =>
    cases h
    exact ⟨fun _ => hwinding rfl, hdone, by simp, by simp [DriverPos.succeeded]⟩
  case erase result =>
    cases h
    exact ⟨fun _ => hwinding rfl, hdone, by simp, hsucceeded⟩
  case returned => contradiction

/-- Every statement keeps that. -/
theorem LeavingInv.step {a : ServerAction} (hleaving : LeavingInv t s) (hinv : SendingInv t es s)
    (hspent : SpentInv s) (h : s.step t a = some (s', e)) : LeavingInv t s' := by
  have hdone := hleaving.step_done hinv h
  cases hparty : a.ofDriver with
  | false =>
    have hdriver := driver_of_other hparty h
    refine ⟨fun hleave => ?_, hdone, fun hdecide => ?_, fun hsuccess => ?_⟩
    · exact (hleaving.winding (hdriver ▸ hleave)).step_other hinv hspent h hparty
    · exact step_stable hinv h (hleaving.decided (hdriver ▸ hdecide))
    · exact step_stable hinv h (hleaving.succeeded (hdriver ▸ hsuccess))
  | true =>
    cases a with
    | driver => exact hleaving.driverStep hinv h
    | timeout =>
      obtain ⟨phase, -, rfl, -⟩ := timeoutStep_eq h
      exact ⟨by simp [Leaving], hdone, by simp, by simp [DriverPos.succeeded]⟩
    | sender | deliver | receiver | abort | abortSend => contradiction

end ServerState

/-- Both invariants hold in every reachable state. -/
theorem leavingInv_of_trace {t : ServerTransaction} {es : List ServerEvent} {s : ServerState}
    (h : (serverMachine t).Trace es s) : ServerState.SpentInv s ∧ ServerState.LeavingInv t s := by
  refine h.invariant (I := fun _ s => ServerState.SpentInv s ∧ ServerState.LeavingInv t s) ?_ ?_
  · rintro s rfl
    refine ⟨⟨fun hstart => absurd rfl hstart, fun p hdecide => ?_, fun p q hphase => ?_, fun hstarted => ?_⟩,
      ⟨fun hleave => ?_, fun hdone => ?_, fun hdecide => ?_, fun hsuccess => ?_⟩⟩
    · cases hdecide
    · cases hphase
    · exact absurd rfl hstarted
    · cases hleave
    · cases hdone
    · cases hdecide
    · cases hsuccess
  · rintro es s a s' e htrace ⟨hspent, hleaving⟩ hstep
    exact ⟨hspent.step (pendingBehind_of_trace htrace) hstep,
      hleaving.step (sendingInv_of_trace htrace) hspent hstep⟩

/-! ## The join -/

/-- Packets that the sender thread may still send. -/
def SenderPos.packets (pos : SenderPos) : ℕ := if 8 ≤ pos.rank then 1 else 0

namespace ServerState

variable {t : ServerTransaction} {s s' : ServerState} {es e : List ServerEvent}

/-- A sender thread that is about to end has less to do behind each of its statements. -/
theorem senderStep_rank {fileOk : Bool} (hinv : SenderOk t es s) (hwinding : Winding t s)
    (h : s.senderStep t fileOk = some (s', e)) :
    s'.sender.rank < s.sender.rank ∧
      e.countP ServerEvent.isTransmission + s'.sender.packets ≤ s.sender.packets := by
  unfold SenderOk at hinv
  cases hpos : s.sender <;> simp only [senderStep, hpos] at h hinv
  case notStarted | stopped | finished => contradiction
  case opening =>
    cases h
    cases fileOk <;> simp [SenderPos.rank, SenderPos.packets]
  case cxlCheck =>
    -- inside the loop the counter is below the packet count, so the thread is cancelled
    have hcxl : s.vars.status = .cxl := by
      rcases hwinding with hover | hcxl | hpsn
      · rw [hpos] at hover
        contradiction
      · exact hcxl
      · omega
    rw [if_pos hcxl] at h
    cases h
    simp [SenderPos.rank, SenderPos.packets, ServerEvent.isTransmission]
  all_goals
    repeat' split at h
    all_goals cases h
    all_goals simp [SenderPos.rank, SenderPos.packets, ServerEvent.isTransmission]

/-- Only the sender thread sends packets of the file. -/
theorem countP_transmission {a : ServerAction} (h : s.step t a = some (s', e)) (hother : a.ofSender = false) :
    e.countP ServerEvent.isTransmission = 0 := by
  rw [List.countP_eq_zero]
  intro x hx htransmission
  have hreports := step_reports_mem h hx
  cases x with
  | transmitted psn d =>
    cases a with
    | sender => contradiction
    | driver | timeout | deliver | receiver | abort | abortSend => simp [ServerAction.reports] at hreports
  | stored | sent | sampled | waited | returned | iteration | checked | finished | accepted =>
    simp [ServerEvent.isTransmission] at htransmission

/-- Whoever has returned stays there, and only the sender thread moves itself. -/
theorem step_returned {a : ServerAction} {result : MessageId} (h : s.step t a = some (s', e))
    (hreturned : s.driver = .returned result) :
    s'.driver = .returned result ∧ (a.ofSender = false → s'.sender = s.sender) := by
  cases a with
  | driver =>
    simp only [step, driverStep, hreturned] at h
    contradiction
  | timeout =>
    simp only [step, timeoutStep, hreturned] at h
    contradiction
  | sender fileOk => exact ⟨(driver_of_other rfl h).trans hreturned, fun hother => by contradiction⟩
  | deliver r => exact ⟨(driver_of_other rfl h).trans hreturned, fun _ => (deliverStep_frame h).1.sender⟩
  | receiver => exact ⟨(driver_of_other rfl h).trans hreturned, fun _ => (receiverStep_frame h).sender⟩
  | abort => exact ⟨(driver_of_other rfl h).trans hreturned, fun _ => by rw [(abortStep_eq h).2.1]; rfl⟩
  | abortSend => exact ⟨(driver_of_other rfl h).trans hreturned, fun _ => by rw [(abortSendStep_eq h).1]⟩

/-- Behind the return every step of the sender thread brings it nearer to its end. -/
theorem step_rank {a : ServerAction} {result : MessageId} (hinv : SendingInv t es s) (hwinding : Winding t s)
    (h : s.step t a = some (s', e)) (hreturned : s.driver = .returned result) :
    (if a.ofSender then 1 else 0) + s'.sender.rank ≤ s.sender.rank ∧
      e.countP ServerEvent.isTransmission + s'.sender.packets ≤ s.sender.packets := by
  cases hparty : a.ofSender with
  | false =>
    rw [(step_returned h hreturned).2 hparty, countP_transmission h hparty]
    simp
  | true =>
    cases a with
    | sender fileOk =>
      obtain ⟨hrank, hpackets⟩ := senderStep_rank hinv.sender hwinding h
      refine ⟨?_, hpackets⟩
      rw [if_pos rfl]
      omega
    | driver | timeout | deliver | receiver | abort | abortSend => contradiction

/-- A thread that is not over can go on. -/
theorem sender_enabled (hrunning : s.sender.over = false) (fileOk : Bool) :
    ∃ p, s.step t (.sender fileOk) = some p := by
  cases hpos : s.sender <;> rw [hpos] at hrunning
  case notStarted | stopped | finished => contradiction
  all_goals
    simp only [step, senderStep, hpos]
    repeat' split
    all_goals exact ⟨_, rfl⟩

/-- Behind the last packet no statement is left that sends one. -/
theorem packets_of_psn (hinv : SenderOk t es s) (hpsn : s.psn = t.totalPacketNumber.toNat) :
    s.sender.packets = 0 := by
  unfold SenderOk at hinv
  cases hpos : s.sender <;> simp only [hpos] at hinv
  case rtxCheck | rtxTake | rtxStore | send => omega
  all_goals rfl

end ServerState

/-- What is left to the sender thread behind the return of `StartFileTransfer`. -/
theorem exec_rank {t : ServerTransaction} {es es' : List ServerEvent} {s s' : ServerState}
    {as : List ServerAction} {result : MessageId} (htrace : (serverMachine t).Trace es s)
    (hreturned : s.driver = .returned result) (hexec : (serverMachine t).exec s as = some (s', es')) :
    as.countP ServerAction.ofSender + s'.sender.rank ≤ s.sender.rank ∧
      es'.countP ServerEvent.isTransmission + s'.sender.packets ≤ s.sender.packets := by
  induction as generalizing es s es' with
  | nil =>
    cases hexec
    simp
  | cons a as ih =>
    obtain ⟨⟨s₁, e₁⟩, hstep, hexec⟩ := Option.bind_eq_some_iff.mp hexec
    obtain ⟨⟨s₂, es₂⟩, hrest, hexec⟩ := Option.map_eq_some_iff.mp hexec
    cases hexec
    have hwinding := (leavingInv_of_trace htrace).2.winding (by rw [hreturned]; rfl)
    obtain ⟨hrank, hpackets⟩ := ServerState.step_rank (sendingInv_of_trace htrace) hwinding hstep hreturned
    obtain ⟨hrank₁, hpackets₁⟩ := ih (htrace.step hstep) (ServerState.step_returned hstep hreturned).1 hrest
    rw [List.countP_cons, List.countP_append]
    simp only at hrank₁ hpackets₁ ⊢
    omega

/-- The join in the destructor of a transaction returns: behind the return of `StartFileTransfer` the sender
thread has at most eleven statements to go and none of them blocks, and it sends at most one more packet
of the file; behind FIN it sends none. -/
theorem join_returns {t : ServerTransaction} {es es' : List ServerEvent} {s s' : ServerState}
    {as : List ServerAction} {result : MessageId} (htrace : (serverMachine t).Trace es s)
    (hreturned : s.driver = .returned result) (hexec : (serverMachine t).exec s as = some (s', es')) :
    as.countP ServerAction.ofSender ≤ 11 ∧ es'.countP ServerEvent.isTransmission ≤ 1 ∧
      (result = .fin → es'.countP ServerEvent.isTransmission = 0) ∧
      (s'.sender.over = true ∨ ∀ fileOk, ∃ p, s'.step t (.sender fileOk) = some p) := by
  obtain ⟨hrank, hpackets⟩ := exec_rank htrace hreturned hexec
  have hmost : s.sender.rank ≤ 11 ∧ s.sender.packets ≤ 1 := by
    cases s.sender <;> simp [SenderPos.rank, SenderPos.packets]
  refine ⟨by omega, by omega, fun hfin => ?_, ?_⟩
  · have hsuccess : s.driver.succeeded = true := by
      rw [hreturned, hfin]
      rfl
    have hpsn := (leavingInv_of_trace htrace).2.succeeded hsuccess
    have hnone := ServerState.packets_of_psn (sendingInv_of_trace htrace).sender hpsn
    omega
  · cases hover : s'.sender.over with
    | true => exact Or.inl rfl
    | false => exact Or.inr fun fileOk => ServerState.sender_enabled hover fileOk

/-- A transfer of one byte is aborted when the sender thread has just passed its cancellation check. -/
def joiningSchedule : List ServerAction :=
  List.flatten
    [[.driver, .driver, .driver, .deliver (oneByte.reply .chk), .receiver, .receiver, .driver, .driver],
      [.driver, .driver, .driver, .deliver (oneByte.reply .rdy), .receiver, .receiver, .driver, .driver],
      [.driver, .driver, .driver], List.replicate 4 (.sender true),
      [.abort, .driver, .driver, .driver, .driver]]

/-- The thread of the aborted transfer sends its packet and ends. -/
theorem join_returns_oneByte :
    ∃ s es s' es', (serverMachine oneByte).exec oneByte.registeredState joiningSchedule = some (s, es) ∧
      (serverMachine oneByte).exec s (List.replicate 6 (.sender true)) = some (s', es') ∧
      es'.countP ServerEvent.isTransmission ≤ 1 ∧ s'.sender = .finished := by
  have hrun : ((serverMachine oneByte).exec oneByte.registeredState joiningSchedule).map (·.1.driver) =
      some (.returned .cxl) := by decide +kernel
  have hrest : (((serverMachine oneByte).exec oneByte.registeredState joiningSchedule).bind fun p =>
      (serverMachine oneByte).exec p.1 (List.replicate 6 (.sender true))).map (·.1.sender) =
        some .finished := by decide +kernel
  obtain ⟨⟨s, es⟩, hexec, hreturned⟩ := Option.map_eq_some_iff.mp hrun
  rw [hexec, Option.bind_some] at hrest
  obtain ⟨⟨s', es'⟩, hexec', hfinished⟩ := Option.map_eq_some_iff.mp hrest
  have hjoin := join_returns (EventMachine.exec_trace rfl hexec) hreturned hexec'
  exact ⟨s, es, s', es', hexec, hexec', hjoin.2.1, hfinished⟩

end Trftp
