import Trftp.Server.SendingInv
import Trftp.Server.Phases
import Trftp.Lib.History
import Trftp.Messages

/-!
# FIN is returned only after the whole handshake

The status is one variable that four parties overwrite, so its value alone says little.
What counts is the order of the events behind it: the driver reaches a phase only through
the requests and acceptances before it, a reply is accepted only while the request of its
phase is in the status, and DONE only when the sender's counter stands at the packet
count, with every packet transmitted.
-/

namespace Trftp

open Lib (EventMachine InOrder)

/-- `OnReceive` accepted an intact message of this kind. -/
def AcceptedIntact (id : MessageId) (e : ServerEvent) : Prop :=
  ∃ r, e = .accepted id r ∧ r.msg.intact r.len = true

/-- The events that precede the acceptance of DONE in a complete transfer. -/
def handshake : List (ServerEvent → Prop) :=
  [(· = .stored .ntf), AcceptedIntact .chk, (· = .stored .info), AcceptedIntact .rdy, (· = .stored .data)]

/-- How many of these events have happened once the request of the phase is stored. -/
def Phase.progress : Phase → ℕ
  | .ntf => 1
  | .info => 3
  | .data => 5

/-- A genuine DONE was accepted after the handshake, with the whole file transmitted before. -/
def Verified (t : ServerTransaction) (es : List ServerEvent) : Prop :=
  ∃ pre post r, es = pre ++ .accepted .done r :: post ∧ InOrder handshake pre ∧
    r.msg.intact r.len = true ∧ t.validateDone r.msg.done r.payloadLen = true ∧
    Covered pre t.totalPacketNumber.toNat

/-- The reply of a phase has been accepted; for the last phase this is the whole verification. -/
def Answered (t : ServerTransaction) (phase : Phase) (es : List ServerEvent) : Prop :=
  match phase with
  | .ntf => InOrder (handshake.take 2) es
  | .info => InOrder (handshake.take 4) es
  | .data => Verified t es

/-- What happened stays so as the trace grows. -/
theorem Verified.append {t : ServerTransaction} {es : List ServerEvent} (h : Verified t es)
    (es' : List ServerEvent) : Verified t (es ++ es') :=
  let ⟨pre, post, r, hes, hrest⟩ := h
  ⟨pre, post ++ es', r, by simp [hes], hrest⟩

@[inherit_doc Verified.append]
theorem Answered.append {t : ServerTransaction} {phase : Phase} {es : List ServerEvent}
    (h : Answered t phase es) (es' : List ServerEvent) : Answered t phase (es ++ es') := by
  cases phase with
  | ntf => exact InOrder.append h es'
  | info => exact InOrder.append h es'
  | data => exact Verified.append h es'

/-- The phase the driver is in, up to its decision. -/
def DriverPos.phase? : DriverPos → Option Phase
  | .sending phase | .sample phase | .waiting phase _ | .woken phase | .decide phase _ => some phase
  | .start | .finishing | .cancelling | .erase _ | .returned _ => none

/-- Behind the storing of FIN. -/
def DriverPos.succeeded : DriverPos → Bool
  | .finishing => true
  | .erase result | .returned result => result = .fin
  | _ => false

namespace ServerState

/-- What a message behind the phase check of `OnReceive` tells about the past. -/
def PendingOk (es : List ServerEvent) (r : Received) : Prop :=
  (r.id? = some .rdy → InOrder (handshake.take 3) es) ∧ (r.id? = some .done → InOrder handshake es)

/-- The handshake as far as the driver, the status and the message in `OnReceive` vouch for it. -/
structure HandshakeInv (t : ServerTransaction) (es : List ServerEvent) (s : ServerState) : Prop where
  started : s.driver ≠ .start → InOrder (handshake.take 1) es
  phase : ∀ p, s.driver.phase? = some p → InOrder (handshake.take p.progress) es
  reply : ∀ p : Phase, s.driver ≠ .start → s.vars.status = p.reply → Answered t p es
  decided : ∀ p : Phase, s.driver = .decide p (some p.reply) → Answered t p es
  pending : ∀ r, s.receiver = .psnCheck r ∨ s.receiver = .commit r → PendingOk es r
  succeeded : s.driver.succeeded = true → Verified t es

variable {t : ServerTransaction} {es e : List ServerEvent} {s s' : ServerState}

/-- What is known about a pending message stays known. -/
theorem PendingOk.append {r : Received} (h : PendingOk es r) (es' : List ServerEvent) :
    PendingOk (es ++ es') r :=
  ⟨fun hid => (h.1 hid).append es', fun hid => (h.2 hid).append es'⟩

/-- A step that moves neither the driver nor the receiver, and stores no reply, keeps the invariant. -/
theorem HandshakeInv.frame (hinv : HandshakeInv t es s) (hdriver : s'.driver = s.driver)
    (hstatus : s'.vars.status = s.vars.status ∨ ∀ p : Phase, s'.vars.status ≠ p.reply)
    (hreceiver : ∀ r, s'.receiver = .psnCheck r ∨ s'.receiver = .commit r →
      (s.receiver = .psnCheck r ∨ s.receiver = .commit r) ∨ PendingOk es r)
    (es' : List ServerEvent) : HandshakeInv t (es ++ es') s' where
  started h := (hinv.started (by rwa [hdriver] at h)).append es'
  phase p h := (hinv.phase p (by rwa [hdriver] at h)).append es'
  reply p h hs := by
    rw [hdriver] at h
    rcases hstatus with hkeep | hother
    · exact (hinv.reply p h (hkeep ▸ hs)).append es'
    · exact absurd hs (hother p)
  decided p h := (hinv.decided p (by rwa [hdriver] at h)).append es'
  pending r h := (hreceiver r h).elim (fun hr => (hinv.pending r hr).append es') fun hr => hr.append es'
  succeeded h := (hinv.succeeded (by rwa [hdriver] at h)).append es'

/-- Storing a request: the order of the past grows by it. -/
theorem HandshakeInv.enter (hinv : HandshakeInv t es s) (p : Phase)
    (hdriver : s'.driver = .sending p) (hstatus : s'.vars.status = p.request)
    (hreceiver : s'.receiver = s.receiver)
    (horder : InOrder (handshake.take p.progress) (es ++ [.stored p.request])) :
    HandshakeInv t (es ++ [.stored p.request]) s' where
  started _ := by
    obtain ⟨xs, hsub, hall⟩ := horder
    cases p <;> cases hall with
    | cons hx htail => exact ⟨[_], (List.singleton_sublist.mpr List.mem_cons_self).trans hsub, .cons hx .nil⟩
  phase p' h := by
    rw [hdriver] at h
    cases h
    exact horder
  reply p' _ hs := by
    rw [hstatus] at hs
    cases p <;> cases p' <;> cases hs
  decided p' h := by
    rw [hdriver] at h
    cases h
  pending r h := (hinv.pending r (by rwa [hreceiver] at h)).append _
  succeeded h := by
    rw [hdriver] at h
    cases h

/-- The driver moves on without storing a request. -/
theorem HandshakeInv.move (hinv : HandshakeInv t es s) (hstart : s.driver ≠ .start)
    (hstatus : s'.vars.status = s.vars.status ∨ ∀ p : Phase, s'.vars.status ≠ p.reply)
    (hreceiver : s'.receiver = s.receiver)
    (hphase : ∀ p, s'.driver.phase? = some p → s.driver.phase? = some p)
    (hdecided : ∀ p : Phase, s'.driver = .decide p (some p.reply) → Answered t p es)
    (hsucceeded : s'.driver.succeeded = true → Verified t es) (es' : List ServerEvent) :
    HandshakeInv t (es ++ es') s' where
  started _ := (hinv.started hstart).append es'
  phase p h := (hinv.phase p (hphase p h)).append es'
  reply p _ hs := by
    rcases hstatus with hkeep | hother
    · exact (hinv.reply p hstart (hkeep ▸ hs)).append es'
    · exact absurd hs (hother p)
  decided p h := (hdecided p h).append es'
  pending r h := (hinv.pending r (by rwa [hreceiver] at h)).append es'
  succeeded h := (hsucceeded h).append es'

/-- The decision to proceed rests on an accepted reply. -/
theorem status_of_proceed {phase : Phase} {status : Option MessageId}
    (h : phase.verdict status = .proceed) : status = some phase.reply := by
  unfold Phase.verdict at h
  split_ifs at h with _ _ hne
  exact not_not.mp hne

/-- Giving up never reports FIN. -/
theorem ne_fin_of_giveUp {phase : Phase} {status : Option MessageId} {result : MessageId}
    (h : phase.verdict status = .giveUp result) : result ≠ .fin := by
  unfold Phase.verdict at h
  split_ifs at h <;> cases h <;> simp

/-- The statements of `StartFileTransfer` keep the invariant. -/
theorem driverStep_handshakeInv (hinv : HandshakeInv t es s) (h : s.driverStep t = some (s', e)) :
    HandshakeInv t (es ++ e) s' := by
  cases hpos : s.driver <;> simp only [driverStep, hpos] at h
  case start =>
    cases h
    exact hinv.enter .ntf (by rfl) (by rfl) (by rfl) ((InOrder.nil es).snoc (by rfl))
  case sending p =>
    cases p <;> cases h
    all_goals
      exact hinv.move (by simp [hpos]) (Or.inl (by rfl)) (by rfl) (by simp [hpos, DriverPos.phase?])
        (by simp) (by simp [DriverPos.succeeded]) _
  case sample p =>
    cases h
    exact hinv.move (by simp [hpos]) (Or.inl (by rfl)) (by rfl) (by simp [hpos, DriverPos.phase?])
      (by simp) (by simp [DriverPos.succeeded]) _
  case waiting p oldStatus =>
    split at h <;> cases h
    exact hinv.move (by simp [hpos]) (Or.inl (by rfl)) (by rfl) (by simp [hpos, DriverPos.phase?])
      (by simp) (by simp [DriverPos.succeeded]) _
  case woken p =>
    cases h
    -- the status that the wait returns is the one in the variable, with its past
    refine hinv.move (by simp [hpos]) (Or.inl (by rfl)) (by rfl) (by simp [hpos, DriverPos.phase?])
      (fun p' hdecide => ?_) (by simp [DriverPos.succeeded]) _
    simp only [DriverPos.decide.injEq, Option.some.injEq] at hdecide
    obtain ⟨rfl, hstatus⟩ := hdecide
    exact hinv.reply p (by simp [hpos]) hstatus
  case decide p status =>
    split at h <;> cases h
    case _ result hverdict =>
      exact hinv.move (by simp [hpos]) (Or.inl (by rfl)) (by rfl) (by simp [DriverPos.phase?])
        (by simp) (by simp [DriverPos.succeeded, ne_fin_of_giveUp hverdict]) _
    case _ =>
      refine hinv.move (by simp [hpos]) (Or.inr fun p' => ?_) (by rfl) (by simp [DriverPos.phase?])
        (by simp) (by simp [DriverPos.succeeded]) _
      cases p' <;> simp [Phase.reply]
    case _ hverdict =>
      have hanswered : Answered t p es := hinv.decided p (by rw [hpos, status_of_proceed hverdict])
      cases p
      case ntf => exact hinv.enter .info (by rfl) (by rfl) (by rfl) (InOrder.snoc hanswered (by rfl))
      case info => exact hinv.enter .data (by rfl) (by rfl) (by rfl) (InOrder.snoc hanswered (by rfl))
      case data =>
        refine hinv.move (by simp [hpos]) (Or.inr fun p' => ?_) (by rfl)
          (by simp [Phase.nextPos, DriverPos.phase?]) (by simp [Phase.nextPos]) (fun _ => hanswered) _
        cases p' <;> simp [Phase.nextId, Phase.reply]
  case finishing =>
    cases h
    exact hinv.move (by simp [hpos]) (Or.inl (by rfl)) (by rfl) (by simp [DriverPos.phase?])
      (by simp) (fun _ => hinv.succeeded (by simp [hpos, DriverPos.succeeded])) _
  case cancelling =>
    cases h
    exact hinv.move (by simp [hpos]) (Or.inl (by rfl)) (by rfl) (by simp [DriverPos.phase?])
      (by simp) (by simp [DriverPos.succeeded]) _
  case erase result =>
    cases h
    refine hinv.move (by simp [hpos]) (Or.inl (by rfl)) (by rfl) (by simp [DriverPos.phase?])
      (by simp) (fun hfin => ?_) _
    exact hinv.succeeded (by rw [hpos]; exact hfin)
  case returned => contradiction

/-- A request in the status that is not the first one has its past. -/
theorem HandshakeInv.order_of_status (hinv : HandshakeInv t es s) (hphase : PhaseInv s) {p : Phase}
    (hs : s.vars.status = p.request) (hntf : p ≠ .ntf) : InOrder (handshake.take p.progress) es := by
  refine hinv.phase p ?_
  have hholds := hphase.request p hs
  cases hpos : s.driver <;> simp only [hpos, DriverPos.Holds] at hholds <;>
    first | exact absurd hholds hntf | exact absurd hholds.1 hntf | skip
  case sending | sample => rw [DriverPos.phase?, hholds]
  case waiting | decide => rw [DriverPos.phase?, hholds.1]

/-- `OnReceive` returns, possibly with a new status whose past is known. -/
theorem HandshakeInv.accept (hinv : HandshakeInv t es s) {vars : ServerVars} (es' : List ServerEvent)
    (hreply : ∀ p : Phase, s.driver ≠ .start → vars.status = p.reply → Answered t p (es ++ es')) :
    HandshakeInv t (es ++ es') (s.accept vars) where
  started h := (hinv.started h).append es'
  phase p h := (hinv.phase p h).append es'
  reply p h hs := hreply p h hs
  decided p h := (hinv.decided p h).append es'
  pending r h := by simp [ServerState.accept] at h
  succeeded h := (hinv.succeeded h).append es'

/-- The statements of `OnReceive` keep the invariant: a message passes its phase check only while the
request of its phase is in the status. -/
theorem receiverStep_handshakeInv (hinv : HandshakeInv t es s) (hphase : PhaseInv s)
    (hsend : SendingInv t es s) (h : s.receiverStep t = some (s', e)) : HandshakeInv t (es ++ e) s' := by
  have hreceiver := hsend.receiver
  unfold ReceiverOk at hreceiver
  cases hpos : s.receiver <;> simp only [receiverStep, hpos] at h hreceiver
  case idle => contradiction
  case phaseCheck r =>
    have hkeep (pos : ReceiverPos) (hok : PendingOk es r)
        (hr : pos = .idle ∨ pos = .psnCheck r ∨ pos = .commit r) :
        HandshakeInv t (es ++ []) { s with receiver := pos } := by
      refine hinv.frame (by rfl) (Or.inl (by rfl)) (fun r' hr' => Or.inr ?_) _
      rcases hr with rfl | rfl | rfl <;> simp only [reduceCtorEq, or_self, ReceiverPos.psnCheck.injEq,
        ReceiverPos.commit.injEq, or_false, false_or] at hr' <;> exact hr' ▸ hok
    have hother (hrdy : r.id? ≠ some .rdy) (hdone : r.id? ≠ some .done) : PendingOk es r :=
      ⟨fun hid => absurd hid hrdy, fun hid => absurd hid hdone⟩
    have hidle : HandshakeInv t (es ++ []) { s with receiver := .idle } :=
      hinv.frame (by rfl) (Or.inl (by rfl)) (by simp) _
    split at h
    case h_1 hid =>
      split at h <;> cases h
      · exact hkeep _ (hother (by simp [hid]) (by simp [hid])) (by simp)
      · exact hidle
    case h_2 hid =>
      split at h <;> cases h
      case isTrue hok =>
        refine hkeep _ ⟨fun _ => ?_, fun hdone => by simp [hid] at hdone⟩ (by simp)
        exact hinv.order_of_status hphase (p := .info) hok.1 (by simp)
      case isFalse => exact hidle
    case h_3 hid =>
      split at h <;> cases h
      case isTrue hdata =>
        refine hkeep _ ⟨fun hrdy => by simp [hid] at hrdy, fun _ => ?_⟩ (by simp)
        exact hinv.order_of_status (p := .data) hphase hdata (by simp)
      case isFalse => exact hidle
    case h_4 hid | h_5 hid =>
      split at h <;> cases h
      · exact hkeep _ (hother (by simp [hid]) (by simp [hid])) (by simp)
      · exact hidle
    case h_6 =>
      cases h
      exact hidle
  case psnCheck r =>
    have hok := hinv.pending r (Or.inl hpos)
    repeat' split at h
    all_goals
      cases h
      refine hinv.frame (by rfl) (Or.inl (by rfl)) (fun r' hr' => Or.inr ?_) _
      simp only [reduceCtorEq, or_self, ReceiverPos.commit.injEq, false_or] at hr'
    all_goals exact hr' ▸ hok
  case commit r =>
    have hok := hinv.pending r (Or.inr hpos)
    have hintact := hreceiver.1
    split at h <;> cases h
    case h_1 hid =>
      refine hinv.accept _ fun p hstart hs => ?_
      cases p <;> cases hs
      exact (hinv.started hstart).snoc ⟨r, rfl, hintact⟩
    case h_2 hid =>
      refine hinv.accept _ fun p hstart hs => ?_
      cases p <;> cases hs
      exact (hok.1 hid).snoc ⟨r, rfl, hintact⟩
    case h_3 hid =>
      refine hinv.accept _ fun p hstart hs => ?_
      cases p <;> cases hs
      obtain ⟨hpsn, hvalid⟩ := hreceiver.2.1 hid
      exact ⟨es, [], r, rfl, hok.2 hid, hintact, hvalid, hpsn ▸ hsend.sender.covered.2⟩
    case h_4 hid =>
      refine hinv.accept _ fun p hstart hs => ?_
      cases p <;> cases hs
    case h_5 hid =>
      exact hinv.accept _ fun p hstart hs => (hinv.reply p hstart hs).append _
    case h_6 =>
      exact hinv.accept _ fun p hstart hs => (hinv.reply p hstart hs).append _

/-- Every statement keeps the invariant. -/
theorem step_handshakeInv {a : ServerAction} (hinv : HandshakeInv t es s) (hphase : PhaseInv s)
    (hsend : SendingInv t es s) (h : s.step t a = some (s', e)) : HandshakeInv t (es ++ e) s' := by
  cases a with
  | driver => exact driverStep_handshakeInv hinv h
  | timeout =>
    simp only [step, timeoutStep] at h
    split at h
    case h_1 p oldStatus hpos =>
      split at h <;> cases h
      exact hinv.move (by simp [hpos]) (Or.inl (by rfl)) (by rfl) (by simp [hpos, DriverPos.phase?])
        (by simp) (by simp [DriverPos.succeeded]) _
    case h_2 => contradiction
  | sender fileOk =>
    have hframe := senderStep_frame h
    refine hinv.frame hframe.driver (hframe.status.imp_right fun hcxl p => ?_)
      (fun r hr => Or.inl (by rwa [hframe.receiver] at hr)) e
    rw [hcxl.2]
    cases p <;> simp [Phase.reply]
  | deliver r =>
    obtain ⟨-, rfl, rfl⟩ := deliverStep_eq h
    refine hinv.frame (by rfl) (Or.inl (by rfl)) (fun r' hr' => ?_) []
    simp only at hr'
    split_ifs at hr' <;> simp at hr'
  | receiver => exact receiverStep_handshakeInv hinv hphase hsend h
  | abort =>
    obtain ⟨-, rfl, rfl⟩ := abortStep_eq h
    refine hinv.frame (by rfl) (Or.inr fun p => ?_) (by exact fun r hr => Or.inl hr) _
    cases p <;> simp [Phase.reply]
  | abortSend =>
    obtain ⟨rfl, -⟩ := abortSendStep_eq h
    exact hinv.frame (by rfl) (Or.inl (by rfl)) (by exact fun r hr => Or.inl hr) _

end ServerState

/-- In every reachable state the handshake is on record. -/
theorem handshakeInv_of_trace {t : ServerTransaction} {es : List ServerEvent} {s : ServerState}
    (h : (serverMachine t).Trace es s) : ServerState.HandshakeInv t es s := by
  refine h.invariant ?_ fun htrace hinv hstep =>
    ServerState.step_handshakeInv hinv (phaseInv_of_trace htrace) (sendingInv_of_trace htrace) hstep
  rintro s rfl
  exact ⟨fun hstart => absurd rfl hstart, nofun, fun p hstart => absurd rfl hstart, nofun,
    fun r hr => hr.elim nofun nofun, nofun⟩

/-- `StartFileTransfer` returns FIN only after the full handshake.

Whatever datagrams arrive and however the parties interleave, in this order an intact CHK
was accepted after `SendMessage(NTF)` had stored its status, an intact RDY after
`SendMessage(INFO)` had, and an intact DONE after `SendMessage(DATA)` had. That DONE carried the
version, length and checksum of the transaction, and when it was accepted every packet
number below `total_packet_number_` had been transmitted. -/
theorem returned_fin_handshake {t : ServerTransaction} {es : List ServerEvent} {s : ServerState}
    (h : (serverMachine t).Trace es s) (hfin : s.driver = .returned .fin) :
    ∃ pre post r, es = pre ++ .accepted .done r :: post ∧
      InOrder [(· = .stored .ntf), AcceptedIntact .chk, (· = .stored .info), AcceptedIntact .rdy,
        (· = .stored .data)] pre ∧
      r.msg.intact r.len = true ∧
      r.msg.done = ⟨t.newFileVersion, t.newFileSize, t.newFileCrc32⟩ ∧
      ∀ q < t.totalPacketNumber.toNat, ∃ psn p, ServerEvent.transmitted psn p ∈ pre ∧ psn.toNat = q := by
  obtain ⟨pre, post, r, hes, horder, hintact, hvalid, hcov⟩ :=
    (handshakeInv_of_trace h).succeeded (by rw [hfin]; rfl)
  exact ⟨pre, post, r, hes, horder, hintact, ServerTransaction.eq_of_validateDone t hvalid, hcov⟩

/-- The statements of a complete transfer of one byte. -/
def oneByteSchedule : List ServerAction :=
  List.flatten
    [[.driver, .driver, .driver, .deliver (oneByte.reply .chk), .receiver, .receiver, .driver, .driver],
      [.driver, .driver, .driver, .deliver (oneByte.reply .rdy), .receiver, .receiver, .driver, .driver],
      [.driver, .driver, .driver], List.replicate 10 (.sender true),
      [.deliver (oneByte.reply .done), .receiver, .receiver, .receiver, .driver, .driver],
      [.driver, .driver, .driver]]

/-- The run of one byte returns FIN, with the handshake before it. -/
theorem returned_fin_handshake_oneByte :
    ∃ s es, (serverMachine oneByte).exec oneByte.registeredState oneByteSchedule = some (s, es) ∧
      s.driver = .returned .fin ∧
      ∃ pre post r, es = pre ++ .accepted .done r :: post ∧
        InOrder [(· = .stored .ntf), AcceptedIntact .chk, (· = .stored .info), AcceptedIntact .rdy,
          (· = .stored .data)] pre ∧
        r.msg.intact r.len = true ∧
        r.msg.done = ⟨oneByte.newFileVersion, oneByte.newFileSize, oneByte.newFileCrc32⟩ ∧
        ∀ q < oneByte.totalPacketNumber.toNat,
          ∃ psn p, ServerEvent.transmitted psn p ∈ pre ∧ psn.toNat = q := by
  have hrun : ((serverMachine oneByte).exec oneByte.registeredState oneByteSchedule).map (·.1.driver) =
      some (.returned .fin) := by decide +kernel
  obtain ⟨⟨s, es⟩, hexec, hfin⟩ := Option.map_eq_some_iff.mp hrun
  have htrace : (serverMachine oneByte).Trace es s := EventMachine.exec_trace rfl hexec
  exact ⟨s, es, hexec, hfin, returned_fin_handshake htrace hfin⟩

end Trftp
