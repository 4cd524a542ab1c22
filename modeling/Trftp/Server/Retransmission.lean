import Trftp.Server.SendingInv
import Trftp.Messages
import Mathlib.Data.List.TakeWhile

/-!
# When a retransmission request is honoured

A request waits in one slot. The sender thread empties the slot in front of a transmission, and
that transmission is then the requested one; it empties it once more behind the last packet, and
there the increment of the loop skips the requested packet. A request that comes when the loop
is over, or whose iteration is already past the first check, can be lost or come too early.
-/

namespace Trftp

/-- The number of a transmitted packet. -/
def ServerEvent.number? : ServerEvent → Option UInt32
  | .transmitted psn _ => some psn
  | _ => none

/-- The first packet that is transmitted once the next iteration of the sender loop has started. -/
def nextTransmission (es : List ServerEvent) : Option UInt32 :=
  (es.dropWhile (· ≠ .iteration)).findSome? ServerEvent.number?

/-- Until an iteration has started there is no such packet. -/
theorem nextTransmission_append_of_notMem {es : List ServerEvent} (h : .iteration ∉ es)
    (e : List ServerEvent) : nextTransmission (es ++ e) = nextTransmission e := by
  rw [nextTransmission, nextTransmission, List.dropWhile_append_of_pos]
  intro x hx
  rw [decide_eq_true_eq]
  rintro rfl
  exact h hx

/-- Once an iteration has started, the next transmission is the one. -/
theorem nextTransmission_append_of_mem {es : List ServerEvent} (h : .iteration ∈ es)
    (e : List ServerEvent) :
    nextTransmission (es ++ e) = (nextTransmission es).or (e.findSome? ServerEvent.number?) := by
  have hne : (es.dropWhile (· ≠ .iteration)).isEmpty = false := by
    rw [← Bool.not_eq_true, List.isEmpty_iff, List.dropWhile_eq_nil_iff]
    exact fun hall => by simpa using hall _ h
  rw [nextTransmission, nextTransmission, List.dropWhile_append, hne, if_neg (by simp),
    List.findSome?_append]

/-- What has been transmitted by an iteration needs an iteration. -/
theorem mem_of_nextTransmission {es : List ServerEvent} {psn : UInt32} (h : nextTransmission es = some psn) :
    .iteration ∈ es ∧ ∃ packet, .transmitted psn packet ∈ es := by
  obtain ⟨x, hx, hnumber⟩ := List.exists_of_findSome?_eq_some h
  have hmem := (List.dropWhile_sublist _).subset hx
  refine ⟨?_, ?_⟩
  · by_contra hnone
    have hnil := nextTransmission_append_of_notMem hnone []
    rw [List.append_nil, h] at hnil
    cases hnil
  · cases x <;> cases hnumber
    exact ⟨_, hmem⟩

/-- Within an iteration, in front of its transmission. -/
def SenderPos.beforeTransmission : SenderPos → Bool
  | .cxlCheck | .rtxCheck | .rtxTake | .rtxStore _ | .send => true
  | .notStarted | .opening | .init | .loopTest | .eofTest | .eofCheck | .eofTake | .eofStore _ => false
  | .increment | .failing | .cancelling | .stopped | .finished => false

/-- The sender thread has found a CXL, or a file operation has failed. -/
def SenderPos.gaveUp : SenderPos → Bool
  | .failing | .cancelling | .stopped => true
  | _ => false

namespace ServerState

/-- The sender thread is at a position at which an accepted request for packet `p` is honoured. -/
def Honours (t : ServerTransaction) (s : ServerState) (p : UInt32) : Prop :=
  match s.sender with
  | .notStarted | .opening | .init => p < t.totalPacketNumber
  | .loopTest => s.vars.packetSequenceNumber < t.totalPacketNumber
  -- the iteration that has started transmits the requested packet, and the next one another
  | .cxlCheck | .rtxCheck | .rtxTake => p + 1 = t.totalPacketNumber
  | .rtxStore psn => psn + 1 ≠ t.totalPacketNumber ∨ psn = p
  | .send =>
    s.vars.packetSequenceNumber + 1 ≠ t.totalPacketNumber ∨ s.vars.packetSequenceNumber = p
  | .eofTest | .increment => s.vars.packetSequenceNumber + 1 ≠ t.totalPacketNumber
  -- the number is incremented as soon as it is stored
  | .eofCheck | .eofTake => False
  | .eofStore psn => psn + 1 ≠ t.totalPacketNumber
  | .failing | .cancelling | .stopped => True
  | .finished => False

/-- What an accepted request for packet `p` promises of the events since: the next iteration transmits
`p`, if the sender thread does not give up before it transmits, and the loop does not end without
a transmission of `p`. -/
structure RequestHonoured (p : UInt32) (es : List ServerEvent) (s : ServerState) : Prop where
  iteration : .iteration ∈ es → nextTransmission es = some p ∨
    (nextTransmission es = none ∧ (s.sender.beforeTransmission = true ∨ s.sender.gaveUp = true))
  finished : s.sender = .finished → ∃ packet, .transmitted p packet ∈ es

/-- The packet was transmitted since the request. -/
def Sent (p : UInt32) (es : List ServerEvent) : Prop := ∃ packet, ServerEvent.transmitted p packet ∈ es

/-- What holds before an iteration starts: the request is in the slot and will be taken by the next
iteration, or it is for the last packet and the current iteration transmits that packet. -/
def BeforeIteration (t : ServerTransaction) (p : UInt32) (es : List ServerEvent) (s : ServerState) : Prop :=
  match s.sender with
  | .notStarted | .opening | .init => s.vars.retransmitPsn = p ∧ p < t.totalPacketNumber
  | .loopTest =>
    (s.vars.retransmitPsn = p ∧ s.vars.packetSequenceNumber < t.totalPacketNumber) ∨
      (s.vars.packetSequenceNumber = t.totalPacketNumber ∧ Sent p es)
  | .cxlCheck | .rtxCheck | .rtxTake => s.vars.retransmitPsn = p ∧ p + 1 = t.totalPacketNumber
  | .rtxStore psn =>
    (s.vars.retransmitPsn = p ∧ psn + 1 ≠ t.totalPacketNumber) ∨
      (psn = p ∧ p + 1 = t.totalPacketNumber ∧
        (s.vars.retransmitPsn = noRetransmit ∨ s.vars.retransmitPsn = p))
  | .send =>
    (s.vars.retransmitPsn = p ∧ s.vars.packetSequenceNumber + 1 ≠ t.totalPacketNumber) ∨
      (s.vars.packetSequenceNumber = p ∧ p + 1 = t.totalPacketNumber ∧
        (s.vars.retransmitPsn = noRetransmit ∨ s.vars.retransmitPsn = p))
  | .eofTest =>
    (s.vars.retransmitPsn = p ∧ s.vars.packetSequenceNumber + 1 ≠ t.totalPacketNumber) ∨
      (s.vars.packetSequenceNumber = p ∧ p + 1 = t.totalPacketNumber ∧ Sent p es ∧
        (s.vars.retransmitPsn = noRetransmit ∨ s.vars.retransmitPsn = p))
  | .eofCheck =>
    s.vars.packetSequenceNumber = p ∧ p + 1 = t.totalPacketNumber ∧ Sent p es ∧
      (s.vars.retransmitPsn = noRetransmit ∨ s.vars.retransmitPsn = p)
  | .eofTake => s.vars.retransmitPsn = p ∧ p + 1 = t.totalPacketNumber ∧ Sent p es
  | .eofStore psn =>
    (s.vars.retransmitPsn = p ∧ psn + 1 ≠ t.totalPacketNumber) ∨
      (psn = p ∧ p + 1 = t.totalPacketNumber ∧ Sent p es)
  | .increment =>
    (s.vars.retransmitPsn = p ∧ s.vars.packetSequenceNumber + 1 ≠ t.totalPacketNumber) ∨
      (s.vars.packetSequenceNumber = p ∧ p + 1 = t.totalPacketNumber ∧ Sent p es)
  | .failing | .cancelling | .stopped => True
  | .finished => Sent p es

/-- What holds in the next iteration up to its transmission: the request is on its way to the counter. -/
def WithinIteration (p : UInt32) (s : ServerState) : Prop :=
  match s.sender with
  | .cxlCheck | .rtxCheck | .rtxTake => s.vars.retransmitPsn = p
  | .rtxStore psn => psn = p
  | .send => s.vars.packetSequenceNumber = p
  | .failing | .cancelling | .stopped => True
  | _ => False

/-- The way of an accepted request: before the next iteration, within it, and behind its transmission. -/
inductive RequestInv (t : ServerTransaction) (p : UInt32) (es : List ServerEvent) (s : ServerState) : Prop
  | before (hiteration : .iteration ∉ es) (h : BeforeIteration t p es s)
  | within (hiteration : .iteration ∈ es) (hnone : nextTransmission es = none) (h : WithinIteration p s)
  | behind (h : nextTransmission es = some p)

variable {t : ServerTransaction} {s s' : ServerState} {es₀ es e : List ServerEvent} {p : UInt32}

/-- An accepted request starts on its way. -/
theorem beforeIteration_of_honours (hpos : Honours t s p) (hslot : s.vars.retransmitPsn = p) :
    BeforeIteration t p [] s := by
  unfold Honours at hpos
  unfold BeforeIteration
  cases h : s.sender <;> simp only [h] at hpos ⊢
  case notStarted | opening | init | cxlCheck | rtxCheck | rtxTake => exact ⟨hslot, hpos⟩
  case loopTest | eofTest | increment | eofStore => exact Or.inl ⟨hslot, hpos⟩
  case rtxStore psn =>
    by_cases hlast : psn + 1 = t.totalPacketNumber
    · have heq := hpos.resolve_left (not_not.mpr hlast)
      exact Or.inr ⟨heq, heq ▸ hlast, Or.inr hslot⟩
    · exact Or.inl ⟨hslot, hlast⟩
  case send =>
    by_cases hlast : s.vars.packetSequenceNumber + 1 = t.totalPacketNumber
    · have heq := hpos.resolve_left (not_not.mpr hlast)
      exact Or.inr ⟨heq, heq ▸ hlast, Or.inr hslot⟩
    · exact Or.inl ⟨hslot, hlast⟩

/-- Transmissions are not undone. -/
theorem Sent.append (h : Sent p es) (e : List ServerEvent) : Sent p (es ++ e) :=
  h.imp fun _ hmem => List.mem_append_left e hmem

/-- A transmission is a transmission of its number. -/
theorem Sent.snoc (es : List ServerEvent) (psn : UInt32) (packet : Packet) :
    Sent psn (es ++ [.transmitted psn packet]) :=
  ⟨packet, List.mem_append_right es (List.mem_singleton_self _)⟩

/-- What holds before an iteration starts survives what the other parties do. -/
theorem BeforeIteration.append (h : BeforeIteration t p es s) (e : List ServerEvent) :
    BeforeIteration t p (es ++ e) s := by
  unfold BeforeIteration at h ⊢
  cases hpos : s.sender <;> simp only [hpos] at h ⊢
  case loopTest => exact h.imp_right fun h => ⟨h.1, h.2.append e⟩
  case eofTest => exact h.imp_right fun h => ⟨h.1, h.2.1, h.2.2.1.append e, h.2.2.2⟩
  case eofCheck => exact ⟨h.1, h.2.1, h.2.2.1.append e, h.2.2.2⟩
  case eofTake => exact ⟨h.1, h.2.1, h.2.2.append e⟩
  case eofStore | increment => exact h.imp_right fun h => ⟨h.1, h.2.1, h.2.2.append e⟩
  case finished => exact h.append e
  all_goals exact h

/-- Before an iteration starts, the sender thread keeps the request on its way. -/
theorem senderStep_before {fileOk : Bool} (hinv : SendingInv t es₀ s) (hp : p ≠ noRetransmit)
    (hnone : .iteration ∉ es) (hbefore : BeforeIteration t p es s)
    (h : s.senderStep t fileOk = some (s', e)) : RequestInv t p (es ++ e) s' := by
  have hsender := hinv.sender
  unfold SenderOk at hsender
  unfold BeforeIteration at hbefore
  have hnone' : .iteration ∉ es ++ [] := by rwa [List.append_nil]
  cases hpos : s.sender <;> simp only [senderStep, hpos] at h hbefore hsender
  case notStarted | stopped | finished => contradiction
  case opening =>
    cases h
    cases fileOk
    · exact .before hnone' trivial
    · exact .before hnone' hbefore
  case init =>
    cases h
    have hlt := UInt32.lt_iff_toNat_lt.mp hbefore.2
    refine .before hnone' (Or.inl ⟨hbefore.1, UInt32.lt_iff_toNat_lt.mpr ?_⟩)
    simp only [setPsn_psn, UInt32.toNat_zero]
    omega
  case loopTest =>
    split at h <;> cases h
    case isTrue hlt =>
      rcases hbefore with ⟨hslot, -⟩ | ⟨hend, -⟩
      · refine .within (by simp) ?_ hslot
        rw [nextTransmission_append_of_notMem hnone]
        rfl
      · rw [hend] at hlt
        exact absurd hlt (UInt32.lt_irrefl _)
    case isFalse hge =>
      rcases hbefore with ⟨-, hlt⟩ | ⟨-, hsent⟩
      · exact absurd hlt hge
      · exact .before (by simp [hnone]) (hsent.append _)
  case cxlCheck =>
    split at h <;> cases h
    · exact .before (by simp [hnone]) trivial
    · exact .before (by simp [hnone]) hbefore
  case rtxCheck =>
    split at h <;> cases h
    case isTrue => exact .before hnone' hbefore
    case isFalse hempty => exact absurd (hbefore.1.symm.trans (not_not.mp hempty)) hp
  case rtxTake =>
    cases h
    exact .before hnone' (Or.inr ⟨hbefore.1, hbefore.2, Or.inl rfl⟩)
  case rtxStore psn =>
    cases h
    exact .before hnone' hbefore
  case send =>
    split at h <;> cases h
    · refine .before (by simp [hnone]) (hbefore.imp_right fun hend => ?_)
      exact ⟨hend.1, hend.2.1, by rw [← hend.1]; exact Sent.snoc _ _ _, hend.2.2⟩
    · exact .before hnone' trivial
  case eofTest =>
    split at h <;> cases h
    case isTrue heq =>
      have hsucc : s.vars.packetSequenceNumber + 1 = t.totalPacketNumber := by
        rw [heq]
        exact UInt32.sub_add_cancel _ _
      obtain ⟨hnumber, hlast, hsent, hslot⟩ := hbefore.resolve_left fun hmiddle => hmiddle.2 hsucc
      exact .before hnone' ⟨hnumber, hlast, hsent.append _, hslot⟩
    case isFalse =>
      refine .before hnone' (hbefore.imp_right fun hend => ?_)
      exact ⟨hend.1, hend.2.1, hend.2.2.1.append _⟩
  case eofCheck =>
    obtain ⟨hnumber, hlast, hsent, hslot⟩ := hbefore
    split at h <;> cases h
    case isTrue hfull => exact .before hnone' ⟨hslot.resolve_left hfull, hlast, hsent.append _⟩
    case isFalse => exact .before hnone' (Or.inr ⟨hnumber, hlast, hsent.append _⟩)
  case eofTake =>
    cases h
    exact .before hnone' (Or.inr ⟨hbefore.1, hbefore.2.1, hbefore.2.2.append _⟩)
  case eofStore psn =>
    cases h
    exact .before hnone' (hbefore.imp_right fun hend => ⟨hend.1, hend.2.1, hend.2.2.append _⟩)
  case increment =>
    cases h
    refine .before hnone' ?_
    rcases hbefore with ⟨hslot, hmiddle⟩ | ⟨hnumber, hlast, hsent⟩
    · have hsucc := Lib.toNat_succ_of_lt hsender.1
      have hne : (s.vars.packetSequenceNumber + 1).toNat ≠ t.totalPacketNumber.toNat := fun heq =>
        hmiddle (UInt32.toNat_inj.mp heq)
      refine Or.inl ⟨hslot, UInt32.lt_iff_toNat_lt.mpr ?_⟩
      have hlt : s.vars.packetSequenceNumber.toNat < t.totalPacketNumber.toNat := hsender.1
      simp only [setPsn_psn]
      omega
    · exact Or.inr ⟨by rw [← hlast, ← hnumber]; rfl, hsent.append _⟩
  case failing | cancelling =>
    cases h
    exact .before (by simp [hnone]) trivial

/-- Within the next iteration, the sender thread takes the request to the transmission. -/
theorem senderStep_within {fileOk : Bool} (hp : p ≠ noRetransmit) (hmem : .iteration ∈ es)
    (hnone : nextTransmission es = none) (hwithin : WithinIteration p s)
    (h : s.senderStep t fileOk = some (s', e)) : RequestInv t p (es ++ e) s' := by
  have hkeep (hquiet : e.findSome? ServerEvent.number? = none) (hw : WithinIteration p s') :
      RequestInv t p (es ++ e) s' := by
    refine .within (List.mem_append_left _ hmem) ?_ hw
    rw [nextTransmission_append_of_mem hmem, hnone, hquiet]
    rfl
  unfold WithinIteration at hwithin
  cases hpos : s.sender <;> simp only [senderStep, hpos] at h hwithin
  case stopped => contradiction
  case cxlCheck =>
    split at h <;> cases h
    · exact hkeep rfl trivial
    · exact hkeep rfl hwithin
  case rtxCheck =>
    split at h <;> cases h
    case isTrue => exact hkeep rfl hwithin
    case isFalse hempty => exact absurd (hwithin.symm.trans (not_not.mp hempty)) hp
  case rtxTake =>
    cases h
    exact hkeep rfl hwithin
  case rtxStore psn =>
    cases h
    exact hkeep rfl hwithin
  case send =>
    split at h <;> cases h
    · refine .behind ?_
      rw [nextTransmission_append_of_mem hmem, hnone, hwithin]
      rfl
    · exact hkeep rfl trivial
  case failing | cancelling =>
    cases h
    exact hkeep rfl trivial

/-- A step that neither accepts a request nor belongs to the sender thread. -/
theorem RequestInv.frame (h : RequestInv t p es s) (hsender : s'.sender = s.sender)
    (hpsn : s'.vars.packetSequenceNumber = s.vars.packetSequenceNumber)
    (hslot : s'.vars.retransmitPsn = s.vars.retransmitPsn) (hquiet : ∀ x ∈ e, x.ofLoop = false) :
    RequestInv t p (es ++ e) s' := by
  have hnumber : e.findSome? ServerEvent.number? = none := by
    rw [List.findSome?_eq_none_iff]
    intro x hx
    cases x with
    | transmitted psn packet => exact absurd (hquiet _ hx) (by simp [ServerEvent.ofLoop])
    | _ => rfl
  have hiteration : .iteration ∉ e := fun hmem => absurd (hquiet _ hmem) (by simp [ServerEvent.ofLoop])
  cases h with
  | before hnone hbefore =>
    have hkeep := hbefore.append e
    refine .before (by simp [hnone, hiteration]) ?_
    unfold BeforeIteration at hkeep ⊢
    rw [hsender, hpsn, hslot]
    exact hkeep
  | within hmem hnone hwithin =>
    refine .within (List.mem_append_left _ hmem) ?_ ?_
    · rw [nextTransmission_append_of_mem hmem, hnone, hnumber]
      rfl
    · unfold WithinIteration at hwithin ⊢
      rw [hsender, hpsn, hslot]
      exact hwithin
  | behind hsent =>
    refine .behind ?_
    rw [nextTransmission_append_of_mem (mem_of_nextTransmission hsent).1, hsent]
    rfl

/-- The start of the sender thread leaves a request that is in the slot there. -/
theorem RequestInv.start (h : RequestInv t p es s) (hfresh : s.sender = .notStarted)
    (hsender : s'.sender = .opening) (hslot : s'.vars.retransmitPsn = s.vars.retransmitPsn) :
    RequestInv t p es s' := by
  cases h with
  | before hnone hbefore =>
    refine .before hnone ?_
    simp only [BeforeIteration, hfresh] at hbefore
    simpa only [BeforeIteration, hsender, hslot] using hbefore
  | within _ _ hwithin => simp [WithinIteration, hfresh] at hwithin
  | behind hsent => exact .behind hsent

/-- A statement of `OnReceive` that accepts no request leaves the slot alone. -/
theorem receiverStep_slot (h : s.receiverStep t = some (s', e)) (hquiet : ∀ r, .accepted .rtx r ∉ e) :
    s'.vars.retransmitPsn = s.vars.retransmitPsn := by
  rcases receiverStep_eq h with ⟨-, receiver, rfl, -⟩ | ⟨id, r, -, -, -, rfl, rfl⟩
  · rfl
  · apply ServerVars.accepted_retransmit
    rintro rfl
    exact hquiet r (List.mem_singleton_self _)

/-- Every statement keeps an accepted request on its way, unless it accepts another one. -/
theorem step_requestInv {a : ServerAction} (hinv : SendingInv t es₀ s) (hp : p ≠ noRetransmit)
    (hrequest : RequestInv t p es s) (h : s.step t a = some (s', e)) (hquiet : ∀ r, .accepted .rtx r ∉ e) :
    RequestInv t p (es ++ e) s' := by
  have hother (hne : ∀ fileOk, a ≠ .sender fileOk) : ∀ x ∈ e, x.ofLoop = false := by
    intro x hx
    rw [← Bool.not_eq_true]
    intro hloop
    obtain ⟨fileOk, heq⟩ := step_ofLoop h hx hloop
    exact hne fileOk heq
  cases a with
  | sender fileOk =>
    cases hrequest with
    | before hnone hbefore => exact senderStep_before hinv hp hnone hbefore h
    | within hmem hnone hwithin => exact senderStep_within hp hmem hnone hwithin h
    | behind hsent =>
      refine .behind ?_
      rw [nextTransmission_append_of_mem (mem_of_nextTransmission hsent).1, hsent]
      rfl
  | driver =>
    have hframe := driverStep_frame h
    rcases hframe.sender with hkeep | ⟨hpos, hopen⟩
    · exact hrequest.frame hkeep hframe.psn hframe.retransmit (hother (by simp))
    · have hfresh : s.sender = .notStarted := hinv.fresh (by simp [hpos, DriverPos.beforeData])
      have hnil : e = [] := by
        simp only [step, driverStep, hpos] at h
        cases h
        rfl
      rw [hnil, List.append_nil]
      exact hrequest.start hfresh hopen hframe.retransmit
  | timeout =>
    rw [timeoutStep_frame h]
    exact hrequest.frame (by rfl) (by rfl) (by rfl) (hother (by simp))
  | deliver r =>
    obtain ⟨hframe, -, hslot⟩ := deliverStep_frame h
    exact hrequest.frame hframe.sender hframe.psn hslot (hother (by simp))
  | receiver =>
    have hframe := receiverStep_frame h
    exact hrequest.frame hframe.sender hframe.psn (receiverStep_slot h hquiet) (hother (by simp))
  | abort =>
    have hloop := hother (by simp)
    obtain ⟨-, rfl, -⟩ := abortStep_eq h
    exact hrequest.frame (by rfl) (by rfl) (by rfl) hloop
  | abortSend =>
    have hloop := hother (by simp)
    obtain ⟨rfl, -⟩ := abortSendStep_eq h
    exact hrequest.frame (by rfl) (by rfl) (by rfl) hloop

/-- A request on its way is honoured. -/
theorem RequestInv.honoured (h : RequestInv t p es s) : RequestHonoured p es s := by
  cases h with
  | before hnone hbefore =>
    refine ⟨fun hmem => absurd hmem hnone, fun hfinished => ?_⟩
    rw [BeforeIteration, hfinished] at hbefore
    exact hbefore
  | within hmem hnone hwithin =>
    unfold WithinIteration at hwithin
    refine ⟨fun _ => Or.inr ⟨hnone, ?_⟩, fun hfinished => ?_⟩
    · cases hpos : s.sender <;> simp [hpos] at hwithin <;>
        simp [SenderPos.beforeTransmission, SenderPos.gaveUp]
    · simp [hfinished] at hwithin
  | behind hsent => exact ⟨fun _ => Or.inl hsent, fun _ => (mem_of_nextTransmission hsent).2⟩

/-- The acceptance of a request puts its number, which is not the empty slot's, into the slot. -/
theorem receiverStep_request {r : Received} (hinv : SendingInv t es s)
    (h : s.step t .receiver = some (s', [.accepted .rtx r])) :
    s'.sender = s.sender ∧ s'.vars.packetSequenceNumber = s.vars.packetSequenceNumber ∧
      s'.vars.retransmitPsn = r.msg.rtx.retransmitPsn ∧ r.msg.rtx.retransmitPsn ≠ noRetransmit := by
  have hframe := receiverStep_frame h
  have hreceiver := hinv.receiver
  refine ⟨hframe.sender, hframe.psn, ?_⟩
  rcases receiverStep_eq h with ⟨hnone, -⟩ | ⟨id, r', hpos, hid, -, hevent, rfl⟩
  · contradiction
  · cases hevent
    rw [ReceiverOk, hpos] at hreceiver
    exact ⟨rfl, t.ne_noRetransmit_of_le (hreceiver.2.2 hid).2.2⟩

/-- In every continuation without another request, a request that is accepted at one of the positions
is honoured. -/
theorem run_honoured {r : Received} {s'' : ServerState} (h : (serverMachine t).Trace es₀ s)
    (haccept : s.step t .receiver = some (s', [.accepted .rtx r]))
    (hpos : Honours t s r.msg.rtx.retransmitPsn) (hrun : (serverMachine t).Run s' es s'')
    (hquiet : ∀ r', .accepted .rtx r' ∉ es) :
    RequestHonoured r.msg.rtx.retransmitPsn es s'' := by
  have hinv := sendingInv_of_trace h
  obtain ⟨hsender, hpsn, hslot, hp⟩ := receiverStep_request hinv haccept
  have hpos' : Honours t s' r.msg.rtx.retransmitPsn := by
    unfold Honours at hpos ⊢
    rwa [hsender, hpsn]
  have hstart : RequestInv t r.msg.rtx.retransmitPsn [] s' :=
    .before (by simp) (beforeIteration_of_honours hpos' hslot)
  have hstep : (serverMachine t).step s .receiver = some (s', [.accepted .rtx r]) := haccept
  have htrace := h.step hstep
  have hway : (∀ r', .accepted .rtx r' ∉ es) →
      RequestInv t r.msg.rtx.retransmitPsn es s'' ∧
        SendingInv t (es₀ ++ [.accepted .rtx r] ++ es) s'' := by
    refine hrun.invariant (I := fun es s => (∀ r', .accepted .rtx r' ∉ es) →
      RequestInv t r.msg.rtx.retransmitPsn es s ∧
        SendingInv t (es₀ ++ [.accepted .rtx r] ++ es) s) ?_ ?_
    · exact fun _ => ⟨hstart, by simpa using sendingInv_of_trace htrace⟩
    · intro es s a s' e hkept hstep hall
      obtain ⟨hrequest, hsending⟩ := hkept fun r' hmem => hall r' (List.mem_append_left e hmem)
      refine ⟨step_requestInv hsending hp hrequest hstep
        fun r' hmem => hall r' (List.mem_append_right es hmem), ?_⟩
      rw [← List.append_assoc]
      exact step_sendingInv hsending hstep
  exact (hway hquiet).1.honoured

end ServerState

end Trftp
