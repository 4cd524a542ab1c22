import Trftp.Server.Sending

/-!
# The invariant of the sender loop holds in every run

One lemma for each party shows that its statements keep `SendingInv`; the last theorem
puts them together for traces of any length.
-/

namespace Trftp

namespace ServerState

variable {t : ServerTransaction} {es e : List ServerEvent} {s s' : ServerState}

/-- The statements of the sender thread keep its own facts. -/
theorem senderStep_senderOk {fileOk : Bool} (hinv : SenderOk t es s) (hslot : SlotOk t es s)
    (h : s.senderStep t fileOk = some (s', e)) : SenderOk t (es ++ e) s' := by
  unfold SenderOk at hinv
  cases hpos : s.sender <;> simp only [senderStep, hpos] at h hinv
  case notStarted | stopped | finished => contradiction
  case opening =>
    cases h
    cases fileOk
    · exact Or.inl hinv
    · exact hinv
  case init =>
    cases h
    exact ⟨by simp [psn], fun q hq => by simp [psn] at hq⟩
  case loopTest =>
    split at h <;> cases h
    case isTrue hlt => exact ⟨UInt32.lt_iff_toNat_lt.mp hlt, hinv.2.append _⟩
    case isFalse hge =>
      -- the counter never passed the packet count, so leaving the loop means having reached it
      refine ⟨Nat.le_antisymm hinv.1 ?_, hinv.2.append _⟩
      exact Nat.le_of_not_lt fun hlt => hge (UInt32.lt_iff_toNat_lt.mpr hlt)
  case cxlCheck =>
    split at h <;> cases h
    · exact Or.inr ⟨hinv.1, hinv.2.append _⟩
    · exact ⟨hinv.1, hinv.2.append _⟩
  case rtxCheck =>
    split at h <;> cases h <;> simpa [SenderOk, psn] using hinv
  case rtxTake =>
    cases h
    obtain ⟨hrange, hcov, -⟩ := hslot.1 (hslot.2 (Or.inl hpos))
    have hlt : s.vars.retransmitPsn.toNat < t.totalPacketNumber.toNat :=
      hrange.resolve_right fun heq => by omega
    simpa [SenderOk, psn] using ⟨hinv.1, hinv.2, hlt, hcov⟩
  case rtxStore v =>
    cases h
    simpa [SenderOk, psn] using hinv.2.2
  case send =>
    split at h <;> cases h
    · exact ⟨hinv.1, hinv.2.succ _⟩
    · simpa [SenderOk, psn] using Or.inr hinv
  case eofTest =>
    split at h <;> cases h
    case isTrue heq =>
      have hlast : s.psn + 1 = t.totalPacketNumber.toNat := (Lib.eq_pred_iff (by omega)).mp heq
      simpa [SenderOk, psn] using And.intro hlast hinv.2
    case isFalse hne => simpa [SenderOk, psn] using hinv
  case eofCheck =>
    split at h <;> cases h
    · simpa [SenderOk, psn] using hinv
    · have hlt : s.psn < t.totalPacketNumber.toNat := by omega
      simpa [SenderOk, psn] using And.intro hlt hinv.2
  case eofTake =>
    cases h
    obtain ⟨hrange, -⟩ := hslot.1 (hslot.2 (Or.inr hpos))
    have hlt : s.vars.retransmitPsn.toNat < t.totalPacketNumber.toNat :=
      hrange.resolve_right fun heq => by omega
    simpa [SenderOk, psn] using ⟨hinv.1, hinv.2, hlt⟩
  case eofStore v =>
    cases h
    refine ⟨hinv.2.2, ?_⟩
    have hcov := hinv.2.1
    rw [hinv.1] at hcov
    simpa [psn] using hcov.mono (Nat.succ_le_of_lt hinv.2.2)
  case increment =>
    cases h
    have hsucc := Lib.toNat_succ_of_lt hinv.1
    simp only [SenderOk, psn, setPsn_psn, hsucc, List.append_nil]
    exact ⟨hinv.1, hinv.2⟩
  case failing =>
    cases h
    exact hinv.imp_right fun h => ⟨h.1, h.2.append _⟩
  case cancelling =>
    cases h
    exact hinv.imp_right fun h => ⟨h.1, h.2.append _⟩

/-- Once the counter has reached the packet count the sender thread never moves it again. -/
theorem senderStep_stable {fileOk : Bool} (hinv : SenderOk t es s)
    (h : s.senderStep t fileOk = some (s', e)) (hpsn : s.psn = t.totalPacketNumber.toNat) :
    s'.psn = t.totalPacketNumber.toNat := by
  unfold SenderOk at hinv
  cases hpos : s.sender <;> simp only [senderStep, hpos] at h hinv
  case init =>
    cases h
    rw [← hpsn, hinv]
    simp [psn]
  case rtxStore v => omega
  case eofStore v => omega
  case increment => omega
  all_goals
    repeat' split at h
    all_goals cases h
    all_goals exact hpsn

/-- The statements of the sender thread keep the facts about the slot. -/
theorem senderStep_slotOk {fileOk : Bool} (hinv : SenderOk t es s) (hslot : SlotOk t es s)
    (h : s.senderStep t fileOk = some (s', e)) : SlotOk t (es ++ e) s' := by
  have hstable := senderStep_stable hinv h
  cases hpos : s.sender <;> simp only [senderStep, hpos] at h
  case notStarted | stopped | finished => contradiction
  case opening =>
    cases h
    refine hslot.step ?_ (Or.inr ?_) hstable _
    · rfl
    · cases fileOk <;> simp
  case rtxCheck | eofCheck =>
    -- the positions before an exchange are entered when the slot was found to be filled
    split at h <;> cases h
    case isTrue hfull => exact ⟨fun hne => (hslot.1 hne).step hstable _, fun _ => hfull⟩
    case isFalse => refine hslot.step ?_ (Or.inr ?_) hstable _ <;> simp
  case rtxTake | eofTake =>
    cases h
    exact ⟨fun hne => absurd rfl hne, fun hpos' => by simp at hpos'⟩
  all_goals
    repeat' split at h
    all_goals cases h
    all_goals refine hslot.step ?_ (Or.inr ?_) hstable _ <;> simp

/-- Parties that move neither the sender nor the counter and leave the slot and the message in
`OnReceive` alone keep the invariant. -/
theorem SendingInv.frame (hinv : SendingInv t es s) (hsender : s'.sender = s.sender)
    (hpsn : s'.vars.packetSequenceNumber = s.vars.packetSequenceNumber)
    (hslot : s'.vars.retransmitPsn = s.vars.retransmitPsn) (hreceiver : s'.receiver = s.receiver)
    (hdriver : s'.driver.beforeData = true → s.driver.beforeData = true) (es' : List ServerEvent) :
    SendingInv t (es ++ es') s' where
  sender := (hinv.sender.congr hsender hpsn).append es'
  slot := hinv.slot.step hslot (Or.inl hsender) (fun h => by rw [psn, hpsn]; exact h) es'
  receiver := hinv.receiver.step hreceiver (fun h => by rw [psn, hpsn]; exact h) es'
  fresh h := by rw [hsender]; exact hinv.fresh (hdriver h)

/-- `StartFileTransfer` keeps the invariant; it starts the sender thread at most once. -/
theorem driverStep_sendingInv (hinv : SendingInv t es s) (h : s.driverStep t = some (s', e)) :
    SendingInv t (es ++ e) s' := by
  have hframe := driverStep_frame h
  have hfresh := hinv.fresh
  cases hpos : s.driver <;> simp only [driverStep, hpos] at h
  case sending phase =>
    rw [hpos] at hfresh
    cases phase
    case data =>
      cases h
      have hsender := hinv.sender
      rw [SenderOk, hfresh rfl] at hsender
      exact ⟨hsender, hinv.slot.step (by rfl) (Or.inr (by simp)) (by exact id) _,
        hinv.receiver.step (by rfl) (by exact id) _, by simp [DriverPos.beforeData]⟩
    case ntf | info =>
      cases h
      exact hinv.frame (by rfl) (by rfl) (by rfl) (by rfl) (by simp [hpos, DriverPos.beforeData]) _
  case decide phase status =>
    split at h <;> cases h
    case _ => exact hinv.frame (by rfl) (by rfl) (by rfl) (by rfl) (by simp [DriverPos.beforeData]) _
    case _ => exact hinv.frame (by rfl) (by rfl) (by rfl) (by rfl) (by simp [DriverPos.beforeData]) _
    case _ =>
      refine hinv.frame (by rfl) (by rfl) (by rfl) (by rfl) ?_ _
      cases phase <;> simp [hpos, Phase.nextPos, DriverPos.beforeData]
  case waiting phase oldStatus =>
    split at h <;> cases h
    exact hinv.frame (by rfl) (by rfl) (by rfl) (by rfl) (by simp [hpos, DriverPos.beforeData]) _
  all_goals
    cases h
    try exact hinv.frame (by rfl) (by rfl) (by rfl) (by rfl) (by simp [hpos, DriverPos.beforeData]) _

/-- Entering `OnReceive` keeps the invariant. -/
theorem deliverStep_sendingInv {r : Received} (hinv : SendingInv t es s)
    (h : s.deliverStep r = some (s', e)) : SendingInv t (es ++ e) s' := by
  revert h
  fun_cases ServerState.deliverStep s r <;> intro h <;> cases h
  case case1 hintact =>
    exact ⟨hinv.sender.append _, hinv.slot.step (by rfl) (Or.inl (by rfl)) (by exact id) _, hintact,
      hinv.fresh⟩
  case case2 => exact hinv.frame (by rfl) (by rfl) (by rfl) (by rfl) (by exact id) _

/-- The statements of `OnReceive` keep the invariant: a request is stored only after it was compared
with the counter. -/
theorem receiverStep_sendingInv (hinv : SendingInv t es s) (h : s.receiverStep t = some (s', e)) :
    SendingInv t (es ++ e) s' := by
  have hframe := receiverStep_frame h
  have hsender : SenderOk t (es ++ e) s' := (hinv.sender.congr hframe.sender hframe.psn).append e
  have hfresh : s'.driver.beforeData = true → s'.sender = .notStarted := by
    rw [hframe.driver, hframe.sender]
    exact hinv.fresh
  have hreceiver := hinv.receiver
  unfold ReceiverOk at hreceiver
  have hslotKept (hkeep : s'.vars.retransmitPsn = s.vars.retransmitPsn) : SlotOk t (es ++ e) s' :=
    hinv.slot.step hkeep (Or.inl hframe.sender) (fun h => by rw [psn, hframe.psn]; exact h) e
  cases hpos : s.receiver <;> simp only [receiverStep, hpos] at h hreceiver
  case idle => contradiction
  case phaseCheck r =>
    have hpsnCheck : s' = { s with receiver := .psnCheck r } → SendingInv t (es ++ e) s' := by
      rintro rfl
      exact ⟨hsender, hslotKept rfl, hreceiver, hfresh⟩
    have hcommit : r.id? ≠ some .done → r.id? ≠ some .rtx → s' = { s with receiver := .commit r } →
        SendingInv t (es ++ e) s' := by
      rintro hdone hrtx rfl
      exact ⟨hsender, hslotKept rfl,
        ⟨hreceiver, fun hid => absurd hid hdone, fun hid => absurd hid hrtx⟩, hfresh⟩
    have hidle : s' = { s with receiver := .idle } → SendingInv t (es ++ e) s' := by
      rintro rfl
      exact ⟨hsender, hslotKept rfl, trivial, hfresh⟩
    split at h
    case h_1 hid | h_2 hid | h_4 hid =>
      split at h <;> cases h
      · exact hcommit (by simp [hid]) (by simp [hid]) rfl
      · exact hidle rfl
    case h_3 hid | h_5 hid =>
      split at h <;> cases h
      · exact hpsnCheck rfl
      · exact hidle rfl
    case h_6 =>
      cases h
      exact hidle rfl
  case psnCheck r =>
    have hidle : s' = { s with receiver := .idle } → SendingInv t (es ++ e) s' := by
      rintro rfl
      exact ⟨hsender, hslotKept rfl, trivial, hfresh⟩
    split at h
    case h_1 hid =>
      split at h <;> cases h
      case isTrue hok =>
        refine ⟨hsender, hslotKept rfl, ⟨hreceiver, fun _ => ⟨?_, hok.2⟩, ?_⟩, hfresh⟩
        · exact congrArg UInt32.toNat hok.1
        · intro hrtx
          simp [hid] at hrtx
      case isFalse => exact hidle rfl
    case h_2 hid =>
      split at h <;> cases h
      case isTrue hok =>
        refine ⟨hsender, hslotKept rfl, ⟨hreceiver, fun hdone => ?_, fun _ => ?_⟩, hfresh⟩
        · simp [hid] at hdone
        · exact hsender.requestable (ServerTransaction.le_of_validateRtx hok)
      case isFalse => exact hidle rfl
    case h_3 =>
      cases h
      exact hidle rfl
  case commit r =>
    split at h
    case h_5 hid =>
      cases h
      have hrequest := hreceiver.2.2 hid
      refine ⟨hsender, ⟨fun _ => hrequest.step id _, fun htake => ?_⟩, trivial, hfresh⟩
      -- an exchange that is already under way takes the new request, which is a packet number
      have hlt : s.psn < t.totalPacketNumber.toNat := hinv.sender.lt_of_take htake
      have hnumber := hrequest.1.resolve_right (by omega)
      exact t.ne_noRetransmit_of_le hnumber.le
    all_goals
      cases h
      exact ⟨hsender, hslotKept rfl, trivial, hfresh⟩

/-- Every statement keeps the invariant. -/
theorem step_sendingInv {a : ServerAction} (hinv : SendingInv t es s)
    (h : s.step t a = some (s', e)) : SendingInv t (es ++ e) s' := by
  cases a with
  | driver => exact driverStep_sendingInv hinv h
  | timeout =>
    obtain ⟨phase, hpos, rfl, rfl⟩ := timeoutStep_eq h
    exact hinv.frame (by rfl) (by rfl) (by rfl) (by rfl) (by simp [hpos, DriverPos.beforeData]) _
  | sender fileOk =>
    have hframe := senderStep_frame h
    refine ⟨senderStep_senderOk hinv.sender hinv.slot h, senderStep_slotOk hinv.sender hinv.slot h,
      hinv.receiver.step hframe.receiver (senderStep_stable hinv.sender h) e, fun hbefore => ?_⟩
    rw [hframe.driver] at hbefore
    simp only [step, senderStep, hinv.fresh hbefore] at h
    contradiction
  | deliver r => exact deliverStep_sendingInv hinv h
  | receiver => exact receiverStep_sendingInv hinv h
  | abort =>
    obtain ⟨-, rfl, rfl⟩ := abortStep_eq h
    exact hinv.frame (by rfl) (by rfl) (by rfl) (by rfl) (by exact id) _
  | abortSend =>
    obtain ⟨rfl, -⟩ := abortSendStep_eq h
    exact hinv.frame (by rfl) (by rfl) (by rfl) (by rfl) (by exact id) _

end ServerState

/-- The invariant of the sender loop holds in every reachable state. -/
theorem sendingInv_of_trace {t : ServerTransaction} {es : List ServerEvent} {s : ServerState}
    (h : (serverMachine t).Trace es s) : ServerState.SendingInv t es s := by
  refine h.invariant ?_ fun _ hinv hstep => ServerState.step_sendingInv hinv hstep
  rintro s rfl
  exact ⟨rfl, ⟨fun hne => absurd rfl hne, fun hpos => by simp [ServerTransaction.registeredState] at hpos⟩,
    trivial, fun _ => rfl⟩

end Trftp
