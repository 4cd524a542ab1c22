import Trftp.Server.Frame
import Trftp.Lib.Counter

/-!
# The sender loop covers the file

The loop counter moves forward by increments and backward at two places, to numbers that
came from the network. The invariant is a high-water mark: every packet below the counter
has been transmitted, and so has every packet below a requested one, because a request is
accepted only up to the counter of that moment. A request is below the packet count
unless the loop is over, so the counter stays below it at every transmission.
-/

namespace Trftp

/-- Packet `q` has been transmitted. -/
def Transmitted (es : List ServerEvent) (q : ℕ) : Prop :=
  ∃ psn p, ServerEvent.transmitted psn p ∈ es ∧ psn.toNat = q

/-- Every packet below `n` has been transmitted. -/
def Covered (es : List ServerEvent) (n : ℕ) : Prop := ∀ q < n, Transmitted es q

/-- Transmissions are not undone. -/
theorem Covered.append {es : List ServerEvent} {n : ℕ} (h : Covered es n) (es' : List ServerEvent) :
    Covered (es ++ es') n := fun q hq =>
  let ⟨psn, p, hmem, heq⟩ := h q hq
  ⟨psn, p, List.mem_append_left es' hmem, heq⟩

/-- Fewer packets are covered as well. -/
theorem Covered.mono {es : List ServerEvent} {n m : ℕ} (h : Covered es n) (hle : m ≤ n) : Covered es m :=
  fun q hq => h q (by omega)

/-- Transmitting the next packet raises the mark by one. -/
theorem Covered.succ {es : List ServerEvent} {psn : UInt32} (h : Covered es psn.toNat) (p : Packet) :
    Covered (es ++ [.transmitted psn p]) (psn.toNat + 1) := by
  intro q hq
  rcases Nat.lt_succ_iff_lt_or_eq.mp hq with hlt | rfl
  · exact (h.append _) q hlt
  · exact ⟨psn, p, by simp, rfl⟩

/-- The sender thread does not exist before `SendMessage(DATA)` has started it. -/
def DriverPos.beforeData : DriverPos → Bool
  | .start | .sending _ => true
  | .sample phase | .waiting phase _ | .woken phase | .decide phase _ => phase ≠ .data
  | .finishing | .cancelling | .erase _ | .returned _ => false

namespace ServerState

variable (t : ServerTransaction)

/-- `packet_sequence_number_`, as a number. -/
def psn (s : ServerState) : ℕ := s.vars.packetSequenceNumber.toNat

/-- A packet number that may stand in the slot: covered below, and in range unless the loop is over. -/
def Requestable (es : List ServerEvent) (s : ServerState) (p : UInt32) : Prop :=
  (p.toNat < t.totalPacketNumber.toNat ∨ s.psn = t.totalPacketNumber.toNat) ∧ Covered es p.toNat ∧
    p.toNat ≤ t.totalPacketNumber.toNat

/-- What holds at each position of the sender thread. -/
def SenderOk (es : List ServerEvent) (s : ServerState) : Prop :=
  match s.sender with
  | .notStarted | .opening | .init => s.psn = 0
  | .loopTest => s.psn ≤ t.totalPacketNumber.toNat ∧ Covered es s.psn
  | .cxlCheck | .rtxCheck | .rtxTake | .send => s.psn < t.totalPacketNumber.toNat ∧ Covered es s.psn
  | .rtxStore v =>
    s.psn < t.totalPacketNumber.toNat ∧ Covered es s.psn ∧
      v.toNat < t.totalPacketNumber.toNat ∧ Covered es v.toNat
  | .eofTest | .increment => s.psn < t.totalPacketNumber.toNat ∧ Covered es (s.psn + 1)
  | .eofCheck | .eofTake => s.psn + 1 = t.totalPacketNumber.toNat ∧ Covered es (s.psn + 1)
  | .eofStore v =>
    s.psn + 1 = t.totalPacketNumber.toNat ∧ Covered es (s.psn + 1) ∧
      v.toNat < t.totalPacketNumber.toNat
  | .failing | .cancelling | .stopped => s.psn = 0 ∨ (s.psn < t.totalPacketNumber.toNat ∧ Covered es s.psn)
  | .finished => s.psn = t.totalPacketNumber.toNat ∧ Covered es s.psn

/-- The slot holds a requestable number wherever it is about to be read. -/
def SlotOk (es : List ServerEvent) (s : ServerState) : Prop :=
  (s.vars.retransmitPsn ≠ noRetransmit → Requestable t es s s.vars.retransmitPsn) ∧
    (s.sender = .rtxTake ∨ s.sender = .eofTake → s.vars.retransmitPsn ≠ noRetransmit)

/-- The message in `OnReceive` is intact, and once it passed the checks it satisfies them for good. -/
def ReceiverOk (es : List ServerEvent) (s : ServerState) : Prop :=
  match s.receiver with
  | .idle => True
  | .phaseCheck r => r.msg.intact r.len = true
  | .psnCheck r => r.msg.intact r.len = true
  | .commit r =>
    r.msg.intact r.len = true ∧
      (r.id? = some .done → s.psn = t.totalPacketNumber.toNat ∧
        t.validateDone r.msg.done r.payloadLen = true) ∧
      (r.id? = some .rtx → Requestable t es s r.msg.rtx.retransmitPsn)

/-- The invariant of the sender loop and of the messages that influence it. -/
structure SendingInv (es : List ServerEvent) (s : ServerState) : Prop where
  sender : SenderOk t es s
  slot : SlotOk t es s
  receiver : ReceiverOk t es s
  fresh : s.driver.beforeData = true → s.sender = .notStarted

variable {t} {es e : List ServerEvent} {s s' : ServerState}

/-- Wherever the sender is, everything below the counter has been transmitted. -/
theorem SenderOk.covered (h : SenderOk t es s) :
    s.psn ≤ t.totalPacketNumber.toNat ∧ Covered es s.psn := by
  have hzero : s.psn = 0 → s.psn ≤ t.totalPacketNumber.toNat ∧ Covered es s.psn := fun h0 =>
    ⟨by omega, fun q hq => by omega⟩
  unfold SenderOk at h
  cases hpos : s.sender <;> simp only [hpos] at h
  case notStarted | opening | init => exact hzero h
  case loopTest => exact h
  case cxlCheck | rtxCheck | rtxTake | send => exact ⟨h.1.le, h.2⟩
  case rtxStore v => exact ⟨h.1.le, h.2.1⟩
  case eofTest | increment => exact ⟨h.1.le, h.2.mono (by omega)⟩
  case eofCheck | eofTake => exact ⟨by omega, h.2.mono (by omega)⟩
  case eofStore v => exact ⟨by omega, h.2.1.mono (by omega)⟩
  case failing | cancelling | stopped => exact h.elim hzero fun h => ⟨h.1.le, h.2⟩
  case finished => exact ⟨h.1.le, h.2⟩

/-- The slot is exchanged inside the loop only. -/
theorem SenderOk.lt_of_take (h : SenderOk t es s) (htake : s.sender = .rtxTake ∨ s.sender = .eofTake) :
    s.psn < t.totalPacketNumber.toNat := by
  unfold SenderOk at h
  rcases htake with hpos | hpos <;> simp only [hpos] at h
  · exact h.1
  · omega

/-- Later events keep the sender's facts. -/
theorem SenderOk.append (h : SenderOk t es s) (es' : List ServerEvent) : SenderOk t (es ++ es') s := by
  unfold SenderOk at h ⊢
  cases hpos : s.sender <;> simp only [hpos] at h ⊢
  case notStarted | opening | init => exact h
  case loopTest | cxlCheck | rtxCheck | rtxTake | send | eofTest | increment | eofCheck | eofTake |
      finished => exact ⟨h.1, h.2.append es'⟩
  case rtxStore v => exact ⟨h.1, h.2.1.append es', h.2.2.1, h.2.2.2.append es'⟩
  case eofStore v => exact ⟨h.1, h.2.1.append es', h.2.2⟩
  case failing | cancelling | stopped => exact h.imp_right fun h => ⟨h.1, h.2.append es'⟩

/-- The sender's facts depend on its position and on the counter only. -/
theorem SenderOk.congr (h : SenderOk t es s) (hsender : s'.sender = s.sender)
    (hpsn : s'.vars.packetSequenceNumber = s.vars.packetSequenceNumber) : SenderOk t es s' := by
  unfold SenderOk psn at h ⊢
  rw [hsender, hpsn]
  exact h

/-- The counter at the packet count stays there, so a requestable number stays requestable. -/
theorem Requestable.step {p : UInt32} (h : Requestable t es s p)
    (hstable : s.psn = t.totalPacketNumber.toNat → s'.psn = t.totalPacketNumber.toNat)
    (es' : List ServerEvent) : Requestable t (es ++ es') s' p :=
  ⟨h.1.imp_right hstable, h.2.1.append es', h.2.2⟩

/-- The receiver's facts survive whatever keeps the counter at the packet count. -/
theorem ReceiverOk.step (h : ReceiverOk t es s) (hreceiver : s'.receiver = s.receiver)
    (hstable : s.psn = t.totalPacketNumber.toNat → s'.psn = t.totalPacketNumber.toNat)
    (es' : List ServerEvent) : ReceiverOk t (es ++ es') s' := by
  unfold ReceiverOk at h ⊢
  rw [hreceiver]
  cases hpos : s.receiver <;> simp only [hpos] at h ⊢
  case phaseCheck r | psnCheck r => exact h
  case commit r =>
    exact ⟨h.1, fun hid => ⟨hstable (h.2.1 hid).1, (h.2.1 hid).2⟩, fun hid => (h.2.2 hid).step hstable es'⟩

/-- The slot's facts survive a step that does not touch it. -/
theorem SlotOk.step (h : SlotOk t es s) (hslot : s'.vars.retransmitPsn = s.vars.retransmitPsn)
    (hsender : s'.sender = s.sender ∨ (s'.sender ≠ .rtxTake ∧ s'.sender ≠ .eofTake))
    (hstable : s.psn = t.totalPacketNumber.toNat → s'.psn = t.totalPacketNumber.toNat)
    (es' : List ServerEvent) : SlotOk t (es ++ es') s' := by
  refine ⟨fun hne => ?_, fun hpos => ?_⟩
  · rw [hslot] at hne ⊢
    exact (h.1 hne).step hstable es'
  · rw [hslot]
    rcases hsender with hsender | ⟨hrtx, heof⟩
    · exact h.2 (by rwa [hsender] at hpos)
    · exact absurd hpos (by simp [hrtx, heof])

/-- A new request at the counter or below is requestable. -/
theorem SenderOk.requestable (h : SenderOk t es s) {p : UInt32} (hp : p.toNat ≤ s.psn) :
    Requestable t es s p := by
  obtain ⟨hle, hcov⟩ := h.covered
  exact ⟨by omega, hcov.mono hp, hp.trans hle⟩

end ServerState

end Trftp
