import Trftp.System.Safety

/-!
# When DONE is thrown away

The client sends DONE as soon as it has verified the file, and it does so once. The server
compares its loop counter with the packet count when DONE arrives, but the counter stays at the
last packet while the sender thread waits behind it, and a retransmission that was asked for
moves it back. DONE is accepted only if the sender thread has left the loop or is about to.
-/

namespace Trftp

open Lib (EventMachine)

/-- A transferable file has more than one packet. -/
theorem ServerTransaction.Transferable.one_lt_total {t : ServerTransaction} (h : t.Transferable) :
    1 < t.totalPacketNumber.toNat := by
  obtain ⟨hsize, -, hfits⟩ := h
  rw [totalPacketNumber_eq hfits, Lib.lt_chunkCount_iff (by decide)]
  omega

namespace ServerState

variable {t : ServerTransaction} {s : ServerState} {es : List ServerEvent}

/-- The sender thread has left its loop, or the next test of the loop condition ends it. -/
def LoopOver (t : ServerTransaction) (s : ServerState) : Prop :=
  s.sender = .finished ∨ (s.sender = .loopTest ∧ s.vars.packetSequenceNumber = t.totalPacketNumber)

/-- The counter is the packet count only at the end of the loop. -/
theorem psn_eq_total_iff (hinv : SenderOk t es s) (hpos : 0 < t.totalPacketNumber.toNat) :
    s.vars.packetSequenceNumber = t.totalPacketNumber ↔ LoopOver t s := by
  have htoNat : s.vars.packetSequenceNumber = t.totalPacketNumber ↔ s.psn = t.totalPacketNumber.toNat :=
    UInt32.toNat_inj.symm
  unfold SenderOk at hinv
  cases h : s.sender <;> simp only [h] at hinv
  case loopTest => simp [LoopOver, h]
  case finished => simpa [LoopOver, h, htoNat] using hinv.1
  all_goals
    simp only [LoopOver, h, htoNat]
    simp only [reduceCtorEq, false_and, or_self, iff_false]
    omega

end ServerState

/-- A genuine DONE is accepted if and only if the loop of the sender thread is over.

The client, which handles one datagram at a time, has sent DONE, which it does behind the verification of
the file, and DONE is delivered while the status of the server is DATA. If `OnReceive` is not interrupted
it stores DONE exactly if the loop is over. If it is interrupted, the counter is loaded at `psnCheck`:
from there `OnReceive` goes on to its assignment exactly if the loop is over by then, and the
assignment stores DONE. -/
theorem done_accepted_iff {tr : Transfer} {es : List SystemEvent} {s : SystemState} {p : Packet}
    {r : Received} (h : (systemMachine tr).Trace es s) (hsent : p ∈ s.net) (hfrom : r.From p)
    (hkind : r.id? = some .done) :
    (s.server.vars.status = .data →
      ((tr.server.onReceive s.server.vars r).status = .done ↔ ServerState.LoopOver tr.server s.server)) ∧
    (s.server.receiver = .psnCheck r →
      ((∃ server, s.server.step tr.server .receiver = some (server, []) ∧ server.receiver = .commit r) ↔
        ServerState.LoopOver tr.server s.server)) ∧
    (s.server.receiver = .commit r →
      ∃ server, s.server.step tr.server .receiver = some (server, [.accepted .done r]) ∧
        server.vars.status = .done) := by
  have hinv : ServerState.SendingInv tr.server (es.filterMap SystemEvent.server?) s.server :=
    sendingInv_of_trace ((serverProjection tr).trace h)
  obtain ⟨id, hgen⟩ := (systemInv_of_trace h).net.genuine p hsent
  have hid : id = .done := Option.some.inj ((hgen.id?_eq hfrom).symm.trans hkind)
  subst hid
  have hvalid := hgen.validateDone hfrom
  have hintact := hgen.intact_of_done hfrom
  have hpos := hgen.of_done.2.one_lt_total
  rw [← ServerState.psn_eq_total_iff hinv.sender (by omega)]
  refine ⟨fun hstatus => ?_, fun hreceiver => ?_, fun hreceiver => ?_⟩
  · by_cases hpsn : s.server.vars.packetSequenceNumber = tr.server.totalPacketNumber <;>
      simp [ServerTransaction.onReceive, ServerTransaction.validateMessageIntegrity, hintact, hkind, hstatus,
        hpsn, hvalid]
  · by_cases hpsn : s.server.vars.packetSequenceNumber = tr.server.totalPacketNumber <;>
      simp [ServerState.step, ServerState.receiverStep, hreceiver, hkind, hpsn, hvalid]
  · simp [ServerState.step, ServerState.receiverStep, hreceiver, hkind, ServerState.accept]

/-- The statements after which DONE is in the network, with so many statements of the sender thread. -/
def doneSchedule (steps : ℕ) : List SystemAction :=
  List.flatten [untilData, List.replicate steps (.server (.sender true)), [deliverFirst, deliverSecond]]

/-- DONE is in the network while the status is DATA, wherever the schedule has left the sender thread. -/
theorem doneSchedule_exec (steps : ℕ) (sender : SenderPos)
    (hrun : ((systemMachine smallTransfer).exec smallStart (doneSchedule steps)).map (fun p =>
      (p.1.server.vars.status, p.1.server.sender, decide (twoPackets.replyPacket .done ∈ p.1.net))) =
        some (.data, sender, true)) :
    ∃ s es, (systemMachine smallTransfer).Trace es s ∧ s.server.vars.status = .data ∧
      s.server.sender = sender ∧ twoPackets.replyPacket .done ∈ s.net := by
  obtain ⟨⟨s, es⟩, hexec, hs⟩ := Option.map_eq_some_iff.mp hrun
  simp only [Prod.mk.injEq, decide_eq_true_eq] at hs
  exact ⟨s, es, EventMachine.exec_trace ⟨rfl, ⟨none, rfl⟩, rfl⟩ hexec, hs⟩

/-- Behind the loop DONE is accepted. -/
theorem done_accepted_finished :
    ∃ s es, (systemMachine smallTransfer).Trace es s ∧ s.server.vars.status = .data ∧
      twoPackets.replyPacket .done ∈ s.net ∧
      (smallTransfer.server.onReceive s.server.vars (twoPackets.reply .done)).status = .done := by
  obtain ⟨s, es, htrace, hstatus, hsender, hsent⟩ :=
    doneSchedule_exec 16 .finished (by decide +kernel)
  have haccepted := (done_accepted_iff htrace hsent (twoPackets.reply_from .done)
    (twoPackets.reply_id? .done)).1 hstatus
  exact ⟨s, es, htrace, hstatus, hsent, haccepted.mpr (Or.inl hsender)⟩

/-- DONE that arrives during the wait behind the last packet is thrown away. -/
theorem done_discarded :
    ¬∀ (tr : Transfer) (es : List SystemEvent) (s : SystemState) (p : Packet) (r : Received),
      (systemMachine tr).Trace es s → s.server.vars.status = .data → p ∈ s.net → r.From p →
      r.id? = some .done → (tr.server.onReceive s.server.vars r).status = .done := by
  intro hclaim
  have hrun : ((systemMachine smallTransfer).exec smallStart (doneSchedule 13)).map (fun p =>
      (p.1.server.vars.status, decide (twoPackets.replyPacket .done ∈ p.1.net),
        (smallTransfer.server.onReceive p.1.server.vars (twoPackets.reply .done)).status)) =
      some (.data, true, .data) := by decide +kernel
  obtain ⟨⟨s, es⟩, hexec, hs⟩ := Option.map_eq_some_iff.mp hrun
  simp only [Prod.mk.injEq, decide_eq_true_eq] at hs
  have hdone := hclaim smallTransfer es s _ _ (EventMachine.exec_trace ⟨rfl, ⟨none, rfl⟩, rfl⟩ hexec) hs.1 hs.2.1
    (twoPackets.reply_from .done) (twoPackets.reply_id? .done)
  rw [hs.2.2] at hdone
  exact absurd hdone (by decide)

end Trftp
