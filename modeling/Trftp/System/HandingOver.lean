import Trftp.Lib.Handover
import Trftp.System.Outcomes

/-!
# A transfer hands a file over

What can be seen of a transfer from outside: the client has verified a file, the server has accepted its DONE
and sent FIN, the client calls `OnFileReceived`, and `StartFileTransfer` returns. The protocol with its
datagrams, threads and timeouts shows these events in no other orders than the hand-over of one
item, the file that the server serves.
-/

namespace Trftp

open Lib (EventMachine HandoverEvent HandoverState)
open Lib.EventMachine (Simulation)

/-- What the application at either end, or its log, sees of a transfer. -/
def SystemEvent.visible? : SystemEvent → Option (HandoverEvent (Option (List UInt8)))
  | .client (.verified file) => some (.verified (some file))
  | .server (.accepted .done _) => some .confirmed
  | .server (.sent .fin _) => some .released
  | .client (.fileReceived file _) => some (.handedOver file)
  | .server (.returned result) => some (.ended (result = .fin))
  | .client _ | .server _ => none

namespace ServerState

variable {t : ServerTransaction} {s s' : ServerState} {e : List ServerEvent}

/-- `StartFileTransfer` is over. -/
def Over (s : ServerState) : Prop := ∃ result, s.driver = .returned result

/-- A step that neither sends FIN nor returns. -/
structure Staying (s s' : ServerState) (e : List ServerEvent) : Prop where
  finSent : s'.FinSent ↔ s.FinSent
  returned : s'.Over ↔ s.Over
  not_sent : ∀ p, .sent .fin p ∉ e
  not_returned : ∀ result, .returned result ∉ e

/-- A statement of `StartFileTransfer` sends FIN, or returns, or does neither. -/
theorem driverStep_leaving (h : s.driverStep t = some (s', e)) :
    (∃ p, e = [.sent .fin p] ∧ s.driver = .finishing ∧ s'.driver = .erase .fin) ∨
    (∃ result, e = [.returned result] ∧ s.driver = .erase result ∧ s'.driver = .returned result) ∨
    Staying s s' e := by
  revert h
  fun_cases ServerState.driverStep t s <;> intro h <;> cases h
  case case3 phase hphase hpos =>
    refine Or.inr (Or.inr ⟨by simp [FinSent, hpos], by simp [Over, hpos], fun p hmem => ?_, by simp⟩)
    cases phase <;> simp [Phase.request] at hmem
  case case8 phase status hpos result hverdict =>
    have hresult := ne_fin_of_giveUp hverdict
    exact Or.inr (Or.inr ⟨by simp [FinSent, hpos, hresult], by simp [Over, hpos], by simp, by simp⟩)
  case case10 phase status hpos hverdict =>
    refine Or.inr (Or.inr ⟨?_, ?_, by simp, by simp⟩)
    · cases phase <;> simp [FinSent, Phase.nextPos, hpos]
    · cases phase <;> simp [Over, Phase.nextPos, hpos]
  all_goals first
    | exact Or.inl ⟨_, rfl, ‹_›, rfl⟩
    | exact Or.inr (Or.inl ⟨_, rfl, ‹_›, rfl⟩)
    | exact Or.inr (Or.inr ⟨by simp [FinSent, *], by simp [Over, *], by simp, by simp⟩)

/-- No other thread sends FIN or makes `StartFileTransfer` return. -/
theorem step_leaving {a : ServerAction} (h : s.step t a = some (s', e)) :
    (∃ p, e = [.sent .fin p] ∧ s.driver = .finishing ∧ s'.driver = .erase .fin) ∨
    (∃ result, e = [.returned result] ∧ s.driver = .erase result ∧ s'.driver = .returned result) ∨
    Staying s s' e := by
  cases hdriver : a.ofDriver with
  | false =>
    have hsame := driver_of_other hdriver h
    refine Or.inr (Or.inr ⟨by rw [FinSent, hsame, FinSent], by rw [Over, hsame, Over], fun p hmem => ?_,
      fun result hmem => ?_⟩)
    · have hreports := step_reports_mem h hmem
      cases a <;> simp [ServerAction.reports, ServerAction.ofDriver] at hreports hdriver
    · have hreports := step_reports_mem h hmem
      cases a <;> simp [ServerAction.reports, ServerAction.ofDriver] at hreports hdriver
  | true =>
    cases a with
    | driver => exact driverStep_leaving h
    | timeout =>
      obtain ⟨phase, hpos, rfl, rfl⟩ := timeoutStep_eq h
      exact Or.inr (Or.inr ⟨by simp [FinSent, hpos], by simp [Over, hpos], by simp, by simp⟩)
    | sender | deliver | receiver | abort | abortSend => contradiction

end ServerState

/-- What can be seen of a step of the client. -/
def clientVisible (e : List ClientEvent) : List (HandoverEvent (Option (List UInt8))) :=
  (e.map SystemEvent.client).filterMap SystemEvent.visible?

/-- What a step of the client means for the hand-over. -/
inductive ClientHanding (v w : ClientVars) (e : List ClientEvent) : Prop
  | verified (file : List UInt8) (hvisible : clientVisible e = [.verified (some file)])
      (htemp : w.tempFile = some file) (hdone : w.status = .done)
  | handedOver (hvisible : clientVisible e = [.handedOver v.tempFile])
      (hmem : .fileReceived v.tempFile v.newFileVersion ∈ e) (hdone : v.status = .done)
      (hfin : w.status = .fin)
  | quiet (hvisible : clientVisible e = []) (hstatus : w.status = .done → v.status = .done)

/-- The address of the server has no part in it. -/
theorem ClientHanding.of_heardFrom {v w : ClientVars} {e : List ClientEvent} {addr : SockAddr}
    (h : ClientHanding (v.heardFrom addr) w e) : ClientHanding v w e := by
  cases h with
  | verified file hvisible htemp hdone => exact .verified file hvisible htemp hdone
  | handedOver hvisible hmem hdone hfin => exact .handedOver hvisible hmem hdone hfin
  | quiet hvisible hstatus => exact .quiet hvisible hstatus

namespace ClientTransaction

variable {c : ClientTransaction} {v w : ClientVars} {r : Received} {ops : FileOps} {e : List ClientEvent}

/-- Writes and the sending of a message are not seen. -/
theorem clientVisible_writes (writes : List (List UInt8)) (id : MessageId) (p : Packet) :
    clientVisible (writes.map .wrote ++ [.sent id p]) = [] := by
  induction writes with
  | nil => rfl
  | cons data writes ih => exact ih

/-- A transaction that is cancelled shows nothing. -/
theorem Cancelled.handing (h : Cancelled c w e) : ClientHanding v w e := by
  obtain ⟨writes, v', hevents⟩ := h.events
  refine .quiet (by rw [hevents, clientVisible_writes]) fun hdone => ?_
  rw [h.status] at hdone
  contradiction

/-- What `OnReceive` means for the hand-over. -/
theorem Reaction.handing (h : Reaction c v r ops w e) : ClientHanding v w e := by
  cases h with
  | discarded => exact .quiet rfl id
  | cancelled h => exact h.handing
  | notified _ h => exact .quiet (by rw [h.events]; rfl) fun hdone => by simp [h.vars] at hdone
  | informed _ h => exact .quiet (by rw [h.events]; rfl) fun hdone => by simp [h.vars] at hdone
  | requested => exact .quiet rfl id
  | written => exact .quiet rfl fun hdone => by simp [writtenVars, countedVars] at hdone
  | completed _ _ _ h =>
    obtain ⟨file, hfile, -, -, rfl⟩ := h.file
    exact .verified file rfl (by rw [h.vars]; exact hfile) (by rw [h.vars])
  | finished _ h =>
    cases hclient : c.hasClient with
    | true =>
      have hevents : e = [.fileReceived v.tempFile v.newFileVersion] := by rw [h.events, if_pos hclient]
      exact .handedOver (by rw [hevents]; rfl) (by rw [hevents]; exact List.mem_singleton_self _) h.done
        (by rw [h.vars])
    | false =>
      have hevents : e = [] := by rw [h.events, hclient]; rfl
      exact .quiet (by rw [hevents]; rfl) fun hdone => by simp [h.vars] at hdone

end ClientTransaction

/-- What a step of the client means for the hand-over. -/
theorem ClientState.step_handing {c : ClientTransaction} {s s' : ClientState} {a : ClientAction}
    {e : List ClientEvent} (h : s.step c a = some (s', e)) (hdead : ClientTransaction.DeadOk s.vars) :
    ClientHanding s.vars s'.vars e := by
  cases ClientState.step_cases h with
  | dropped => exact .quiet rfl id
  | terminated => exact .quiet rfl id
  | timeout hcancel => exact hcancel.handing
  | received _ _ hreact _ => exact hreact.handing.of_heardFrom
  | @began r ops w e hended hreact _ =>
    -- the status is that of the transaction that has ended
    have hkeep : (ClientTransaction.reset { s.vars with isActive := true } ops).status ≠ .done := by
      rw [(ClientTransaction.reset_status _ ops).1]
      rcases hdead hended with hfin | hcxl
      · simp [hfin]
      · simp [hcxl]
    cases hreact.handing with
    | verified file hvisible htemp hdone => exact .verified file hvisible htemp hdone
    | handedOver _ _ hdone => exact absurd hdone hkeep
    | quiet hvisible hstatus => exact .quiet hvisible fun hdone => absurd (hstatus hdone) hkeep

/-- How far the transfer is, and how far the hand-over. -/
structure HandingOver (tr : Transfer) (es : List SystemEvent) (s : SystemState) (a : HandoverState) : Prop where
  verified : .client (.verified tr.server.served) ∈ es → a.verified = true
  confirmed : ∀ r, .server (.accepted .done r) ∈ es → a.confirmed = true
  released : a.released = true ↔ s.server.FinSent
  holding : s.client.vars.status = .done → a.holding = true
  ended : a.ended = none ↔ ¬s.server.Over

namespace HandingOver

variable {tr : Transfer} {es : List SystemEvent} {s : SystemState} {a : HandoverState}

/-- The other events of the server are not seen. -/
theorem visible?_server {x : ServerEvent} (hdone : ∀ r, x ≠ .accepted .done r)
    (hfin : ∀ p, x ≠ .sent .fin p) (hreturned : ∀ result, x ≠ .returned result) :
    SystemEvent.visible? (.server x) = none := by
  cases x with
  | accepted id r =>
    cases id with
    | done => exact absurd rfl (hdone r)
    | ntf | chk | info | rdy | data | fin | cxl | rtx => rfl
  | sent id p =>
    cases id with
    | fin => exact absurd rfl (hfin p)
    | ntf | chk | info | rdy | data | done | cxl | rtx => rfl
  | returned result => exact absurd rfl (hreturned result)
  | stored | sampled | waited | iteration | checked | transmitted | finished => rfl

/-- A step of the server is answered by what it shows. -/
theorem server_step (h : HandingOver tr es s a) (htrace : (systemMachine tr).Trace es s) {b : ServerAction}
    {server : ServerState} {e : List ServerEvent} {net : List Packet}
    (hstep : s.server.step tr.server b = some (server, e))
    (htrace' : (systemMachine tr).Trace (es ++ e.map .server) { s with server := server, net := net }) :
    ∃ a', (Lib.Handover.machine (some tr.server.served)).Run a
        ((e.map SystemEvent.server).filterMap SystemEvent.visible?) a' ∧
      HandingOver tr (es ++ e.map .server) { s with server := server, net := net } a' := by
  have hserver : (serverMachine tr.server).Trace (es.filterMap SystemEvent.server?) s.server :=
    (serverProjection tr).trace htrace
  have hverified (hmem : .client (.verified tr.server.served) ∈ es ++ e.map .server) : a.verified = true :=
    h.verified ((List.mem_append.mp hmem).resolve_right (by simp))
  rcases ServerState.step_leaving hstep with ⟨p, rfl, hpos, hpos'⟩ | ⟨result, rfl, hpos, hpos'⟩ | hstay
  · -- FIN follows the acceptance of DONE
    obtain ⟨pre, post, r, hes, -⟩ := (handshakeInv_of_trace hserver).succeeded (by rw [hpos]; rfl)
    have hdone : .server (.accepted .done r) ∈ es := NetInv.mem_server (by rw [hes]; simp)
    have hunsent : ¬a.released = true := by
      rw [h.released, ServerState.FinSent, hpos]
      simp
    have hrunning : a.ended = none := by
      rw [h.ended, ServerState.Over, hpos]
      simp
    refine ⟨{ a with released := true }, Lib.Handover.run_of_next ?_, ?_⟩
    · rw [Lib.Handover.next, if_pos ⟨h.confirmed r hdone, hunsent, hrunning⟩]
    · refine ⟨hverified, fun r' hmem => ?_, ?_, h.holding, ?_⟩
      · exact h.confirmed r' ((List.mem_append.mp hmem).resolve_right (by simp))
      · simp [ServerState.FinSent, hpos']
      · simp [ServerState.Over, hpos', hrunning]
  · have hrunning : a.ended = none := by
      rw [h.ended, ServerState.Over, hpos]
      simp
    have hreleased : a.released = decide (result = .fin) := by
      rw [Bool.eq_iff_iff, h.released, ServerState.FinSent, hpos]
      simp
    refine ⟨{ a with ended := some (decide (result = .fin)) }, Lib.Handover.run_of_next ?_, ?_⟩
    · rw [Lib.Handover.next, if_pos ⟨hrunning, hreleased.symm⟩]
    · refine ⟨hverified, fun r' hmem => ?_, ?_, h.holding, ?_⟩
      · exact h.confirmed r' ((List.mem_append.mp hmem).resolve_right (by simp))
      · simp [ServerState.FinSent, hpos', hreleased]
      · simp [ServerState.Over, hpos']
  · by_cases hdone : ∃ r, .accepted .done r ∈ e
    · obtain ⟨r, hmem⟩ := hdone
      obtain ⟨rfl, -⟩ := ServerState.step_accepted hstep hmem
      have hsent := ((systemInv_of_trace htrace').net.of_accepted_done (r := r) (by simp)).1
      refine ⟨{ a with confirmed := true }, Lib.Handover.run_of_next ?_, ?_⟩
      · rw [Lib.Handover.next, if_pos (hverified hsent)]
      · exact ⟨hverified, fun _ _ => rfl, h.released.trans hstay.finSent.symm, h.holding,
          h.ended.trans (not_congr hstay.returned.symm)⟩
    · have hquiet : (e.map SystemEvent.server).filterMap SystemEvent.visible? = [] := by
        refine List.filterMap_eq_nil_iff.mpr fun x hx => ?_
        obtain ⟨y, hy, rfl⟩ := List.mem_map.mp hx
        exact visible?_server (fun r heq => hdone ⟨r, heq ▸ hy⟩) (fun p heq => hstay.not_sent p (heq ▸ hy))
          fun result heq => hstay.not_returned result (heq ▸ hy)
      rw [hquiet]
      refine ⟨a, EventMachine.Run.nil a, hverified, fun r hmem => ?_, h.released.trans hstay.finSent.symm,
        h.holding, h.ended.trans (not_congr hstay.returned.symm)⟩
      refine h.confirmed r ((List.mem_append.mp hmem).resolve_right fun hnew => hdone ⟨r, ?_⟩)
      simpa using hnew

/-- A step of the client is answered by what it shows. -/
theorem client_step (h : HandingOver tr es s a) (htrace : (systemMachine tr).Trace es s) {b : ClientAction}
    {client : ClientState} {e : List ClientEvent} {net : List Packet}
    (hstep : s.client.step tr.client b = some (client, e))
    (htrace' : (systemMachine tr).Trace (es ++ e.map .client) { s with client := client, net := net }) :
    ∃ a', (Lib.Handover.machine (some tr.server.served)).Run a (clientVisible e) a' ∧
      HandingOver tr (es ++ e.map .client) { s with client := client, net := net } a' := by
  have hinv := systemInv_of_trace htrace
  have hinv' := systemInv_of_trace htrace'
  have hdead : ClientTransaction.DeadOk s.client.vars :=
    (clientInv_of_trace ((clientProjection tr).trace htrace)).dead
  have hconfirmed (r : Received) (hmem : .server (.accepted .done r) ∈ es ++ e.map .client) :
      a.confirmed = true :=
    h.confirmed r ((List.mem_append.mp hmem).resolve_right (by simp))
  have hverified (hother : .verified (some tr.server.served) ∉ clientVisible e)
      (hmem : .client (.verified tr.server.served) ∈ es ++ e.map .client) : a.verified = true := by
    refine h.verified ((List.mem_append.mp hmem).resolve_right fun hnew => hother ?_)
    exact List.mem_filterMap.mpr ⟨_, hnew, rfl⟩
  cases ClientState.step_handing hstep hdead with
  | verified file hvisible htemp hdone =>
    have hserved : some file = some tr.server.served := by
      have hcontent := hinv'.content
      rw [ContentOk, hdone] at hcontent
      exact htemp.symm.trans hcontent.2.1
    rw [hvisible]
    refine ⟨{ a with verified := true, holding := true }, Lib.Handover.run_of_next ?_, ?_⟩
    · rw [Lib.Handover.next, if_pos hserved]
    · exact ⟨fun _ => rfl, hconfirmed, h.released, fun _ => rfl, h.ended⟩
  | handedOver hvisible hmem hdone hfin =>
    have hserved : s.client.vars.tempFile = some tr.server.served := by
      have hcontent := hinv.content
      rw [ContentOk, hdone] at hcontent
      exact hcontent.2.1
    -- the invariant of the longer trace puts FIN before the hand-over
    have hreleased : a.released = true := by
      obtain ⟨pre, post, hsplit⟩ := List.append_of_mem (List.mem_append_right es (List.mem_map_of_mem hmem))
      obtain ⟨-, ⟨p, hsent⟩, -⟩ := hinv'.handed pre _ post hsplit _ _ rfl
      have hmem' : .server (.sent .fin p) ∈ es ++ e.map .client := by
        rw [hsplit]
        exact List.mem_append_left _ hsent
      have hold := (List.mem_append.mp hmem').resolve_right (by simp)
      exact h.released.mpr (ServerState.finSent_of_trace ((serverProjection tr).trace htrace)
        (List.mem_filterMap.mpr ⟨_, hold, rfl⟩))
    refine ⟨{ a with holding := false }, hvisible ▸ Lib.Handover.run_of_next ?_, ?_⟩
    · rw [Lib.Handover.next, if_pos ⟨hreleased, h.holding hdone, hserved⟩]
    · refine ⟨hverified (by simp [hvisible]), hconfirmed, h.released, fun hdone' => ?_, h.ended⟩
      rw [hfin] at hdone'
      contradiction
  | quiet hvisible hstatus =>
    exact ⟨a, hvisible ▸ EventMachine.Run.nil a, hverified (by simp [hvisible]), hconfirmed, h.released,
      fun hdone => h.holding (hstatus hdone), h.ended⟩

end HandingOver

/-- The protocol simulates the hand-over of the served file. -/
def handingOver (tr : Transfer) :
    Simulation (systemMachine tr) (Lib.Handover.machine (some tr.server.served)) where
  related es s es' a := es' = es.filterMap SystemEvent.visible? ∧ HandingOver tr es s a
  initial s h := by
    obtain ⟨hserver, ⟨tempFile, hclient⟩, -⟩ := h
    refine ⟨Lib.Handover.start, rfl, rfl, by simp, by simp, ?_, ?_, ?_⟩
    · simp [Lib.Handover.start, ServerState.FinSent, hserver, ServerTransaction.registeredState]
    · simp [hclient, ClientTransaction.initialVars]
    · simp [Lib.Handover.start, ServerState.Over, hserver, ServerTransaction.registeredState]
  step := by
    rintro es s es' a b s' e htrace ⟨rfl, hrelated⟩ hstep
    have htrace' : (systemMachine tr).Trace (es ++ e) s' := htrace.step hstep
    have hanswer : ∃ a', (Lib.Handover.machine (some tr.server.served)).Run a
        (e.filterMap SystemEvent.visible?) a' ∧ HandingOver tr (es ++ e) s' a' := by
      cases SystemState.step_cases hstep with
      | server hserver | heard _ _ hserver => exact hrelated.server_step htrace hserver htrace'
      | received _ _ _ hclient | timeout hclient => exact hrelated.client_step htrace hclient htrace'
    obtain ⟨a', hrun, hrelated'⟩ := hanswer
    exact ⟨_, a', hrun, List.filterMap_append.symm, hrelated'⟩

/-- A transfer to a client that handles one datagram at a time is a hand-over of the served file.

Whatever the network does with the datagrams, whenever a wait or the client's loop times out, and whoever
aborts the transfer, what is seen of it is seen of the hand-over of one item, the first `new_file_size_` bytes
of the served file: the server takes DONE only if the client has verified this file, sends FIN once and only
behind DONE, and returns FIN if and only if it has sent it; the client hands over this file only, behind
FIN, and no more often than it has verified it. -/
theorem transfer_refines {tr : Transfer} {es : List SystemEvent} {s : SystemState}
    (h : (systemMachine tr).Trace es s) :
    (∃ a, (Lib.Handover.machine (some tr.server.served)).Trace (es.filterMap SystemEvent.visible?) a) ∧
    (es.filterMap SystemEvent.visible?).countP Lib.Handover.isHandedOver ≤
      (es.filterMap SystemEvent.visible?).countP Lib.Handover.isVerified ∧
    (∀ file version result, .client (.fileReceived file version) ∈ es → .server (.returned result) ∈ es →
      result = .fin) := by
  obtain ⟨es', a, htrace, rfl, -⟩ := (handingOver tr).trace h
  refine ⟨⟨a, htrace⟩, Lib.Handover.handedOver_le htrace, fun file version result hhanded hreturned => ?_⟩
  have hsuccess := Lib.Handover.ended_of_handedOver htrace (List.mem_filterMap.mpr ⟨_, hhanded, rfl⟩)
    (List.mem_filterMap.mpr ⟨_, hreturned, rfl⟩)
  exact of_decide_eq_true hsuccess

/-- The complete transfer shows every event once, and the report of the server before the hand-over. -/
theorem transfer_refines_twoPackets :
    ∃ s es, (systemMachine smallTransfer).exec smallStart completeSchedule = some (s, es) ∧
      es.filterMap SystemEvent.visible? =
        [.verified (some smallTransfer.server.served), .confirmed, .released, .ended true,
          .handedOver (some smallTransfer.server.served)] ∧
      (∃ a, (Lib.Handover.machine (some smallTransfer.server.served)).Trace
        (es.filterMap SystemEvent.visible?) a) ∧
      (es.filterMap SystemEvent.visible?).countP Lib.Handover.isHandedOver ≤
        (es.filterMap SystemEvent.visible?).countP Lib.Handover.isVerified ∧
      ∀ file version result, .client (.fileReceived file version) ∈ es → .server (.returned result) ∈ es →
        result = .fin := by
  have hrun : ((systemMachine smallTransfer).exec smallStart completeSchedule).map
      (·.2.filterMap SystemEvent.visible?) = some
        [.verified (some smallTransfer.server.served), .confirmed, .released, .ended true,
          .handedOver (some smallTransfer.server.served)] := by decide +kernel
  obtain ⟨⟨s, es⟩, hexec, hvisible⟩ := Option.map_eq_some_iff.mp hrun
  have htrace : (systemMachine smallTransfer).Trace es s :=
    EventMachine.exec_trace ⟨rfl, ⟨none, rfl⟩, rfl⟩ hexec
  exact ⟨s, es, hexec, hvisible, transfer_refines htrace⟩

end Trftp
