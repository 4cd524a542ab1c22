import Trftp.System.Repairing
import Trftp.Server.Conversation

/-!
# Retransmission repairs every loss

Before the file is on its way and behind it a lossy run goes on like a clean one. Every step leads from stage
to stage and lowers what is left to do, a loss apart, which adds a bounded amount. Hence every lossy run
comes to its end like a clean one, with a bounded number of steps for each loss.
-/

namespace Trftp

open Lib (EventMachine)

namespace Stage

variable {tr : Transfer} {s s' : CleanState} {e : List SystemEvent}

/-- While the file is on its way a clean run is not quiet. -/
theorem not_quiet {v : ServerVars} {driver : DriverPos} {sender : SenderPos} {client : ClientState}
    {net toServer toClient : List Packet} {received sent : ℕ}
    (hsent : sender.HasSent tr.server v.packetSequenceNumber.toNat sent)
    (hclient : client.At tr.server (.receiving received)) :
    ¬CleanState.Quiet ⟨⟨⟨v, driver, sender, .idle, 0⟩, client, net⟩, toServer, toClient⟩ := by
  have hrunning := hclient.2.running
  rintro (hfresh | hdone | hinactive)
  · rw [show sender = .notStarted from hfresh] at hsent
    exact hsent
  · have hstatus := hrunning.status
    rw [show client.vars.status = .done from hdone] at hstatus
    split_ifs at hstatus
  · have hactive := hrunning.isActive
    rw [show client.vars.isActive = false from hinactive] at hactive
    contradiction

/-- The answer to DATA is heeded when it is awaited, and so are the others. -/
theorem heeds_iff (h : Stage tr s) (hqueue : s.toServer ≠ []) : s.heeds = true ↔ s.sys.server.awaits = true := by
  cases h with
  | start | requesting | asked | streaming | heard | answered | finishing | finSent | told => exact absurd rfl hqueue
  | @replied v driver sender client net p phase hdriver hv hsender hreply hclient =>
    rcases hdriver with rfl | rfl
    · exact Iff.rfl
    · have hdone : client.vars.status = .done ↔ phase = .data := by
        cases phase with
        | ntf =>
          have hstatus : client.vars.status = .chk := hclient.2.running.status
          simp [hstatus]
        | info =>
          have hstatus : client.vars.status = .rdy := hclient.2.running.status
          simp [hstatus]
        | data =>
          have hstatus : client.vars.status = .done := hclient.2.status
          simp [hstatus]
      simp [CleanState.heeds, ServerState.awaits, hdone]

/-- A sender thread that goes on behind the last packet need not wait. -/
theorem settled (h : Stage tr s) (hquiet : s.Quiet) (hstep : s.step tr .sender = some (s', e)) : s.Settled := by
  cases h with
  | start | requesting | asked | finishing | finSent | told => contradiction
  | heard phase | answered phase => cases phase <;> contradiction
  | streaming received sent hdriver hv hsent hle hmore hclient => exact absurd hquiet (not_quiet hsent hclient)
  | replied phase hdriver hv hsender hreply hclient =>
    rcases hsender with ⟨-, rfl⟩ | ⟨rfl, -⟩
    · contradiction
    · exact ⟨rfl, rfl, Or.inr hclient.2.status⟩

/-- No other message than DATA is lost. -/
theorem not_lost (h : Stage tr s) (hquiet : s.Quiet) : s.lossyStep tr .lose = none := by
  by_contra hstep
  obtain ⟨⟨s', e⟩, hstep⟩ := Option.ne_none_iff_exists'.mp hstep
  obtain ⟨p, rest, hqueue, hexpendable, -⟩ := CleanState.lossyStep_lose hstep
  cases h with
  | start | requesting | replied | heard | answered | finishing | told => contradiction
  | streaming received sent hdriver hv hsent hle hmore hclient => exact not_quiet hsent hclient hquiet
  | asked phase hphase =>
    obtain ⟨rfl, rfl⟩ := List.cons.inj hqueue
    have hother : phase.request ≠ .data := by
      cases phase with
      | ntf | info => decide
      | data => exact absurd rfl hphase
    exact Transfer.not_expendable _ hother hexpendable
  | finSent =>
    obtain ⟨rfl, rfl⟩ := List.cons.inj hqueue
    exact Transfer.not_expendable _ (by decide) hexpendable

/-- A message that is not DATA does not set the file on its way. -/
theorem quiet_toClient (ht : tr.server.Transferable) (hserved : tr.server.served = tr.server.file) {r : Received}
    {ops : FileOps} (h : Stage tr s) (hquiet : s.Quiet) (hstep : s.step tr (.toClient r ops) = some (s', e)) :
    s'.Quiet := by
  have hserver := (h.toClient ht hserved hstep).server
  obtain ⟨p, rest, hqueue, hops, hfollow⟩ := CleanState.step_toClient hstep
  obtain ⟨hsystem, -, -⟩ := CleanState.follow_cases hfollow
  obtain ⟨hnet, hfrom⟩ := CleanState.arrival_delivers hsystem
  cases h with
  | start | requesting | replied | heard | answered | finishing | told => contradiction
  | streaming received sent hdriver hv hsent hle hmore hclient => exact absurd hquiet (not_quiet hsent hclient)
  | asked =>
    left
    rw [hserver]
  | finSent hdriver hclient =>
    obtain ⟨rfl, rfl⟩ := List.cons.inj hqueue
    obtain ⟨client, events, hanswered, hat, -⟩ :=
      CleanState.answered_of_expects ht hserved hclient .fin hnet hfrom hops
    rw [hanswered, SystemState.clientDone, Option.some.injEq, Prod.mk.injEq] at hsystem
    right; right
    rw [← hsystem.1]
    exact hat.2

/-- What a step comes to that leaves the run quiet. -/
theorem lossyStage (h : Stage tr s') (hquiet : s'.Quiet)
    (hfresh : s'.sys.server.sender = .notStarted → s.sys.server.sender = .notStarted)
    (hless : s'.remaining tr.server < s.remaining tr.server) :
    ∃ rank, LossyStage tr s' rank ∧ rank < s.lossyRemaining tr := by
  refine ⟨s'.lossyRemaining tr, .clean h hquiet le_rfl, ?_⟩
  unfold CleanState.lossyRemaining
  split_ifs with hafter hbefore
  · omega
  · exact absurd (hfresh hafter) hbefore
  · omega
  · omega

/-- `StartFileTransfer` goes on, and starts the sender thread in the end. -/
theorem lossy_driver (ht : tr.server.Transferable) (h : Stage tr s) (hquiet : s.Quiet)
    (hstep : s.step tr .driver = some (s', e)) : ∃ rank, LossyStage tr s' rank ∧ rank < s.lossyRemaining tr := by
  have hstage := h.driver ht hstep
  have hless := h.driver_less hstep
  by_cases hsending : s.sys.server.driver = .sending .data
  · have htotal := ht.one_lt_total
    cases h with
    | start | finishing => contradiction
    | asked _ _ hpos | streaming _ _ hpos | replied _ hpos | finSent hpos | told hpos => grind
    | heard | answered => grind
    | requesting phase hv hclient =>
      obtain rfl := DriverPos.sending.inj hsending
      cases hstep
      refine ⟨_, .streaming 0 _ ⟨Or.inl rfl, hv.status, hv.clientAddress, rfl, hclient, by omega⟩
        (.sending 0 rfl hv.slot rfl ⟨le_rfl, fun hlt => absurd hlt (Nat.lt_irrefl 0)⟩ (by omega)) le_rfl, ?_⟩
      rw [CleanState.lossyRemaining, if_pos rfl]
      change 6 * 6 + 6 * (7 * tr.server.totalPacketNumber.toNat + 3 + 7 * 0 + 3 +
          20 * (tr.server.totalPacketNumber.toNat - 0)) <
        6 * (7 + (7 * tr.server.totalPacketNumber.toNat + 4)) + 5 * 0 + 4 * 0 + 0 +
          (120 * tr.server.totalPacketNumber.toNat + 18)
      omega
  · obtain ⟨server, es, hserver, rfl, -⟩ := CleanState.follow_local rfl hstep
    have hsame := (ServerState.driverStep_frame hserver).sender.resolve_right fun hstarted => hsending hstarted.1
    refine hstage.lossyStage (hquiet.imp_left fun hfresh => ?_) (fun hfresh => ?_) hless
    · rw [hsame, hfresh]
    · rw [← hsame]
      exact hfresh

/-- A clean step that leads on in a lossy run. -/
theorem lossy_step (ht : tr.server.Transferable) (hserved : tr.server.served = tr.server.file) {b : CleanAction}
    (h : Stage tr s) (hquiet : s.Quiet) (hstep : s.step tr b = some (s', e)) :
    ∃ rank, LossyStage tr s' rank ∧ rank < s.lossyRemaining tr := by
  obtain ⟨hstage, hless⟩ := h.step ht hserved hstep
  cases b with
  | driver => exact h.lossy_driver ht hquiet hstep
  | sender =>
    obtain ⟨server, es, hserver, rfl, -⟩ := CleanState.follow_local rfl hstep
    have hfresh := ServerState.fresh_of_other hserver rfl
    exact hstage.lossyStage (hquiet.imp_left hfresh.mpr) hfresh.mp hless
  | receiver =>
    obtain ⟨server, es, hserver, rfl, -⟩ := CleanState.follow_local rfl hstep
    have hfresh := ServerState.fresh_of_other hserver rfl
    exact hstage.lossyStage (hquiet.imp_left hfresh.mpr) hfresh.mp hless
  | toServer r =>
    obtain ⟨p, rest, -, -, hfollow⟩ := CleanState.step_toServer hstep
    obtain ⟨-, server, hserver, rfl, -⟩ := CleanState.follow_delivery hfollow
    have hfresh := ServerState.fresh_of_other (t := tr.server) (a := .deliver r) hserver rfl
    exact hstage.lossyStage (hquiet.imp_left hfresh.mpr) hfresh.mp hless
  | toClient r ops =>
    have hserver := (h.toClient ht hserved hstep).server
    refine hstage.lossyStage (h.quiet_toClient ht hserved hquiet hstep) (fun hfresh => ?_) hless
    rw [← hserver]
    exact hfresh

/-- While the file is not on its way a lossy run goes on like a clean one. -/
theorem clean_of_lossy {a : LossyAction} (h : Stage tr s) (hquiet : s.Quiet)
    (hstep : s.lossyStep tr a = some (s', e)) : ∃ b, s.step tr b = some (s', e) := by
  cases a with
  | driver => exact ⟨.driver, hstep⟩
  | sender => exact ⟨.sender, (CleanState.lossyStep_sender hstep).2⟩
  | receiver => exact ⟨.receiver, hstep⟩
  | toClient r ops => exact ⟨.toClient r ops, hstep⟩
  | toServer r =>
    obtain ⟨p, rest, hqueue, hheeds, hfollow⟩ := CleanState.lossyStep_toServer hstep
    have hawaits := (h.heeds_iff (by simp [hqueue])).mp hheeds
    refine ⟨.toServer r, ?_⟩
    simpa only [CleanState.step, hqueue, hawaits, if_true] using hfollow
  | lose =>
    rw [h.not_lost hquiet] at hstep
    contradiction

/-- And a clean run goes on like a lossy one. -/
theorem lossy_of_clean {b : CleanAction} (h : Stage tr s) (hquiet : s.Quiet)
    (hstep : s.step tr b = some (s', e)) : ∃ a : LossyAction, a.isLoss = false ∧ s.lossyStep tr a = some (s', e) := by
  cases b with
  | driver => exact ⟨.driver, rfl, hstep⟩
  | receiver => exact ⟨.receiver, rfl, hstep⟩
  | toClient r ops => exact ⟨.toClient r ops, rfl, hstep⟩
  | sender =>
    refine ⟨.sender, rfl, ?_⟩
    rw [CleanState.lossyStep, if_pos (h.settled hquiet hstep)]
    exact hstep
  | toServer r =>
    obtain ⟨p, rest, hqueue, hawaits, hfollow⟩ := CleanState.step_toServer hstep
    have hheeds := (h.heeds_iff (by simp [hqueue])).mpr hawaits
    refine ⟨.toServer r, rfl, ?_⟩
    simpa only [CleanState.lossyStep, hqueue, hheeds, if_true] using hfollow

end Stage

namespace LossyStage

variable {tr : Transfer} {s s' : CleanState} {e : List SystemEvent} {rank : ℕ}

/-- Every step of a lossy run leads to a stage, and only a loss makes more work: the way of the next packet, of
the request that it causes, and of the sender thread back to the lost one. -/
theorem step (ht : tr.server.Transferable) (hserved : tr.server.served = tr.server.file) {a : LossyAction}
    (h : LossyStage tr s rank) (hstep : s.lossyStep tr a = some (s', e)) :
    ∃ rank', LossyStage tr s' rank' ∧ (rank' < rank ∨ (a.isLoss = true ∧ rank' < rank + 86)) := by
  cases h with
  | clean hstage hquiet hrank =>
    obtain ⟨b, hb⟩ := hstage.clean_of_lossy hquiet hstep
    obtain ⟨rank', hstage', hless⟩ := hstage.lossy_step ht hserved hquiet hb
    exact ⟨rank', hstage', Or.inl (by omega)⟩
  | streaming received left h hpos hrank =>
    cases a with
    | driver =>
      obtain ⟨hstage, hless⟩ := h.driver_step hpos hstep
      exact ⟨_, hstage, Or.inl (by omega)⟩
    | sender =>
      obtain ⟨hsettled, hstep⟩ := CleanState.lossyStep_sender hstep
      obtain ⟨left', hstage, hless⟩ := h.sender_step hpos hsettled hstep
      exact ⟨_, hstage, Or.inl (by omega)⟩
    | receiver =>
      obtain ⟨left', hstage, hless⟩ := h.receiver_step hpos hstep
      exact ⟨_, hstage, Or.inl (by omega)⟩
    | toServer r =>
      obtain ⟨p, rest, hqueue, -, hfollow⟩ := CleanState.lossyStep_toServer hstep
      obtain ⟨left', hstage, hless⟩ := h.toServer_step hpos hqueue hfollow
      exact ⟨_, hstage, Or.inl (by omega)⟩
    | toClient r ops =>
      obtain ⟨left', hstage, hless⟩ := h.toClient_step ht hserved hpos hstep
      exact ⟨_, hstage, Or.inl (by omega)⟩
    | lose =>
      obtain ⟨p, rest, hqueue, hexpendable, rfl, rfl⟩ := CleanState.lossyStep_lose hstep
      obtain ⟨left', hstage, hless⟩ := h.lose_step hpos hqueue hexpendable
      exact ⟨_, hstage, Or.inr ⟨rfl, by omega⟩⟩

end LossyStage

namespace ServerState

variable {t : ServerTransaction} {s : ServerState} {received : ℕ}

/-- The sender thread does not block on its way back. -/
theorem senderStep_enabled (hreturning : s.Returning t received) : s.senderStep t true ≠ none := by
  obtain ⟨v, driver, sender, receiver, aborts⟩ := s
  cases sender with
  | increment | rtxTake | rtxStore => exact Option.some_ne_none _
  | eofTest | loopTest | cxlCheck | rtxCheck =>
    simp only [senderStep]
    split <;> exact Option.some_ne_none _
  | notStarted | opening | init | send | eofCheck | eofTake | eofStore | failing | cancelling | stopped | finished =>
    exact hreturning.elim

end ServerState

/-- Something else than a loss can happen. -/
def CleanState.GoesOn (tr : Transfer) (s : CleanState) : Prop :=
  ∃ a : LossyAction, a.isLoss = false ∧ s.lossyStep tr a ≠ none

namespace Streaming

variable {tr : Transfer} {received left : ℕ} {s : CleanState} {sent : ℕ}

/-- A sender thread that has waited for its answers goes on. -/
theorem sender_enabled (hsettled : s.Settled) (hsender : s.sys.server.senderStep tr.server true ≠ none) :
    s.GoesOn tr := by
  refine ⟨.sender, rfl, ?_⟩
  rw [CleanState.lossyStep, if_pos hsettled]
  exact CleanState.follow_ne_none (a := .sender true) rfl hsender

/-- A packet on its way reaches the client. -/
theorem toClient_enabled (ht : tr.server.Transferable) (hserved : tr.server.served = tr.server.file)
    (h : Streaming tr received s) {rest : List Packet} (hqueue : s.toClient = tr.dataAt sent :: rest)
    (hahead : tr.Ahead received sent) (hmore : sent < tr.server.totalPacketNumber.toNat)
    (hnet : tr.dataAt sent ∈ s.sys.net) : s.GoesOn tr := by
  have hops : (⟨true, true, tr.server.file.length⟩ : FileOps).Succeeds tr.server.file.length := ⟨rfl, rfl, le_rfl⟩
  obtain ⟨r, hfrom⟩ := Transfer.exists_from_dataAt hmore
  obtain ⟨hsame, hless, -⟩ := Transfer.dataAt_arrived hmore hfrom
  have harrives : ∃ q, s.sys.step tr
      (s.arrival tr (tr.dataAt sent) r ⟨true, true, tr.server.file.length⟩) = some q := by
    rcases Nat.eq_or_lt_of_le hahead.1 with rfl | hbehind
    · have hanswered : ∃ stage reply,
          s.Answered tr (tr.dataAt received) r ⟨true, true, tr.server.file.length⟩ stage reply := by
        by_cases hlast : received + 1 = tr.server.totalPacketNumber.toNat
        · exact ⟨_, _, CleanState.answered_of_expects ht hserved h.client (.last hless hsame hlast) hnet hfrom hops⟩
        · exact ⟨_, _, CleanState.answered_of_expects ht hserved h.client (.packet hless hsame (by omega)) hnet hfrom
            hops⟩
      obtain ⟨stage, reply, client, events, hstep, -⟩ := hanswered
      exact ⟨_, hstep⟩
    · obtain ⟨client, q, hstep, -⟩ := CleanState.arrival_ahead ⟨true, true, tr.server.file.length⟩ ht
        h.client (hahead.2 hbehind).1 hbehind hmore hnet hfrom
      exact ⟨_, hstep⟩
  obtain ⟨q, hstep⟩ := harrives
  refine ⟨.toClient r ⟨true, true, tr.server.file.length⟩, rfl, ?_⟩
  simp [CleanState.lossyStep, CleanState.step, hqueue, hops, CleanState.follow, hstep]

/-- A request on its way reaches the server. -/
theorem toServer_enabled (h : Streaming tr received s) {p : Packet} {rest : List Packet}
    (hqueue : s.toServer = p :: rest) (hnet : p ∈ s.sys.net) (hrequest : tr.IsRequest received p)
    (hidle : s.sys.server.receiver = .idle) : s.GoesOn tr := by
  rcases h.driver with hsample | hwaiting
  · refine ⟨.driver, rfl, CleanState.follow_ne_none (a := .driver) rfl ?_⟩
    simp [ServerState.step, ServerState.driverStep, hsample]
  · obtain ⟨w, rfl, haddr, -⟩ := hrequest
    have hreply : IsReply tr .rtx (tr.client.packet w .rtx) := ⟨w, rfl, haddr, fun hdone => by contradiction⟩
    have hregistered : s.sys.server.driver.registered = true := by
      rw [hwaiting]
      rfl
    obtain ⟨r, hfollow⟩ := Stage.delivery_enabled rest s.toClient hnet hreply hregistered hidle
    have hheeds : s.heeds = true := by
      simp [CleanState.heeds, hwaiting, Phase.request, h.status_ne]
    refine ⟨.toServer r, rfl, ?_⟩
    simpa only [CleanState.lossyStep, hqueue, hheeds, if_true] using hfollow

/-- While the file is on its way something can be done. -/
theorem enabled (ht : tr.server.Transferable) (hserved : tr.server.served = tr.server.file)
    (h : Streaming tr received s) (hpos : Repairing tr received s.sys.server s.toServer s.toClient left)
    (hnet : ∀ p, p ∈ s.toServer ∨ p ∈ s.toClient → p ∈ s.sys.net) : s.GoesOn tr := by
  obtain ⟨⟨server, client, net⟩, toServer, toClient⟩ := s
  cases hpos with
  | sending sent hidle hslot hsent hahead hmore =>
    apply sender_enabled ⟨rfl, hidle, Or.inl rfl⟩
    intro hblocked
    rw [ServerState.finished_of_blocked hsent hblocked] at hsent
    exact Nat.ne_of_lt hmore hsent.2
  | inFlight sent hidle hslot hsender hpsn hahead hmore =>
    exact h.toClient_enabled ht hserved rfl hahead hmore (hnet _ (Or.inr List.mem_cons_self))
  | requested hidle hovertaken hp =>
    exact h.toServer_enabled rfl (hnet _ (Or.inl List.mem_cons_self)) hp hidle
  | hearing hhears =>
    refine ⟨.receiver, rfl, CleanState.follow_ne_none (a := .receiver) rfl ?_⟩
    intro hblocked
    have hidle := ServerState.idle_of_blocked hblocked
    rw [show server.receiver = .idle from hidle] at hhears
    rcases hhears with hpos | ⟨-, hpos⟩ | hpos <;> contradiction
  | returning hidle hreturning =>
    exact sender_enabled ⟨rfl, hidle, Or.inl rfl⟩ (ServerState.senderStep_enabled hreturning)

end Streaming

/-- A lossy run that cannot go on without a loss has returned FIN. -/
theorem LossyStage.returned_fin {tr : Transfer} {s : CleanState} {rank : ℕ} (ht : tr.server.Transferable)
    (hserved : tr.server.served = tr.server.file) (h : LossyStage tr s rank)
    (hnet : ∀ p, p ∈ s.toServer ∨ p ∈ s.toClient → p ∈ s.sys.net)
    (hstuck : ∀ a : LossyAction, a.isLoss = false → s.lossyStep tr a = none) :
    s.sys.server.driver = .returned .fin := by
  cases h with
  | clean hstage hquiet hrank =>
    apply hstage.returned_fin ht hserved hnet
    intro b
    by_contra hstep
    obtain ⟨⟨s', e⟩, hstep⟩ := Option.ne_none_iff_exists'.mp hstep
    obtain ⟨a, hclean, ha⟩ := hstage.lossy_of_clean hquiet hstep
    rw [hstuck a hclean] at ha
    contradiction
  | streaming received left h hpos hrank =>
    obtain ⟨a, hclean, ha⟩ := h.enabled ht hserved hpos hnet
    exact absurd (hstuck a hclean) ha

/-! ## Whole runs -/

/-- The machine starts in the first stage. -/
theorem lossyStage_of_initial {tr : Transfer} {s : CleanState} (h : (lossyMachine tr).initial s) :
    LossyStage tr s (162 * tr.server.totalPacketNumber.toNat + 150) := by
  obtain ⟨hstage, hremaining⟩ := stage_of_initial h
  have hfresh : s.sys.server.sender = .notStarted := by
    rw [h.1.1]
    rfl
  refine .clean hstage (Or.inl hfresh) ?_
  rw [CleanState.lossyRemaining, if_pos hfresh, hremaining]
  omega

/-- Every state of a lossy run is in a stage. -/
theorem lossyStage_of_trace {tr : Transfer} (ht : tr.server.Transferable)
    (hserved : tr.server.served = tr.server.file) {es : List SystemEvent} {s : CleanState}
    (h : (lossyMachine tr).Trace es s) : ∃ rank, LossyStage tr s rank := by
  apply h.invariant (I := fun _ s => ∃ rank, LossyStage tr s rank)
  · intro s hinit
    exact ⟨_, lossyStage_of_initial hinit⟩
  · rintro es s a s' e _ ⟨rank, hstage⟩ hstep
    obtain ⟨rank', hstage', -⟩ := hstage.step ht hserved hstep
    exact ⟨rank', hstage'⟩

/-- Retransmission repairs every loss of a packet between the first one and the last two, however often they
are lost, for a client that handles one datagram at a time.

A lossy run has at most so many steps for its packets and so many for its losses, and a run that cannot go
on but by a loss has come to its end: the client has verified the served file, the server has accepted
DONE, and `StartFileTransfer` has returned FIN. -/
theorem losses_repaired {tr : Transfer} (hsize : sizeofPayload < tr.server.file.length)
    (hlast : tr.server.file.length % sizeofPayload ≠ 0)
    (hfits : tr.server.file.length + (sizeofPayload - 1) < 2 ^ 32) :
    (∀ s₀ as s es, (lossyMachine tr).initial s₀ → (lossyMachine tr).exec s₀ as = some (s, es) →
      as.length ≤ 162 * tr.server.totalPacketNumber.toNat + 150 + 86 * as.countP LossyAction.isLoss) ∧
    ∀ es s, (lossyMachine tr).Trace es s →
      (∀ a : LossyAction, a.isLoss = false → s.lossyStep tr a = none) →
      .client (.verified tr.server.file) ∈ es ∧ (∃ r, .server (.accepted .done r) ∈ es) ∧
        s.sys.server.driver = .returned .fin := by
  have hlength : tr.server.file.length < 2 ^ 32 := by omega
  have hserved := ServerTransaction.served_eq hlength
  have ht : tr.server.Transferable := by
    rw [ServerTransaction.Transferable, ServerTransaction.newFileSize_eq hlength]
    exact ⟨hsize, hlast, hfits⟩
  constructor
  · intro s₀ as s es hinit hexec
    exact EventMachine.exec_length_le_of_cost (I := LossyStage tr)
      (fun hstage hstep => hstage.step ht hserved hstep) (lossyStage_of_initial hinit) hexec
  · intro es s htrace hstuck
    obtain ⟨rank, hstage⟩ := lossyStage_of_trace ht hserved htrace
    have hfin := hstage.returned_fin ht hserved (CleanState.inFlight_of_lossy htrace) hstuck
    exact completed_of_returned_fin hserved (CleanState.system_of_lossy htrace) hfin

/-- The transfer of a file of four packets, the last one with one byte. -/
def fourPackets : Transfer := ⟨{ twoPackets with file := List.replicate 4225 0 }, smallClient, rfl⟩

/-- From any state of a lossy run the transfer can go on without another loss until nothing is left to do. -/
theorem LossyStage.goes_on {tr : Transfer} (ht : tr.server.Transferable) (hserved : tr.server.served = tr.server.file)
    {s : CleanState} {rank : ℕ} (h : LossyStage tr s rank) :
    ∃ as s' es, (lossyMachine tr).exec s as = some (s', es) ∧ as.countP LossyAction.isLoss = 0 ∧
      ∀ a : LossyAction, a.isLoss = false → s'.lossyStep tr a = none := by
  have hbound (as : List LossyAction) (s' : CleanState) (es : List SystemEvent)
      (hexec : ((lossyMachine tr).without LossyAction.isLoss).exec s as = some (s', es)) : as.length ≤ rank := by
    obtain ⟨hexec, hcount⟩ := EventMachine.exec_of_without hexec
    have hlength := EventMachine.exec_length_le_of_cost (I := LossyStage tr)
      (fun hstage hstep => hstage.step ht hserved hstep) h hexec
    rwa [hcount] at hlength
  obtain ⟨as, s', es, hexec, hstuck⟩ := EventMachine.exists_stuck hbound
  obtain ⟨hexec, hcount⟩ := EventMachine.exec_of_without hexec
  refine ⟨as, s', es, hexec, hcount, fun a ha => ?_⟩
  have hnone := hstuck a
  simp only [EventMachine.without, ha] at hnone
  exact hnone

/-- The transfer of four packets before its first step. -/
def lossyStart : CleanState :=
  ⟨⟨fourPackets.server.registeredState, ⟨ClientTransaction.initialVars none, false⟩, []⟩, [], []⟩

/-- Its first packet is full. -/
theorem fourPackets_dataLen : (fourPackets.server.dataLen 0).toNat ≤ sizeofPayload := by decide +kernel

/-- There is room for all of the file. -/
def ampleDisk : FileOps := ⟨true, true, 4225⟩

/-- A message of the server in flight reaches the client. -/
def lossyToClient (id : MessageId) : LossyAction := .toClient (fourPackets.server.received id) ampleDisk

/-- A message of the client in flight reaches the server, which runs `OnReceive` to its end. -/
def lossyToServer (id : MessageId) : List LossyAction :=
  [.toServer (fourPackets.server.reply id), .receiver, .receiver]

/-- The first packet arrives, and the second one is lost. -/
def losesSecond : List LossyAction :=
  List.flatten
    [List.replicate 2 .driver, [lossyToClient .ntf, .driver], lossyToServer .chk, List.replicate 4 .driver,
      [lossyToClient .info, .driver], lossyToServer .rdy, List.replicate 5 .driver, List.replicate 6 .sender,
      [.toClient (fourPackets.server.receivedData 0 (List.replicate 1408 0) fourPackets_dataLen) ampleDisk],
      List.replicate 6 .sender, [.lose]]

/-- The second packet of four is lost, and the transfer returns FIN. -/
theorem losses_repaired_fourPackets :
    ∃ as s es, (lossyMachine fourPackets).initial lossyStart ∧
      (lossyMachine fourPackets).exec lossyStart as = some (s, es) ∧ 0 < as.countP LossyAction.isLoss ∧
      .client (.verified fourPackets.server.file) ∈ es ∧ (∃ r, .server (.accepted .done r) ∈ es) ∧
      s.sys.server.driver = .returned .fin := by
  have hlength : fourPackets.server.file.length = 4225 := List.length_replicate
  have hserved : fourPackets.server.served = fourPackets.server.file :=
    ServerTransaction.served_eq (by rw [hlength]; decide)
  have ht : fourPackets.server.Transferable := by
    rw [ServerTransaction.Transferable, ServerTransaction.newFileSize_eq (by rw [hlength]; decide), hlength]
    decide
  have hinit : (lossyMachine fourPackets).initial lossyStart := ⟨⟨rfl, ⟨none, rfl⟩, rfl⟩, rfl, rfl⟩
  have hlost : ((lossyMachine fourPackets).exec lossyStart losesSecond).isSome = true := by decide +kernel
  obtain ⟨⟨s₁, es₁⟩, hexec₁⟩ := Option.isSome_iff_exists.mp hlost
  obtain ⟨rank, hstage⟩ := lossyStage_of_trace ht hserved (EventMachine.exec_trace hinit hexec₁)
  obtain ⟨as, s, es, hexec, -, hstuck⟩ := hstage.goes_on ht hserved
  have hall : (lossyMachine fourPackets).exec lossyStart (losesSecond ++ as) = some (s, es₁ ++ es) := by
    rw [EventMachine.exec_append, hexec₁]
    simp [hexec]
  obtain ⟨-, hcomplete⟩ := @losses_repaired fourPackets (by rw [hlength]; decide) (by rw [hlength]; decide)
    (by rw [hlength]; decide)
  refine ⟨_, s, _, hinit, hall, ?_, hcomplete _ s (EventMachine.exec_trace hinit hall) hstuck⟩
  rw [List.countP_append]
  exact Nat.add_pos_left (by decide) _

end Trftp
