import Trftp.System.Positions

/-!
# What both loops of the client know

As long as `Begin` stores true in `is_active_` only when the receive loop started before is over,
the main loop touches the members either alone, while it prepares the next transfer, or with its
store of CHK behind the start of the loop, which the loop cannot have passed. So every statement
of the receive loop finds the members as the one before has left them.
-/

namespace Trftp

open Lib (firstChunks)

/-- The receive loop refuses every message as long as the main loop has not stored CHK. -/
def LoopPos.early : LoopPos → Bool
  | .absent | .test | .receive | .timeoutStore | .timeoutDead | .timeoutSend => true
  | .onReceive pos _ => pos.early

/-- The receive loop comes to its end without another message. -/
def LoopPos.ending : LoopPos → Bool
  | .absent | .timeoutSend | .test => true
  | .receive | .timeoutStore | .timeoutDead => false
  | .onReceive pos _ => pos = .finCall ∨ pos = .send .cxl

/-- The message that the receive loop works on. -/
def LoopPos.message? : LoopPos → Option Received
  | .onReceive _ r => some r
  | .absent | .test | .receive | .timeoutStore | .timeoutDead | .timeoutSend => none

/-- The message that the main loop works on. -/
def MainPos.message? : MainPos → Option Received
  | .idle => none
  | .aliveTest r | .setActive r | .activeTest r | .reset _ r | .onReceive _ r => some r

/-- How many packets the file is ahead of the counter. -/
def LoopPos.uncounted (failed : Bool) : LoopPos → ℕ
  | .onReceive pos _ => pos.uncounted failed
  | .absent | .test | .receive | .timeoutStore | .timeoutDead | .timeoutSend => 0

/-- What holds at each position of the receive loop. -/
def LoopAt (t : ServerTransaction) (verified : Prop) (v : ClientVars) : LoopPos → Prop
  | .absent | .timeoutDead | .timeoutSend => v.status.Quiet
  | .test | .receive | .timeoutStore => v.isActive = true → Settled t v
  | .onReceive pos r => AtPos t verified v r pos ∧
      ∀ kind, pos.kind? = some kind → r.id? = some kind ∧ r.msg.intact r.len = true

/-- What holds at each position of the main loop: `Reset` and the branch for NTF prepare an untold
transaction. -/
def MainAt (t : ServerTransaction) (v : ClientVars) : MainPos → Prop
  | .idle | .aliveTest _ | .activeTest _ => True
  | .setActive _ => v.isActive = false
  | .reset .address _ | .reset .total _ | .reset .psn _ => True
  | .reset .close _ => v.packetSequenceNumber = 0
  | .reset .version _ | .reset .size _ | .reset .crc _ | .reset .join _ =>
    v.packetSequenceNumber = 0 ∧ v.newFileStream.isOpen = false
  | .onReceive .hear _ | .onReceive .check _ | .onReceive .ntfStatus _ | .onReceive .ntfVersion _ =>
    v.packetSequenceNumber = 0 ∧ v.newFileStream.isOpen = false
  | .onReceive .ntfJoin _ | .onReceive .ntfStart _ => Untold t v
  | .onReceive (.store .chk) _ => Untold t v ∧ (v.status = .ntf ∨ v.status = .cxl)
  | .onReceive _ _ => True

/-- How the members and the positions of both threads belong together. -/
structure ClientOk (t : ServerTransaction) (verified : Prop) (S : ClientProcess) : Prop where
  loop : LoopAt t verified S.vars S.loop
  main : MainAt t S.vars S.main
  dead : S.vars.isActive = false → S.vars.status.Quiet ∧ S.loop.ending = true
  chk : ∀ r, S.main = .onReceive (.store .chk) r → S.loop.early = true

namespace ClientOk

variable {t : ServerTransaction} {verified verified' : Prop} {S S' : ClientProcess} {c : ClientTransaction}
  {ops : FileOps} {e es : List ClientProcessEvent}

/-- The served file may have been verified since. -/
theorem mono (h : ClientOk t verified S) (hmono : verified → verified') : ClientOk t verified' S := by
  refine ⟨?_, h.main, h.dead, h.chk⟩
  have hloop := h.loop
  cases hpos : S.loop with
  | onReceive pos r =>
    rw [hpos] at hloop
    exact ⟨hloop.1.mono hmono, hloop.2⟩
  | _ =>
    rw [hpos] at hloop
    exact hloop

/-- While the receive loop is over the status says nothing about the file. -/
theorem quiet (h : ClientOk t verified S) (hover : S.loop.over = true) : S.vars.status.Quiet := by
  have hloop := h.loop
  cases hpos : S.loop <;> rw [hpos] at hloop hover <;> first | exact hloop | contradiction

/-- The receive loop has moved, and the main loop finds what it needs: it prepares nothing meanwhile, and what
it stores as CHK is still untold. -/
theorem loopMoves (hprep : S.main.Preparing → S.loop.over = true) (hover : S.loop.over = false)
    (h : ClientOk t verified S) {vars : ClientVars} {loop : LoopPos} (hloop : LoopAt t verified' vars loop)
    (hactive : vars.isActive = true → S.vars.isActive = true)
    (hdead : vars.isActive = false → vars.status.Quiet ∧ loop.ending = true)
    (hearly : S.loop.early = true → Untold t S.vars → S.vars.status = .ntf ∨ S.vars.status = .cxl →
      Untold t vars ∧ (vars.status = .ntf ∨ vars.status = .cxl) ∧ loop.early = true) :
    ClientOk t verified' { S with vars := vars, loop := loop } := by
  have hmain := h.main
  have hnot : ¬S.main.Preparing := fun hmain => by
    rw [hprep hmain] at hover
    contradiction
  refine ⟨hloop, ?_, hdead, fun r hpos => ?_⟩
  · cases hpos : S.main with
    | idle | aliveTest | activeTest => trivial
    | setActive r =>
      rw [hpos] at hmain
      have hnow : S.vars.isActive = false := hmain
      show vars.isActive = false
      by_contra hne
      rw [hactive (Bool.not_eq_false _ ▸ hne)] at hnow
      contradiction
    | reset pos r =>
      rw [hpos] at hnot
      exact absurd trivial hnot
    | onReceive pos r =>
      rw [hpos] at hnot hmain
      have hcases : pos = .store .chk ∨ pos = .send .chk := by
        by_contra hne
        exact hnot (not_or.mp hne)
      rcases hcases with rfl | rfl
      · obtain ⟨huntold, hstatus, -⟩ := hearly (h.chk r hpos) hmain.1 hmain.2
        exact ⟨huntold, hstatus⟩
      · trivial
  · rw [hpos] at hmain
    exact (hearly (h.chk r hpos) hmain.1 hmain.2).2.2

/-- A statement of `OnReceive` in the receive loop. -/
theorem receive (h : ClientOk t verified S) (hprep : S.main.Preparing → S.loop.over = true) {pos : ReceivePos}
    {r : Received} (hpos : S.loop = .onReceive pos r) (hheard : Heard t r) {vars : ClientVars}
    {x : List ClientEvent} {next : Option ReceivePos}
    (hstep : c.receiveStep r ops S.vars pos = some (vars, x, next)) :
    ClientOk t (verified ∨ .verified t.served ∈ x)
      { S with vars := vars, loop := next.elim .test (.onReceive · r) } := by
  have hover : S.loop.over = false := by
    rw [hpos]
    rfl
  have hloop := h.loop
  have hdead := h.dead
  rw [hpos] at hloop hdead
  obtain ⟨hat, hkind⟩ := hloop
  have hleads := ClientTransaction.receiveStep_leads hat hheard hkind hstep
  have hframe := ClientTransaction.receiveStep_frame hstep
  refine h.loopMoves hprep hover ?_ (fun halive => ?_) (fun hnot => ?_) fun hearly huntold hstatus => ?_
  · cases next with
    | none => exact hleads.settled rfl
    | some p => exact hleads.position p rfl
  · have hkept := hframe.isActive
    rw [halive] at hkept
    split_ifs at hkept
    exact hkept.symm
  · have hkept := hframe.isActive
    rw [hnot] at hkept
    split_ifs at hkept with hstores
    · rcases hstores with rfl | rfl
      · cases hstep
        exact ⟨hat, rfl⟩
      · cases hstep
        exact ⟨⟨by simp [hat.1], by simp [hat.1], by simp [hat.1]⟩, rfl⟩
    · obtain ⟨hquiet, hending⟩ := hdead hkept.symm
      have hlast : pos = .finCall ∨ pos = .send .cxl := of_decide_eq_true hending
      rcases hlast with rfl | rfl <;> cases hstep <;> exact ⟨hquiet, rfl⟩
  · rw [hpos] at hearly
    obtain ⟨huntold', hstatus', hnext⟩ :=
      ClientTransaction.receiveStep_early hearly huntold hstatus hheard hkind hstep
    refine ⟨huntold', hstatus', ?_⟩
    cases next with
    | none => rfl
    | some p => exact hnext p rfl

/-- An exception leaves a loop. -/
theorem throws (h : ClientOk t verified S) : ClientOk t verified { S with terminated := true } :=
  ⟨h.loop, h.main, h.dead, h.chk⟩

/-- A statement of the receive loop. -/
theorem loopStep (h : ClientOk t verified S) (hprep : S.main.Preparing → S.loop.over = true)
    (hheard : ∀ r, S.loop.message? = some r → Heard t r) (hstep : S.loopStep c ops = some (S', e)) :
    ClientOk t (verified ∨ .of .loop (.verified t.served) ∈ e) S' := by
  have hloop := h.loop
  have hdead := h.dead
  unfold ClientProcess.loopStep at hstep
  split at hstep
  case h_1 | h_3 => contradiction
  case h_2 hpos =>
    rw [hpos] at hloop
    have hover : S.loop.over = false := by
      rw [hpos]
      rfl
    split_ifs at hstep with hactive <;> cases hstep
    · exact h.loopMoves hprep hover hloop id (fun hnot => by rw [hactive] at hnot; contradiction)
        fun _ huntold hstatus => ⟨huntold, hstatus, rfl⟩
    · rw [Bool.not_eq_true] at hactive
      obtain ⟨hquiet, -⟩ := hdead hactive
      exact h.loopMoves hprep hover hquiet id (fun _ => ⟨hquiet, rfl⟩)
        fun _ huntold hstatus => ⟨huntold, hstatus, rfl⟩
  case h_4 hpos =>
    rw [hpos] at hdead
    have hover : S.loop.over = false := by
      rw [hpos]
      rfl
    cases hstep
    refine h.loopMoves hprep hover (show MessageId.Quiet .cxl by decide) id (fun hnot => ?_) fun _ huntold _ => ?_
    · exact absurd (hdead hnot).2 (by simp [LoopPos.ending])
    · exact ⟨⟨huntold.version, huntold.closed, huntold.psn⟩, Or.inr rfl, rfl⟩
  case h_5 hpos =>
    rw [hpos] at hloop
    have hover : S.loop.over = false := by
      rw [hpos]
      rfl
    cases hstep
    refine h.loopMoves hprep hover hloop (fun halive => by contradiction) (fun _ => ⟨hloop, rfl⟩)
      fun _ huntold hstatus => ?_
    exact ⟨⟨huntold.version, huntold.closed, huntold.psn⟩, hstatus, rfl⟩
  case h_6 hpos =>
    rw [hpos] at hloop
    cases hstep
    exact ⟨hloop, h.main, fun hnot => ⟨(hdead hnot).1, rfl⟩, fun _ _ => rfl⟩
  case h_7 pos r hpos =>
    unfold ClientProcess.loopReceive at hstep
    split at hstep
    · split_ifs at hstep
      cases hstep
      exact (h.mono Or.inl).throws
    · contradiction
    · split at hstep
      · cases hstep
        exact (h.mono Or.inl).throws
      · rename_i vars x next hreceive
        cases hstep
        refine (h.receive hprep hpos (hheard r (by rw [hpos]; rfl)) hreceive).mono (Or.imp_right fun hmem => ?_)
        exact List.mem_append_right _ (List.mem_map_of_mem hmem)

/-- The receive loop waits for a message or is handed one. -/
theorem alive_of_receive (h : ClientOk t verified S) (hpos : S.loop = .receive) : S.vars.isActive = true := by
  by_contra hnot
  rw [Bool.not_eq_true] at hnot
  have hending := (h.dead hnot).2
  rw [hpos] at hending
  contradiction

/-- The receive loop takes a datagram. -/
theorem loopDatagram (h : ClientOk t verified S) (hprep : S.main.Preparing → S.loop.over = true)
    (hpos : S.loop = .receive) (r : Received) : ClientOk t verified { S with loop := .onReceive .hear r } := by
  have halive := h.alive_of_receive hpos
  have hloop := h.loop
  rw [hpos] at hloop
  refine h.loopMoves hprep (by rw [hpos]; rfl) ⟨hloop halive, fun _ hkind => by contradiction⟩ id (fun hnot => ?_)
    fun _ huntold hstatus => ⟨huntold, hstatus, rfl⟩
  rw [halive] at hnot
  contradiction

/-- The receive loop times out. -/
theorem loopTimeout (h : ClientOk t verified S) (hprep : S.main.Preparing → S.loop.over = true)
    (hpos : S.loop = .receive) : ClientOk t verified { S with loop := .timeoutStore } := by
  have halive := h.alive_of_receive hpos
  have hloop := h.loop
  rw [hpos] at hloop
  refine h.loopMoves hprep (by rw [hpos]; rfl) hloop id (fun hnot => ?_)
    fun _ huntold hstatus => ⟨huntold, hstatus, rfl⟩
  rw [halive] at hnot
  contradiction

/-- The main loop moves and touches no member. -/
theorem mainMoves (h : ClientOk t verified S) {next : MainPos} (hmain : MainAt t S.vars next)
    (hchk : ∀ r, next ≠ .onReceive (.store .chk) r) : ClientOk t verified { S with main := next } :=
  ⟨h.loop, hmain, h.dead, fun r hpos => absurd hpos (hchk r)⟩

/-- The main loop touches the members while the receive loop is over. -/
theorem prepares (hover : S.loop.over = true) {vars : ClientVars} {next : MainPos} (hquiet : vars.status.Quiet)
    (hmain : MainAt t vars next) : ClientOk t verified { S with vars := vars, main := next } := by
  have hcases : S.loop = .absent ∨ S.loop = .timeoutSend := by
    cases hpos : S.loop <;> rw [hpos] at hover <;> first | contradiction | simp
  refine ⟨?_, hmain, fun _ => ⟨hquiet, ?_⟩, fun _ _ => ?_⟩ <;> rcases hcases with hpos | hpos <;>
    simp only [hpos] <;> first | rfl | exact hquiet

/-- The main loop joins the receive loop. -/
theorem join (h : ClientOk t verified S) (hover : S.loop.over = true) {next : MainPos}
    (hmain : ∀ joinable, MainAt t { S.vars with joinable := joinable } next)
    (hstep : S.join next = some (S', e)) : ClientOk t verified S' := by
  have hquiet := h.quiet hover
  unfold ClientProcess.join at hstep
  split_ifs at hstep <;> cases hstep
  · exact prepares hover hquiet (hmain false)
  · exact prepares hover hquiet (hmain S.vars.joinable)

/-- The receive loop is started for an untold transaction. -/
theorem start (huntold : Untold t S.vars) (hstatus : S.vars.status = .ntf) (r : Received) :
    ClientOk t verified
      { S with vars := { S.vars with joinable := true }, main := .onReceive (.store .chk) r, loop := .test } := by
  have huntold' : Untold t { S.vars with joinable := true } := ⟨huntold.version, huntold.closed, huntold.psn⟩
  refine ⟨fun _ => .of_untold huntold' (Or.inl hstatus), ⟨huntold', Or.inl hstatus⟩, fun _ => ⟨?_, rfl⟩,
    fun _ _ => rfl⟩
  simp only [hstatus]
  decide

/-- The main loop stores CHK. -/
theorem storeChk (h : ClientOk t verified S) {r : Received} (hpos : S.main = .onReceive (.store .chk) r) :
    ClientOk t verified
      { S with vars := { S.vars with status := .chk }, main := .onReceive (.send .chk) r } := by
  have hmain := h.main
  have hearly := h.chk r hpos
  have hloop := h.loop
  rw [hpos] at hmain
  obtain ⟨huntold, -⟩ := hmain
  have hquiet : MessageId.Quiet .chk := by decide
  have huntold' : Untold t { S.vars with status := .chk } := ⟨huntold.version, huntold.closed, huntold.psn⟩
  refine ⟨?_, trivial, fun hnot => ⟨hquiet, (h.dead hnot).2⟩, fun r hpos => by simp at hpos⟩
  show LoopAt t verified { S.vars with status := .chk } S.loop
  cases hloopPos : S.loop with
  | absent | timeoutDead | timeoutSend => exact hquiet
  | test | receive | timeoutStore => exact fun _ => .of_untold huntold' (Or.inr rfl)
  | onReceive pos r' =>
    rw [hloopPos] at hearly hloop
    exact ⟨hloop.1.storeChk hearly huntold, hloop.2⟩

/-- A statement of `OnReceive` in the main loop. -/
theorem mainReceive (h : ClientOk t verified S) (hinv : ClientProcess.TransferInv es S) {pos : ReceivePos}
    {r : Received} (hpos : S.main = .onReceive pos r) (hntf : r.id? = some .ntf ∧ pos.ofNtf = true) (hheard : Heard t r)
    (hstep : S.mainReceive c ops pos r = some (S', e)) : ClientOk t verified S' := by
  have hmain := h.main
  have hprep := hinv.preparing
  have hfresh := hinv.fresh
  rw [hpos] at hmain hprep hfresh
  cases pos with
  | ntfJoin =>
    have huntold : Untold t S.vars := hmain
    have hnext : ∀ joinable, MainAt t { S.vars with joinable := joinable } (.onReceive .ntfStart r) :=
      fun _ => ⟨huntold.version, huntold.closed, huntold.psn⟩
    exact h.join (hprep (by simp [MainPos.Preparing])) hnext hstep
  | ntfStart =>
    cases hstep
    exact start hmain (hfresh rfl) r
  | hear =>
    have hover := hprep (by simp [MainPos.Preparing])
    cases hstep
    exact prepares hover (h.quiet hover) hmain
  | check =>
    have hover := hprep (by simp [MainPos.Preparing])
    have hnext : MainAt t S.vars ((ClientTransaction.branch r).elim .idle (.onReceive · r)) := by
      unfold ClientTransaction.branch
      simp only [hntf.1]
      split_ifs
      · trivial
      · exact hmain
    simp only [ClientProcess.mainReceive, ClientTransaction.receiveStep] at hstep
    split at hstep
    · rename_i hreceive
      split_ifs at hreceive
    · rename_i hreceive
      split_ifs at hreceive <;> cases hreceive <;> cases hstep
      · exact prepares hover (h.quiet hover) trivial
      · exact prepares hover (h.quiet hover) hnext
  | ntfStatus =>
    cases hstep
    exact prepares (hprep (by simp [MainPos.Preparing])) (show MessageId.Quiet .ntf by decide) hmain
  | ntfVersion =>
    have hover := hprep (by simp [MainPos.Preparing])
    have hnext : Untold t { S.vars with newFileVersion := r.msg.ntf.newFileVersion } :=
      ⟨(hheard.ntf hntf.1).word 0 _ rfl, hmain.2, hmain.1⟩
    cases hstep
    exact prepares hover (h.quiet hover) hnext
  | store id =>
    have hkind : id = .chk ∨ id = .cxl := of_decide_eq_true hntf.2
    rcases hkind with rfl | rfl
    · cases hstep
      exact h.storeChk hpos
    · cases hstep
      exact prepares (hprep (by simp [MainPos.Preparing])) (show MessageId.Quiet .cxl by decide) trivial
  | dead =>
    have hover := hprep (by simp [MainPos.Preparing])
    cases hstep
    exact prepares hover (h.quiet hover) trivial
  | send id =>
    cases hstep
    exact h.mainMoves trivial fun _ hnext => by contradiction
  | infoTest | infoMatch | infoStatus | infoSize | infoCrc | infoTotal | infoOpen | infoOpened => cases hntf.2
  | dataTest | dataLength | dataNumber | dataWrite | dataWritten | dataStatus | dataCount => cases hntf.2
  | dataLast | dataClose | dataSize | dataCrc | finTest | finStatus | finDead | finCall => cases hntf.2
  | cxlOpen | cxlClose | cxlRemove | cxlStatus => cases hntf.2

/-- A statement of `Reset` leaves the status alone, and prepares the members for the next one. -/
theorem reset_prepares (ops : FileOps) {v : ClientVars} {pos : ResetPos} {r : Received}
    (hmain : MainAt t v (.reset pos r)) (hpos : pos ≠ .join) :
    (ClientTransaction.resetStep ops v pos).1.status = v.status ∧
      MainAt t (ClientTransaction.resetStep ops v pos).1 (.reset (ClientTransaction.resetStep ops v pos).2 r) := by
  cases pos with
  | address | total => exact ⟨rfl, trivial⟩
  | psn => exact ⟨rfl, rfl⟩
  | close =>
    have hclosed : (v.closeStream ops).newFileStream.isOpen = false := by
      unfold ClientVars.closeStream
      split_ifs with hopen
      · rfl
      · simpa using hopen
    rw [ClientTransaction.resetStep, ClientVars.closeStream_eq]
    exact ⟨rfl, hmain, hclosed⟩
  | version | size | crc => exact ⟨rfl, hmain⟩
  | join => exact absurd rfl hpos

/-- A statement of the main loop, as long as `Begin` stores true only behind the end of the receive loop. -/
theorem mainStep (h : ClientOk t verified S) (halive : ClientProcess.AliveInv es S)
    (hinv : ClientProcess.TransferInv es S) (hheard : ∀ r, S.main.message? = some r → Heard t r)
    (hclean : .begun false ∉ e) (hstep : S.mainStep c ops = some (S', e)) : ClientOk t verified S' := by
  have hmain := h.main
  have hprep := hinv.preparing
  have hok := halive.main
  unfold ClientProcess.mainStep at hstep
  split at hstep
  case h_1 => contradiction
  case h_2 r hpos =>
    split_ifs at hstep with hactive <;> cases hstep
    · exact h.mainMoves trivial fun _ hnext => by contradiction
    · rw [Bool.not_eq_true] at hactive
      exact h.mainMoves hactive fun _ hnext => by contradiction
  case h_3 r hpos =>
    rw [hpos] at hmain
    split_ifs at hstep <;> cases hstep
    · have hover : S.loop.over = true := by simpa using hclean
      exact prepares hover (h.quiet hover) trivial
    · have hsame : { S.vars with isActive := false } = S.vars := by
        rw [← show S.vars.isActive = false from hmain]
      rw [hsame]
      exact h.mainMoves trivial fun _ hnext => by contradiction
  case h_4 r hpos =>
    split_ifs at hstep <;> cases hstep
    · exact h.mainMoves trivial fun _ hnext => by contradiction
    · exact h.mainMoves trivial fun _ hnext => by contradiction
  case h_5 r hpos =>
    rw [hpos] at hmain hprep
    have hnext : ∀ joinable, MainAt t { S.vars with joinable := joinable } (.onReceive .hear r) := fun _ => hmain
    exact h.join (hprep trivial) hnext hstep
  case h_6 pos r hjoin hpos =>
    rw [hpos] at hmain hprep
    obtain ⟨hstatus, hnext⟩ := reset_prepares ops hmain hjoin
    have hover := hprep trivial
    cases hstep
    exact prepares hover (hstatus ▸ h.quiet hover) hnext
  case h_7 pos r hpos =>
    rw [hpos] at hok
    exact h.mainReceive hinv hpos hok (hheard r (by rw [hpos]; rfl)) hstep

/-- Every step of the client, as long as `Begin` stores true only behind the end of the receive loop. -/
theorem step (h : ClientOk t verified S) (halive : ClientProcess.AliveInv es S)
    (hinv : ClientProcess.TransferInv es S)
    (hheard : ∀ r, S.main.message? = some r ∨ S.loop.message? = some r → Heard t r)
    (hclean : .begun false ∉ e) {a : ClientProcessAction} (hstep : S.step c a = some (S', e)) :
    ClientOk t (verified ∨ .of .loop (.verified t.served) ∈ e) S' := by
  cases a with
  | mainDatagram buffer d =>
    simp only [ClientProcess.step] at hstep
    split_ifs at hstep with hidle
    split at hstep <;> cases hstep
    · exact (h.mono Or.inl).throws
    · exact (h.mono Or.inl).mainMoves trivial fun _ hnext => by contradiction
  | loopDatagram buffer d =>
    simp only [ClientProcess.step] at hstep
    split_ifs at hstep with hwaiting
    rw [not_or, not_not] at hwaiting
    split at hstep <;> cases hstep
    · exact (h.mono Or.inl).throws
    · exact (h.mono Or.inl).loopDatagram hinv.preparing hwaiting.2 _
  | loopTimeout =>
    simp only [ClientProcess.step] at hstep
    split_ifs at hstep with hwaiting
    rw [not_or, not_not] at hwaiting
    cases hstep
    exact (h.mono Or.inl).loopTimeout hinv.preparing hwaiting.2
  | main ops =>
    simp only [ClientProcess.step] at hstep
    split_ifs at hstep
    exact (h.mainStep halive hinv (fun r hr => hheard r (Or.inl hr)) hclean hstep).mono Or.inl
  | loop ops =>
    simp only [ClientProcess.step] at hstep
    split_ifs at hstep
    exact h.loopStep hinv.preparing (fun r hr => hheard r (Or.inr hr)) hstep

/-- What the bytes written are at each statement of either loop. -/
theorem written (h : ClientOk t verified S) :
    (S.vars.status = .rdy ∨ S.vars.status = .data → Announces t S.vars ∧ S.vars.newFileStream.written =
      firstChunks sizeofPayload t.served
        (S.vars.packetSequenceNumber.toNat + S.loop.uncounted S.vars.newFileStream.failed)) ∧
    (S.vars.status = .done → Delivered t S.vars) := by
  have hloop := h.loop
  cases hpos : S.loop with
  | absent | timeoutDead | timeoutSend =>
    rw [hpos] at hloop
    have hshown : Shown t S.vars := .of_quiet hloop
    exact ⟨hshown.data, hshown.done⟩
  | test | receive | timeoutStore =>
    rw [hpos] at hloop
    have hshown : Shown t S.vars := by
      by_cases halive : S.vars.isActive = true
      · exact Settled.shown (hloop halive)
      · rw [Bool.not_eq_true] at halive
        exact .of_quiet (h.dead halive).1
    exact ⟨hshown.data, hshown.done⟩
  | onReceive pos r =>
    rw [hpos] at hloop
    exact hloop.1.written

end ClientOk

/-- What an event of the transaction says to the server and to the user: DONE goes out behind the verification of
the served file, and a file is handed over on FIN, with the version of the served file. -/
structure ClientShows (c : ClientTransaction) (t : ServerTransaction) (verified : Prop) (S : ClientProcess)
    (x : ClientEvent) : Prop where
  sent : ∀ id p, x = .sent id p → p = c.packet S.vars id ∧
    ((id = .chk ∨ id = .rdy ∨ id = .rtx ∨ id = .cxl) ∨ (id = .done ∧ Delivered t S.vars ∧ verified))
  handed : ∀ file version, x = .fileReceived file version →
    (∃ r, S.loop = .onReceive .finCall r) ∧ version = t.newFileVersion

namespace ClientProcess

variable {t : ServerTransaction} {verified : Prop} {S S' : ClientProcess} {c : ClientTransaction}
  {ops : FileOps} {e es : List ClientProcessEvent} {thread : ClientThread} {x : ClientEvent}

/-- An event of the transaction behind others is one of the function that was called. -/
theorem mem_of_shown {front : List ClientProcessEvent} {y : List ClientEvent} {thread' : ClientThread}
    (hfront : .of thread x ∉ front) (hmem : .of thread x ∈ front ++ y.map (.of thread')) : x ∈ y := by
  obtain ⟨z, hz, heq⟩ := List.mem_map.mp ((List.mem_append.mp hmem).resolve_left hfront)
  cases heq
  exact hz

/-- The main loop sends CHK and CXL, and shows nothing else of the transaction. -/
theorem mainStep_shows (halive : ClientProcess.AliveInv es S) (hstep : S.mainStep c ops = some (S', e))
    (hmem : .of thread x ∈ e) : ClientShows c t verified S x := by
  have hok := halive.main
  unfold mainStep at hstep
  split at hstep
  case h_1 => contradiction
  case h_2 | h_3 | h_4 =>
    split_ifs at hstep <;> cases hstep <;> simp at hmem
  case h_5 =>
    unfold join at hstep
    split_ifs at hstep <;> cases hstep <;> contradiction
  case h_6 =>
    cases hstep
    contradiction
  case h_7 pos r hpos =>
    rw [hpos] at hok
    obtain ⟨-, hntf⟩ := hok
    unfold mainReceive at hstep
    split at hstep
    · unfold join at hstep
      split_ifs at hstep <;> cases hstep <;> contradiction
    · cases hstep
      simp at hmem
    · split at hstep
      · cases hstep
        simp at hmem
      · rename_i vars y next hreceive
        cases hstep
        have hy : x ∈ y := mem_of_shown (fun hfront => by split_ifs at hfront <;> simp at hfront) hmem
        rcases (ClientTransaction.receiveStep_ends hreceive).events with rfl | ⟨z, rfl, hz⟩
        · contradiction
        · cases List.mem_singleton.mp hy
          rcases hz with ⟨id, rfl, rfl⟩ | ⟨rfl, -⟩ | ⟨hsent, hreceived⟩
          · have hkind : id = .chk ∨ id = .cxl := of_decide_eq_true hntf
            refine ⟨fun id' p heq => ?_, fun file version heq => by contradiction⟩
            cases heq
            exact ⟨rfl, Or.inl (hkind.imp_right fun h => Or.inr (Or.inr h))⟩
          · contradiction
          · exact ⟨fun id p heq => absurd heq (hsent id p),
              fun file version heq => absurd heq (hreceived file version)⟩

/-- What the receive loop shows. -/
theorem loopStep_shows (h : ClientOk t verified S) (hstep : S.loopStep c ops = some (S', e))
    (hmem : .of thread x ∈ e) : ClientShows c t verified S x := by
  have hloop := h.loop
  unfold loopStep at hstep
  split at hstep
  case h_1 | h_3 => contradiction
  case h_2 => split_ifs at hstep <;> cases hstep <;> contradiction
  case h_4 | h_5 =>
    cases hstep
    contradiction
  case h_6 =>
    cases hstep
    cases List.mem_singleton.mp hmem
    refine ⟨fun id p heq => ?_, fun file version heq => by contradiction⟩
    cases heq
    exact ⟨rfl, Or.inl (by simp)⟩
  case h_7 pos r hpos =>
    rw [hpos] at hloop
    obtain ⟨hat, -⟩ := hloop
    unfold loopReceive at hstep
    split at hstep
    · split_ifs at hstep
      cases hstep
      simp at hmem
    · contradiction
    · split at hstep
      · cases hstep
        simp at hmem
      · rename_i vars y next hreceive
        cases hstep
        have hy : x ∈ y := mem_of_shown (fun hfront => by split_ifs at hfront <;> simp at hfront) hmem
        constructor
        · rintro id p rfl
          obtain ⟨hpacket, hcase⟩ := ClientTransaction.receiveStep_sent hat hreceive hy
          exact ⟨hpacket, hcase.imp_left Or.inr⟩
        · rintro file version rfl
          obtain ⟨rfl, hversion⟩ := ClientTransaction.receiveStep_fileReceived hat hreceive hy
          exact ⟨⟨r, hpos⟩, hversion⟩

/-- What a step of the client shows. -/
theorem step_shows (h : ClientOk t verified S) (halive : ClientProcess.AliveInv es S) {a : ClientProcessAction}
    (hstep : S.step c a = some (S', e)) (hmem : .of thread x ∈ e) : ClientShows c t verified S x := by
  cases a with
  | mainDatagram buffer d | loopDatagram buffer d =>
    simp only [step] at hstep
    split_ifs at hstep
    split at hstep <;> cases hstep <;> simp at hmem
  | loopTimeout =>
    simp only [step] at hstep
    split_ifs at hstep
    cases hstep
    contradiction
  | main ops =>
    simp only [step] at hstep
    split_ifs at hstep
    exact mainStep_shows halive hstep hmem
  | loop ops =>
    simp only [step] at hstep
    split_ifs at hstep
    exact loopStep_shows h hstep hmem

/-- The main loop works on one message until it is done with it. -/
theorem mainStep_message (hstep : S.mainStep c ops = some (S', e)) {r : Received}
    (hr : S'.main.message? = some r ∨ S'.loop.message? = some r) :
    S.main.message? = some r ∨ S.loop.message? = some r := by
  have hjoin {next : MainPos} {r' : Received} (hnext : next.message? = some r') (hmain : S.main.message? = some r')
      (hstep : S.join next = some (S', e)) : S.main.message? = some r ∨ S.loop.message? = some r := by
    unfold join at hstep
    split_ifs at hstep <;> cases hstep <;> exact hr.imp_left fun h => by rw [hmain, ← hnext, h]
  unfold mainStep at hstep
  split at hstep
  case h_1 => contradiction
  case h_2 r' hpos | h_3 r' hpos | h_4 r' hpos =>
    split_ifs at hstep <;> cases hstep <;> refine hr.imp_left fun h => ?_ <;> rw [hpos] <;>
      first | contradiction | exact h
  case h_5 r' hpos => exact hjoin rfl (by rw [hpos]; rfl) hstep
  case h_6 r' _ hpos =>
    cases hstep
    exact hr.imp_left fun h => by rw [hpos]; exact h
  case h_7 pos r' hpos =>
    unfold mainReceive at hstep
    split at hstep
    · exact hjoin rfl (by rw [hpos]; rfl) hstep
    · cases hstep
      exact hr.imp (fun h => by rw [hpos]; exact h) fun h => by contradiction
    · split at hstep
      · cases hstep
        exact hr
      · rename_i next _
        cases hstep
        refine hr.imp_left fun h => ?_
        cases next with
        | none => contradiction
        | some p =>
          rw [hpos]
          exact h

/-- So does the receive loop. -/
theorem loopStep_message (hstep : S.loopStep c ops = some (S', e)) {r : Received}
    (hr : S'.main.message? = some r ∨ S'.loop.message? = some r) :
    S.main.message? = some r ∨ S.loop.message? = some r := by
  unfold loopStep at hstep
  split at hstep
  case h_1 | h_3 => contradiction
  case h_2 => split_ifs at hstep <;> cases hstep <;> exact hr.imp_right fun h => by contradiction
  case h_4 | h_5 | h_6 =>
    cases hstep
    exact hr.imp_right fun h => by contradiction
  case h_7 pos r' hpos =>
    unfold loopReceive at hstep
    split at hstep
    · split_ifs at hstep
      cases hstep
      exact hr
    · contradiction
    · split at hstep
      · cases hstep
        exact hr
      · rename_i next _
        cases hstep
        refine hr.imp_right fun h => ?_
        cases next with
        | none => contradiction
        | some p =>
          rw [hpos]
          exact h

/-- Only a delivery brings a message to a loop. -/
theorem step_message {a : ClientProcessAction} (hstep : S.step c a = some (S', e)) {r : Received}
    (hr : S'.main.message? = some r ∨ S'.loop.message? = some r) :
    (S.main.message? = some r ∨ S.loop.message? = some r) ∨
      ∃ buffer d, a.datagram? = some d ∧ udpReceive buffer d = some r := by
  cases a with
  | mainDatagram buffer d =>
    simp only [step] at hstep
    split_ifs at hstep
    split at hstep <;> cases hstep
    · exact Or.inl hr
    · rename_i r' hreceive
      rcases hr with hr | hr
      · cases hr
        exact Or.inr ⟨buffer, d, rfl, hreceive⟩
      · exact Or.inl (Or.inr hr)
  | loopDatagram buffer d =>
    simp only [step] at hstep
    split_ifs at hstep
    split at hstep <;> cases hstep
    · exact Or.inl hr
    · rename_i r' hreceive
      rcases hr with hr | hr
      · exact Or.inl (Or.inl hr)
      · cases hr
        exact Or.inr ⟨buffer, d, rfl, hreceive⟩
  | loopTimeout =>
    simp only [step] at hstep
    split_ifs at hstep
    cases hstep
    exact Or.inl (hr.imp_right fun h => by contradiction)
  | main ops =>
    simp only [step] at hstep
    split_ifs at hstep
    exact Or.inl (mainStep_message hstep hr)
  | loop ops =>
    simp only [step] at hstep
    split_ifs at hstep
    exact Or.inl (loopStep_message hstep hr)

end ClientProcess

end Trftp
