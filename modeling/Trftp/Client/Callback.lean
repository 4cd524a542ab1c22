import Trftp.Client.Transfers
import Trftp.Client.Verified

/-!
# To which transfer does the callback belong?

The branch for FIN stores false in `is_active_` before it calls `OnFileReceived`, and a receive
loop that was cancelled looks at `is_active_` once more before it ends. In between the main loop
may take a new NTF: `Begin` stores true, and `Reset` clears the version, before it waits for the
old loop. The old loop then passes on a version that is not its own, and goes on receiving. As
long as `Begin` stores true only when the old loop is over, none of this happens.
-/

namespace Trftp

open Lib (EventMachine InOrder EachWithPast)

/-- The events of the main loop that say nothing about a transfer. -/
def ClientProcessEvent.ofMain : ClientProcessEvent → Bool
  | .received .main _ _ | .begun _ | .rejected _ | .of .main (.sent _ _) => true
  | _ => false

/-- The main loop prepares the start of a receive loop. -/
def MainPos.Preparing : MainPos → Prop
  | .activeTest r => r.id? = some .ntf
  | .reset _ _ => True
  | .onReceive pos _ => pos ≠ .store .chk ∧ pos ≠ .send .chk
  | .idle | .aliveTest _ | .setActive _ => False

/-- The positions in the branch for NTF behind `status_ = id`, up to the start. -/
def ReceivePos.fresh : ReceivePos → Bool
  | .ntfVersion | .ntfJoin | .ntfStart => true
  | .hear | .check | .ntfStatus | .store _ | .dead | .send _ => false
  | .infoTest | .infoMatch | .infoStatus | .infoSize | .infoCrc | .infoTotal | .infoOpen | .infoOpened => false
  | .dataTest | .dataLength | .dataNumber | .dataWrite | .dataWritten | .dataStatus | .dataCount => false
  | .dataLast | .dataClose | .dataSize | .dataCrc | .finTest | .finStatus | .finDead | .finCall => false
  | .cxlOpen | .cxlClose | .cxlRemove | .cxlStatus => false

/-- A transaction whose loop is about to be started is in NTF. -/
def MainPos.Fresh (status : MessageId) : MainPos → Prop
  | .onReceive pos _ => pos.fresh = true → status = .ntf
  | .idle | .aliveTest _ | .setActive _ | .activeTest _ | .reset _ _ => True

namespace ClientProcess

variable {c : ClientTransaction} {S S' : ClientProcess} {ops : FileOps} {e es : List ClientProcessEvent}

/-- A statement of the main loop that does not start a receive loop. -/
structure MainMoves (S S' : ClientProcess) (e : List ClientProcessEvent) : Prop where
  loop : S'.loop = S.loop
  quiet : ∀ x ∈ e, x.ofMain = true
  keeps : S.loop.over = false → MainKeeps S.vars S'.vars
  preparing : S'.main.Preparing → S.loop.over = true
  fresh : S'.main.Fresh S'.vars.status

/-- Joining touches no member that a transfer goes by. -/
theorem join_moves {next : MainPos} (hprep : S.main.Preparing → S.loop.over = true) (hmain : S.main.Preparing)
    (hfresh : next.Fresh S.vars.status) (h : S.join next = some (S', e)) : MainMoves S S' e := by
  have hover := hprep hmain
  unfold join at h
  split_ifs at h <;> cases h <;>
    exact ⟨rfl, by simp, fun hrunning => absurd hover (by rw [hrunning]; simp), fun _ => hover, hfresh⟩

/-- While the receive loop is over, the main loop may assign all members. -/
theorem mainMoves_of_over (hover : S.loop.over = true) {vars : ClientVars} {next : MainPos}
    (hquiet : ∀ x ∈ e, x.ofMain = true) (hfresh : next.Fresh vars.status) :
    MainMoves S { S with vars := vars, main := next } e :=
  ⟨rfl, hquiet, fun hrunning => absurd hover (by rw [hrunning]; simp), fun _ => hover, hfresh⟩

/-- A statement of `OnReceive` in the main loop. -/
theorem mainReceive_moves {pos : ReceivePos} {r : Received} (hpos : S.main = .onReceive pos r)
    (hntf : r.id? = some .ntf ∧ pos.ofNtf = true) (hprep : S.main.Preparing → S.loop.over = true)
    (hfresh : S.main.Fresh S.vars.status) (hstart : pos ≠ .ntfStart)
    (h : S.mainReceive c ops pos r = some (S', e)) : MainMoves S S' e := by
  rw [hpos] at hprep hfresh
  cases pos with
  | ntfJoin =>
    have hnext : MainPos.Fresh S.vars.status (.onReceive .ntfStart r) := fun _ => hfresh rfl
    exact join_moves (hpos ▸ hprep) (by rw [hpos]; simp [MainPos.Preparing]) hnext h
  | ntfStart => exact absurd rfl hstart
  | hear | dead =>
    cases h
    exact mainMoves_of_over (hprep (by simp [MainPos.Preparing])) (by simp)
      (by simp [MainPos.Fresh, ReceivePos.fresh])
  | ntfStatus =>
    cases h
    exact mainMoves_of_over (hprep (by simp [MainPos.Preparing])) (by simp) fun _ => rfl
  | ntfVersion =>
    cases h
    exact mainMoves_of_over (hprep (by simp [MainPos.Preparing])) (by simp) fun _ => hfresh rfl
  | check =>
    have hover := hprep (by simp [MainPos.Preparing])
    have hbranch : ∀ next, ClientTransaction.branch r = next →
        MainPos.Fresh S.vars.status (next.elim .idle (.onReceive · r)) := by
      intro next hnext
      cases next with
      | none => trivial
      | some p =>
        rcases ClientTransaction.branch_cases hnext with rfl | rfl | rfl | rfl | rfl | rfl <;>
          exact fun hfresh => by contradiction
    simp only [mainReceive, ClientTransaction.receiveStep] at h
    by_cases hvalid : ClientTransaction.validateMessageIntegrity r.msg r.len = true
    · rw [hvalid] at h
      cases h
      exact mainMoves_of_over hover (by simp) (hbranch _ rfl)
    · rw [Bool.not_eq_true] at hvalid
      rw [hvalid] at h
      cases h
      exact mainMoves_of_over hover (by simp [ClientProcessEvent.ofMain]) trivial
  | store id =>
    have hkind : id = .chk ∨ id = .cxl := of_decide_eq_true hntf.2
    cases h
    rcases hkind with rfl | rfl
    · refine ⟨rfl, by simp, fun _ => ⟨rfl, rfl, rfl, Or.inr rfl, id⟩, ?_, ?_⟩
      · simp [MainPos.Preparing]
      · simp [MainPos.Fresh, ReceivePos.fresh]
    · exact mainMoves_of_over (hprep (by simp [MainPos.Preparing])) (by simp)
        (by simp [MainPos.Fresh, ReceivePos.fresh])
  | send id =>
    have hkind : id = .chk ∨ id = .cxl := of_decide_eq_true hntf.2
    cases h
    refine ⟨rfl, by simp [ClientProcessEvent.ofMain], fun _ => ⟨rfl, rfl, rfl, Or.inl rfl, fun h => h⟩, ?_, ?_⟩
    · simp [MainPos.Preparing]
    · simp [MainPos.Fresh]
  | infoTest | infoMatch | infoStatus | infoSize | infoCrc | infoTotal | infoOpen | infoOpened => cases hntf.2
  | dataTest | dataLength | dataNumber | dataWrite | dataWritten | dataStatus | dataCount => cases hntf.2
  | dataLast | dataClose | dataSize | dataCrc | finTest | finStatus | finDead | finCall => cases hntf.2
  | cxlOpen | cxlClose | cxlRemove | cxlStatus => cases hntf.2

/-- A statement of the main loop starts a receive loop, or moves as said; `Begin` is asked to store true only
when the receive loop is over. -/
theorem mainStep_moves (halive : AliveInv es S) (hprep : S.main.Preparing → S.loop.over = true)
    (hfresh : S.main.Fresh S.vars.status) (hclean : .begun false ∉ e) (h : S.mainStep c ops = some (S', e)) :
    (∃ r, S.main = .onReceive .ntfStart r) ∨ MainMoves S S' e := by
  have hmain := halive.main
  unfold mainStep at h
  split at h
  case h_1 => contradiction
  case h_2 r hpos =>
    right
    split_ifs at h <;> cases h <;>
      exact ⟨rfl, by simp, fun _ => ⟨rfl, rfl, rfl, Or.inl rfl, fun h => h⟩, by simp [MainPos.Preparing],
        by simp [MainPos.Fresh]⟩
  case h_3 r hpos =>
    right
    split_ifs at h with hid <;> cases h
    · have hover : S.loop.over = true := by simpa using hclean
      exact mainMoves_of_over hover (by simp [ClientProcessEvent.ofMain]) (by simp [MainPos.Fresh])
    · refine ⟨rfl, by simp, fun _ => ⟨rfl, rfl, rfl, Or.inl rfl, ?_⟩, ?_, by simp [MainPos.Fresh]⟩
      · exact fun hactive => by contradiction
      · exact fun hntf => absurd hntf hid
  case h_4 r hpos =>
    right
    rw [hpos] at hmain hprep
    split_ifs at h with hactive <;> cases h
    · have hid : r.id? = some .ntf := hmain.resolve_right (by rw [hactive]; simp)
      exact mainMoves_of_over (hprep hid) (by simp) (by simp [MainPos.Fresh])
    · exact ⟨rfl, by simp, fun _ => ⟨rfl, rfl, rfl, Or.inl rfl, fun h => h⟩, by simp [MainPos.Preparing],
        by simp [MainPos.Fresh]⟩
  case h_5 r hpos =>
    right
    exact join_moves hprep (by rw [hpos]; trivial) (by simp [MainPos.Fresh, ReceivePos.fresh]) h
  case h_6 pos r _ hpos =>
    right
    rw [hpos] at hprep
    cases h
    exact mainMoves_of_over (hprep trivial) (by simp) (by simp [MainPos.Fresh])
  case h_7 pos r hpos =>
    rw [hpos] at hmain
    by_cases hstart : pos = .ntfStart
    · exact Or.inl ⟨r, by rw [hpos, hstart]⟩
    · exact Or.inr (mainReceive_moves hpos hmain hprep hfresh hstart h)

/-- How the transfer that was started last, the members and the two threads belong together. -/
structure TransferInv (es : List ClientProcessEvent) (S : ClientProcess) : Prop where
  preparing : S.main.Preparing → S.loop.over = true
  fresh : S.main.Fresh S.vars.status
  /-- the version is the one of the transfer; a second NTF is on the way to an exception -/
  version : S.loop.over = false → (∃ r, S.loop = .onReceive .ntfJoin r) ∨
    ∃ post, lastTransfer es = some (S.vars.newFileVersion, post)
  done : S.loop.over = false → DoneKept (VerifiedLast es) S.vars S.loop.receivePos?
  handsOver : ∀ r, S.loop = .onReceive .finCall r → HandsOver es S.vars.tempFile S.vars.newFileVersion
  cancelling : ∀ r, S.loop = .onReceive (.send .cxl) r → S.vars.isActive = false
  /-- behind its end the receive loop does nothing but call -/
  ended : Ended es → S.loop = .absent ∨
    S.vars.isActive = false ∧ (S.loop = .test ∨ ∃ r, S.loop = .onReceive .finCall r)
  belongs : EachWithPast Belongs es

/-- The receive loop has not ended its transfer where it is not one of these positions. -/
theorem TransferInv.not_ended (hinv : TransferInv es S) (habsent : S.loop ≠ .absent)
    (htest : S.vars.isActive = true ∨ S.loop ≠ .test) (hcall : ∀ r, S.loop ≠ .onReceive .finCall r) :
    ¬Ended es := by
  intro hended
  rcases hinv.ended hended with h | ⟨hdead, h | ⟨r, h⟩⟩
  · exact habsent h
  · rcases htest with hactive | htest
    · rw [hdead] at hactive
      contradiction
    · exact htest h
  · exact hcall r h

/-- Events of the main loop say nothing about a transfer. -/
theorem ofMain_quiet {x : ClientProcessEvent} (h : x.ofMain = true) :
    (∀ version, x ≠ .started version) ∧ x.endsTransfer = false ∧ ∀ past, Belongs past x := by
  cases x with
  | started | finished | threw => contradiction
  | begun | rejected => exact ⟨by simp, rfl, fun _ => trivial⟩
  | received thread =>
    cases thread with
    | main => exact ⟨by simp, rfl, fun _ => trivial⟩
    | loop => contradiction
  | of thread e =>
    cases thread with
    | loop => contradiction
    | main =>
      cases e with
      | sent => exact ⟨by simp, rfl, fun _ => trivial⟩
      | began | notified | informed | wrote | verified | fileReceived | terminated => contradiction

/-- A statement of the main loop keeps the invariant. -/
theorem TransferInv.mainMoves (hinv : TransferInv es S) (h : MainMoves S S' e) : TransferInv (es ++ e) S' := by
  have hstart : ∀ version, .started version ∉ e := fun version hmem => (ofMain_quiet (h.quiet _ hmem)).1 version rfl
  constructor
  · rw [h.loop]
    exact h.preparing
  · exact h.fresh
  · rw [h.loop]
    intro hover
    rcases hinv.version hover with hjoin | ⟨post, hlast⟩
    · exact Or.inl hjoin
    · right
      rw [lastTransfer_append hstart, hlast, (h.keeps hover).version]
      exact ⟨_, rfl⟩
  · rw [h.loop]
    intro hover
    exact ((hinv.done hover).frame (h.keeps hover)).mono fun _ hverified => hverified.append hstart
  · rw [h.loop]
    intro r hpos
    have hkeeps := h.keeps (by rw [hpos]; rfl)
    rw [hkeeps.file, hkeeps.version]
    exact (hinv.handsOver r hpos).append hstart
  · rw [h.loop]
    intro r hpos
    have hkeeps := h.keeps (by rw [hpos]; rfl)
    have hdead := hinv.cancelling r hpos
    by_contra hactive
    rw [hkeeps.isActive (Bool.not_eq_false _ ▸ hactive)] at hdead
    contradiction
  · rw [ended_append_iff fun x hmem => ⟨(ofMain_quiet (h.quiet x hmem)).1, (ofMain_quiet (h.quiet x hmem)).2.1⟩,
      h.loop]
    intro hended
    rcases hinv.ended hended with habsent | ⟨hdead, hpos⟩
    · exact Or.inl habsent
    · have hover : S.loop.over = false := by
        rcases hpos with hpos | ⟨r, hpos⟩ <;> rw [hpos] <;> rfl
      refine Or.inr ⟨?_, hpos⟩
      by_contra hactive
      rw [(h.keeps hover).isActive (Bool.not_eq_false _ ▸ hactive)] at hdead
      contradiction
  · exact hinv.belongs.append (.of_forall fun pre x hmem => (ofMain_quiet (h.quiet x hmem)).2.2 _)

/-- The receive loop is started: a transfer begins. -/
theorem TransferInv.start (hinv : TransferInv es S) {r : Received} (hpos : S.main = .onReceive .ntfStart r) :
    TransferInv (es ++ [.started S.vars.newFileVersion])
      { S with vars := { S.vars with joinable := true }, main := .onReceive (.store .chk) r, loop := .test } := by
  have hstatus : S.vars.status = .ntf := by
    have hfresh := hinv.fresh
    rw [hpos] at hfresh
    exact hfresh rfl
  refine ⟨by simp [MainPos.Preparing], by simp [MainPos.Fresh, ReceivePos.fresh], fun _ => Or.inr ⟨[], ?_⟩,
    fun _ => ?_, by simp, by simp, ?_, hinv.belongs.snoc trivial⟩
  · exact lastTransfer_started es _
  · exact ClientTransaction.doneKept_of_ne (by simp [hstatus]) (by simp [LoopPos.receivePos?])
      (by simp [LoopPos.receivePos?])
  · rintro ⟨transfer, hlast, x, hmem, -⟩
    rw [lastTransfer_started] at hlast
    cases hlast
    contradiction

/-- While the receive loop is not over, the main loop prepares nothing. -/
theorem TransferInv.not_preparing (hinv : TransferInv es S) (hover : S.loop.over = false) :
    ¬S.main.Preparing := by
  intro hmain
  rw [hinv.preparing hmain] at hover
  contradiction

/-- So it is not about to start another one. -/
theorem TransferInv.fresh_of_running (hinv : TransferInv es S) (hover : S.loop.over = false)
    (status : MessageId) : S.main.Fresh status := by
  have hmain := hinv.not_preparing hover
  cases hpos : S.main with
  | onReceive pos r =>
    rw [hpos] at hmain
    intro hfresh
    refine absurd ?_ hmain
    cases pos <;> first | contradiction | simp [MainPos.Preparing]
  | idle | aliveTest | setActive | activeTest | reset => trivial

/-- The receive loop moves outside of `OnReceive` and shows nothing. -/
theorem TransferInv.move (hinv : TransferInv es S) (hover : S.loop.over = false)
    (hjoin : ∀ r, S.loop ≠ .onReceive .ntfJoin r) {vars : ClientVars} {loop : LoopPos}
    (hversion : vars.newFileVersion = S.vars.newFileVersion)
    (hoff : ∀ pos r, loop ≠ .onReceive pos r) (hdone : DoneKept (VerifiedLast es) vars none)
    (hended : Ended es → loop = .absent) :
    TransferInv es { S with vars := vars, loop := loop } := by
  have hnone : loop.receivePos? = none := by
    cases loop with
    | onReceive pos r => exact absurd rfl (hoff pos r)
    | absent | test | receive | timeoutStore | timeoutDead | timeoutSend => rfl
  refine ⟨fun hmain => absurd hmain (hinv.not_preparing hover), hinv.fresh_of_running hover _, fun _ => Or.inr ?_,
    fun _ => ?_, fun r hpos => absurd hpos (hoff _ r), fun r hpos => absurd hpos (hoff _ r),
    fun hend => Or.inl (hended hend), hinv.belongs⟩
  · obtain ⟨post, hlast⟩ := (hinv.version hover).resolve_left fun ⟨r, hpos⟩ => hjoin r hpos
    exact ⟨post, by rw [hversion]; exact hlast⟩
  · show DoneKept _ vars loop.receivePos?
    rwa [hnone]

/-- An exception leaves a loop. -/
theorem TransferInv.throws (hinv : TransferInv es S) (hstart : ∀ version, .started version ∉ e)
    (hend : ∀ x ∈ e, x.endsTransfer = false) (hbelongs : EachWithPast (fun pre x => Belongs (es ++ pre) x) e) :
    TransferInv (es ++ e) { S with terminated := true } := by
  refine ⟨hinv.preparing, hinv.fresh, fun hover => ?_, fun hover => ?_, fun r hpos => ?_, hinv.cancelling, ?_,
    hinv.belongs.append hbelongs⟩
  · refine (hinv.version hover).imp_right ?_
    rintro ⟨post, hlast⟩
    exact ⟨post ++ e, by rw [lastTransfer_append hstart, hlast]; rfl⟩
  · exact (hinv.done hover).mono fun _ hverified => hverified.append hstart
  · exact (hinv.handsOver r hpos).append hstart
  · rw [ended_append_iff fun x hmem => ⟨fun version hx => hstart version (hx ▸ hmem), hend x hmem⟩]
    exact hinv.ended

/-- The receive loop takes a datagram. -/
theorem TransferInv.takes (hinv : TransferInv es S) (hpos : S.loop = .receive) {d : Datagram} {r : Received} :
    TransferInv (es ++ [.received .loop d (some r)]) { S with loop := .onReceive .hear r } := by
  have hover : S.loop.over = false := by
    rw [hpos]
    rfl
  have hended : ¬Ended es := hinv.not_ended (by simp [hpos]) (Or.inr (by simp [hpos])) (by simp [hpos])
  have hstart : ∀ version, .started version ∉ [ClientProcessEvent.received .loop d (some r)] := by simp
  have hdone := hinv.done hover
  rw [hpos] at hdone
  refine ⟨fun hmain => absurd hmain (hinv.not_preparing hover), hinv.fresh_of_running hover _, fun _ => Or.inr ?_,
    fun _ => ?_, by simp, by simp, fun hend => ?_, hinv.belongs.snoc hended⟩
  · obtain ⟨post, hlast⟩ := (hinv.version hover).resolve_left fun ⟨r, hjoin⟩ => by simp [hpos] at hjoin
    exact ⟨_, by rw [lastTransfer_append hstart, hlast]; rfl⟩
  · have hkept : DoneKept (VerifiedLast es) S.vars (some .hear) := by
      refine ⟨fun hdone' => hdone.done (hdone'.imp_right ?_), by simp [ReceivePos.transferring], by simp⟩
      simp [ReceivePos.finishing]
    exact hkept.mono fun _ hverified => hverified.append hstart
  · rw [ended_append_iff (by simp [ClientProcessEvent.endsTransfer])] at hend
    exact absurd hend hended

/-- What is seen of a statement of `OnReceive` in the receive loop. -/
def loopShown (pos : ReceivePos) (x : List ClientEvent) : List ClientProcessEvent :=
  (if pos = .finDead then [.finished] else []) ++ x.map (.of .loop)

/-- It starts no transfer. -/
theorem started_not_mem_loopShown (pos : ReceivePos) (x : List ClientEvent) (version : UInt32) :
    .started version ∉ loopShown pos x := by
  intro hmem
  rcases List.mem_append.mp hmem with hmem | hmem
  · split_ifs at hmem <;> simp at hmem
  · simp at hmem

section Receive

variable {pos : ReceivePos} {r : Received} {vars : ClientVars} {x : List ClientEvent} {next : Option ReceivePos}

/-- A call is made behind the store that accepts FIN, with the verified file. -/
theorem TransferInv.receive_handsOver (hinv : TransferInv es S) (hpos : S.loop = .onReceive pos r)
    {post : List ClientProcessEvent} (hlast : lastTransfer es = some (S.vars.newFileVersion, post))
    (hstep : c.receiveStep r ops S.vars pos = some (vars, x, next)) (hcall : next = some .finCall) :
    HandsOver (es ++ loopShown pos x) vars.tempFile vars.newFileVersion := by
  have hdone := hinv.done (by rw [hpos]; rfl)
  rw [hpos] at hdone
  subst hcall
  obtain rfl := (ClientTransaction.receiveStep_ends hstep).calls rfl
  obtain ⟨-, file, hpath, transfer, htransfer, hverified⟩ := hdone.done (Or.inr ⟨.finDead, rfl, rfl⟩)
  rw [hlast] at htransfer
  cases htransfer
  cases hstep
  have hfirst : InOrder [(· = ClientProcessEvent.of .loop (.verified file))] post :=
    .single hverified (by rfl)
  have horder := hfirst.snoc (p := (· = .finished)) (x := .finished) rfl
  refine ⟨_, file, ?_, hpath, horder⟩
  rw [lastTransfer_append (started_not_mem_loopShown _ _), hlast]
  rfl

/-- Behind the end of its transfer the receive loop only calls, and looks at `is_active_`. -/
theorem TransferInv.receive_ended (hinv : TransferInv es S) (hpos : S.loop = .onReceive pos r)
    (hstep : c.receiveStep r ops S.vars pos = some (vars, x, next)) (hended : Ended (es ++ loopShown pos x)) :
    vars.isActive = false ∧ (next = none ∨ next = some .finCall) := by
  by_cases hdead : pos = .finDead
  · subst hdead
    cases hstep
    exact ⟨rfl, Or.inr rfl⟩
  · by_cases hcancel : pos = .send .cxl
    · subst hcancel
      cases hstep
      exact ⟨hinv.cancelling r hpos, Or.inl rfl⟩
    · -- the statement does not end the transfer
      have hquiet : ∀ y ∈ loopShown pos x, y.endsTransfer = false := by
        intro y hmem
        rw [loopShown, if_neg hdead, List.nil_append] at hmem
        obtain ⟨z, hz, rfl⟩ := List.mem_map.mp hmem
        exact (ClientTransaction.receiveStep_ends hstep).endsTransfer hcancel hz
      rw [ended_append_iff fun y hmem =>
        ⟨fun version hy => started_not_mem_loopShown pos x version (hy ▸ hmem), hquiet y hmem⟩] at hended
      rcases hinv.ended hended with habsent | ⟨hactive, htest | ⟨r', hcall⟩⟩
      · rw [hpos] at habsent
        contradiction
      · rw [hpos] at htest
        contradiction
      · rw [hpos] at hcall
        cases hcall
        cases hstep
        exact ⟨hactive, Or.inl rfl⟩

/-- What is seen belongs to the transfer. -/
theorem TransferInv.receive_belongs (hinv : TransferInv es S) (hpos : S.loop = .onReceive pos r)
    (hends : ClientTransaction.ReceiveEnds c S.vars pos vars x next) :
    EachWithPast (fun pre y => Belongs (es ++ pre) y) (loopShown pos x) := by
  unfold loopShown
  by_cases hdead : pos = .finDead
  · rw [if_pos hdead, hends.quiet hdead]
    exact .cons trivial .nil
  · rw [if_neg hdead, List.nil_append]
    rcases hends.events with rfl | ⟨y, rfl, hy⟩
    · exact .nil
    · refine .cons ?_ .nil
      rw [List.append_nil]
      rcases hy with ⟨id, rfl, rfl⟩ | ⟨rfl, rfl⟩ | ⟨hsent, hcall⟩
      · exact hinv.not_ended (by simp [hpos]) (Or.inr (by simp [hpos])) (by simp [hpos])
      · exact hinv.handsOver r hpos
      · cases y with
        | sent id p => exact absurd rfl (hsent id p)
        | fileReceived file version => exact absurd rfl (hcall file version)
        | began | notified | informed | wrote | verified | terminated => trivial

/-- A statement of `OnReceive` in the receive loop that does not throw keeps the invariant. -/
theorem TransferInv.receive (hinv : TransferInv es S) (hup : UpInv es S) (hpos : S.loop = .onReceive pos r)
    (hjoin : pos ≠ .ntfJoin) (hstep : c.receiveStep r ops S.vars pos = some (vars, x, next)) :
    TransferInv (es ++ loopShown pos x) { S with vars := vars, loop := next.elim .test (.onReceive · r) } := by
  have hover : S.loop.over = false := by
    rw [hpos]
    rfl
  have hends := ClientTransaction.receiveStep_ends hstep
  have hstart := started_not_mem_loopShown pos x
  have hfile := hup.file
  have hdone := hinv.done hover
  rw [hpos] at hfile hdone
  obtain ⟨post, hlast⟩ : ∃ post, lastTransfer es = some (S.vars.newFileVersion, post) := by
    refine (hinv.version hover).resolve_left ?_
    rintro ⟨r', hpos'⟩
    rw [hpos] at hpos'
    cases hpos'
    exact hjoin rfl
  have hlast' : lastTransfer (es ++ loopShown pos x) = some (S.vars.newFileVersion, post ++ loopShown pos x) := by
    rw [lastTransfer_append hstart, hlast]
    rfl
  have hnext : ∀ p r', next.elim .test (.onReceive · r) = LoopPos.onReceive p r' → next = some p := by
    intro p r' heq
    cases next with
    | none => contradiction
    | some q =>
      cases heq
      rfl
  refine ⟨fun hmain => absurd hmain (hinv.not_preparing hover), hinv.fresh_of_running hover _, fun _ => ?_,
    fun _ => ?_, ?_, ?_, ?_, hinv.belongs.append (hinv.receive_belongs hpos hends)⟩
  · rcases hends.version with hversion | rfl
    · exact Or.inr ⟨post ++ loopShown pos x, by rw [hlast', hversion]⟩
    · exact Or.inl ⟨r, rfl⟩
  · have hmono : DoneKept (VerifiedLast (es ++ loopShown pos x)) vars next := by
      refine (ClientTransaction.receiveStep_doneKept hdone hfile hstep).mono fun file hverified => ?_
      rcases hverified with hold | hnew
      · exact hold.append hstart
      · exact ⟨_, hlast', List.mem_append_right post (List.mem_append_right _ (List.mem_map_of_mem hnew))⟩
    cases next with
    | none => exact hmono
    | some p => exact hmono
  · exact fun r' hcall => hinv.receive_handsOver hpos hlast hstep (hnext _ r' hcall)
  · exact fun r' hcancel => hends.cancels (hnext _ r' hcancel)
  · intro hended
    obtain ⟨hdead, rfl | rfl⟩ := hinv.receive_ended hpos hstep hended
    · exact Or.inr ⟨hdead, Or.inl rfl⟩
    · exact Or.inr ⟨hdead, Or.inr ⟨r, rfl⟩⟩

end Receive

/-- A statement of `OnReceive` in the receive loop keeps the invariant. -/
theorem TransferInv.loopReceive (hinv : TransferInv es S) (hup : UpInv es S) {pos : ReceivePos} {r : Received}
    (hpos : S.loop = .onReceive pos r) (h : S.loopReceive c ops pos r = some (S', e)) :
    TransferInv (es ++ e) S' := by
  have hover : S.loop.over = false := by
    rw [hpos]
    rfl
  unfold ClientProcess.loopReceive at h
  split at h
  case h_1 =>
    split_ifs at h
    cases h
    exact hinv.throws (by simp) (by simp [ClientProcessEvent.endsTransfer]) (.of_forall (by simp [Belongs]))
  case h_2 => contradiction
  case h_3 hjoin hstart =>
    split at h
    case h_1 =>
      cases h
      exact hinv.throws (by simp) (by simp [ClientProcessEvent.endsTransfer]) (.of_forall (by simp [Belongs]))
    case h_2 vars x next hstep =>
      cases h
      exact hinv.receive hup hpos hjoin hstep

/-- A statement of the receive loop keeps the invariant. -/
theorem TransferInv.loopStep (hinv : TransferInv es S) (hup : UpInv es S)
    (h : S.loopStep c ops = some (S', e)) : TransferInv (es ++ e) S' := by
  unfold ClientProcess.loopStep at h
  split at h
  case h_2 hpos =>
    have hover : S.loop.over = false := by
      rw [hpos]
      rfl
    have hdone := hinv.done hover
    rw [hpos] at hdone
    split_ifs at h with hactive <;> cases h <;> rw [List.append_nil]
    · have hended := hinv.not_ended (by simp [hpos]) (Or.inl hactive) (by simp [hpos])
      exact hinv.move hover (by simp [hpos]) rfl (by simp) hdone fun hend => absurd hend hended
    · exact hinv.move hover (by simp [hpos]) rfl (by simp) hdone fun _ => rfl
  case h_4 hpos =>
    have hended := hinv.not_ended (by simp [hpos]) (Or.inr (by simp [hpos])) (by simp [hpos])
    cases h
    rw [List.append_nil]
    exact hinv.move (by rw [hpos]; rfl) (by simp [hpos]) rfl (by simp)
      (ClientTransaction.doneKept_of_ne (by simp) (by simp) (by simp)) fun hend => absurd hend hended
  case h_5 hpos =>
    have hover : S.loop.over = false := by
      rw [hpos]
      rfl
    have hended := hinv.not_ended (by simp [hpos]) (Or.inr (by simp [hpos])) (by simp [hpos])
    have hdone := hinv.done hover
    rw [hpos] at hdone
    cases h
    rw [List.append_nil]
    exact hinv.move hover (by simp [hpos]) rfl (by simp)
      ⟨hdone.done, hdone.transferring, hdone.closed⟩ fun hend => absurd hend hended
  case h_6 hpos =>
    have hended := hinv.not_ended (by simp [hpos]) (Or.inr (by simp [hpos])) (by simp [hpos])
    cases h
    exact ⟨fun _ => rfl, hinv.fresh, by simp [LoopPos.over], by simp [LoopPos.over], by simp, by simp,
      fun _ => Or.inl rfl, hinv.belongs.snoc hended⟩
  case h_7 pos r hpos => exact hinv.loopReceive hup hpos h
  all_goals contradiction

/-- Every step keeps the invariant. -/
theorem TransferInv.step {a : ClientProcessAction} (hinv : TransferInv es S) (halive : AliveInv es S)
    (hup : UpInv es S) (hclean : .begun false ∉ e) (h : S.step c a = some (S', e)) :
    TransferInv (es ++ e) S' := by
  cases a with
  | main ops =>
    simp only [ClientProcess.step] at h
    split_ifs at h
    rcases mainStep_moves halive hinv.preparing hinv.fresh hclean h with ⟨r, hpos⟩ | hmoves
    · unfold ClientProcess.mainStep at h
      rw [hpos] at h
      cases h
      exact hinv.start hpos
    · exact hinv.mainMoves hmoves
  | loop ops =>
    simp only [ClientProcess.step] at h
    split_ifs at h
    exact hinv.loopStep hup h
  | mainDatagram buffer d =>
    simp only [ClientProcess.step] at h
    split_ifs at h with hblocked
    rw [not_or, not_not] at hblocked
    split at h
    · cases h
      exact hinv.throws (by simp) (by simp [ClientProcessEvent.endsTransfer])
        (.of_forall (by simp [Belongs]))
    · cases h
      exact hinv.mainMoves ⟨rfl, by simp [ClientProcessEvent.ofMain],
        fun _ => ⟨rfl, rfl, rfl, Or.inl rfl, id⟩, by simp [MainPos.Preparing], by simp [MainPos.Fresh]⟩
  | loopDatagram buffer d =>
    simp only [ClientProcess.step] at h
    split_ifs at h with hblocked
    rw [not_or, not_not] at hblocked
    have hpos := hblocked.2
    have hended : ¬Ended es := hinv.not_ended (by simp [hpos]) (Or.inr (by simp [hpos])) (by simp [hpos])
    split at h
    · cases h
      refine hinv.throws (by simp) (by simp [ClientProcessEvent.endsTransfer]) (.cons ?_ (.cons trivial .nil))
      rwa [List.append_nil]
    · cases h
      exact hinv.takes hpos
  | loopTimeout =>
    simp only [ClientProcess.step] at h
    split_ifs at h with hblocked
    rw [not_or, not_not] at hblocked
    have hpos := hblocked.2
    have hended : ¬Ended es := hinv.not_ended (by simp [hpos]) (Or.inr (by simp [hpos])) (by simp [hpos])
    have hover : S.loop.over = false := by
      rw [hpos]
      rfl
    have hdone := hinv.done hover
    rw [hpos] at hdone
    cases h
    rw [List.append_nil]
    exact hinv.move hover (by simp [hpos]) rfl (by simp) hdone fun hend => absurd hend hended

/-- The invariant holds in every state that is reached while `Begin` stores true only when the receive loop
is over. -/
theorem transferInv_of_trace (h : (clientProcess c).Trace es S) (hclean : .begun false ∉ es) :
    TransferInv es S := by
  revert hclean
  refine h.invariant (I := fun es S => .begun false ∉ es → TransferInv es S) ?_ ?_
  · rintro S ⟨tempFile, rfl⟩ _
    exact ⟨by simp [MainPos.Preparing], by simp [MainPos.Fresh], by simp [LoopPos.over], by simp [LoopPos.over],
      by simp, by simp, fun _ => Or.inl rfl, .nil⟩
  · intro es S a S' e htrace ih hstep hclean
    rw [List.mem_append, not_or] at hclean
    exact (ih hclean.1).step (aliveInv_of_trace htrace) (upInv_of_trace htrace) hclean.2 hstep

/-- A callback belongs to the transfer that finished, as long as `Begin` waits for the old loop.

If `Begin` stores true in `is_active_` only when the receive loop is over, then in every run
`OnFileReceived` is called with the file that the last transfer verified and with the version of this
transfer, behind its FIN, and behind FIN or CXL the receive loop of a transfer takes no datagram and
sends no message. -/
theorem callback_belongs (h : (clientProcess c).Trace es S) (hclean : .begun false ∉ es) :
    EachWithPast Belongs es := (transferInv_of_trace h hclean).belongs

/-- The client of the second transfer waits for FIN. -/
theorem waiting_twoPackets :
    ∃ es v, (clientProcess smallClient).Trace es ⟨v, .idle, .receive, false⟩ ∧ .begun false ∉ es ∧
      v.isActive = true ∧ v.status = .done ∧ v.newFileVersion = 7 := by
  obtain ⟨v, es, hexec, hreceiving, hdone, hversion, -⟩ := twoPackets_verified
  obtain ⟨es', S, htrace, rfl, -, hclean⟩ :=
    (handling smallClient).trace (EventMachine.exec_trace ⟨none, rfl⟩ hexec)
  rw [waiting_receiving hreceiving] at htrace
  rw [Bool.and_eq_true] at hreceiving
  exact ⟨es', v, htrace, hclean, hreceiving.2, hdone, hversion⟩

/-- FIN, up to the call of `OnFileReceived`. -/
theorem fin_run (c : ClientTransaction) {v : ClientVars} {r : Received} (hintact : r.msg.intact r.len = true)
    (hid : r.id? = some .fin) (hlen : r.payloadLen = 0) (hdone : v.status = .done) :
    ∃ es, (clientProcess c).Run ⟨v, .idle, .receive, false⟩ es
      ⟨{ v.heardFrom r.addr with status := .fin, isActive := false }, .idle, .onReceive .finCall r, false⟩ ∧
      .begun false ∉ es ∧ ∀ version, .started version ∉ es := by
  have hops : FileOps := ⟨true, true, 0⟩
  have hcheck : c.receiveStep r hops (v.heardFrom r.addr) .check =
      some (v.heardFrom r.addr, [], some .finTest) := by
    simp [ClientTransaction.receiveStep, ClientTransaction.validateMessageIntegrity, hintact,
      ClientTransaction.branch, hid]
  have htest : c.receiveStep r hops (v.heardFrom r.addr) .finTest =
      some (v.heardFrom r.addr, [], some .finStatus) := by
    simp [ClientTransaction.receiveStep, hdone, hlen]
  have hfin : LoopRuns c r v .hear [] { v.heardFrom r.addr with status := .fin, isActive := false }
      (some .finCall) :=
    .step hops rfl (.step hops hcheck (.step hops htest (.step hops rfl (.single hops rfl))))
  obtain ⟨es, hrun, hes⟩ := hfin .idle
  have hquiet : ∀ x ∈ es, x.client? = none := List.filterMap_eq_nil_iff.mp hes
  refine ⟨_, (loopDatagram_run c v .idle r).trans hrun, ?_, fun version => ?_⟩
  · have hbegun : ClientProcessEvent.begun false ∉ es := fun hmem => by
      have hx := hquiet _ hmem
      contradiction
    simp [hbegun]
  · have hstarted : ClientProcessEvent.started version ∉ es := fun hmem => by
      have hx := hquiet _ hmem
      contradiction
    simp [hstarted]

/-- The call of `OnFileReceived`. -/
theorem call_run {c : ClientTransaction} (hclient : c.hasClient = true) (v : ClientVars) (main : MainPos)
    (r : Received) : (clientProcess c).Run ⟨v, main, .onReceive .finCall r, false⟩
      [.of .loop (.fileReceived v.tempFile v.newFileVersion)] ⟨v, main, .test, false⟩ := by
  apply loop_run ⟨true, true, 0⟩ rfl
  simp [loopStep, loopReceive, ClientTransaction.receiveStep, hclient]

/-- The second transfer: the file is handed over, and it belongs to the transfer. -/
theorem callback_belongs_twoPackets :
    ∃ es S, (clientProcess smallClient).Trace es S ∧
      (∃ file, .of .loop (.fileReceived file 7) ∈ es) ∧ EachWithPast Belongs es := by
  obtain ⟨es, v, htrace, hclean, -, hdone, hversion⟩ := waiting_twoPackets
  obtain ⟨es', hfin, hclean', -⟩ :=
    fin_run smallClient twoPackets_fin.1 twoPackets_fin.2.1 twoPackets_fin.2.2 hdone
  have hrun := (htrace.run hfin).run (call_run rfl _ _ _)
  refine ⟨_, _, hrun, ⟨v.tempFile, ?_⟩, callback_belongs hrun ?_⟩
  · rw [← hversion]
    exact List.mem_append_right _ List.mem_cons_self
  · simp [hclean, hclean']

/-- A new NTF while the old loop is about to call: `Begin` stores true, and `Reset` clears the version. -/
theorem reset_version_run (c : ClientTransaction) (v : ClientVars) (loop : LoopPos) {r : Received}
    (hover : loop.over = false) (hdead : v.isActive = false) (hid : r.id? = some .ntf) :
    ∃ es w pos, (clientProcess c).Run ⟨v, .idle, loop, false⟩ es ⟨w, .reset pos r, loop, false⟩ ∧
      w.newFileVersion = 0 ∧ ∀ version, .started version ∉ es := by
  have hops : FileOps := ⟨true, true, 0⟩
  have hstep : ∀ pos v, pos ≠ .join → (clientProcess c).Run ⟨v, .reset pos r, loop, false⟩ []
      ⟨(ClientTransaction.resetStep hops v pos).1, .reset (ClientTransaction.resetStep hops v pos).2 r, loop,
        false⟩ := by
    intro pos v hpos
    apply main_run hops rfl
    cases pos <;> first | rfl | exact absurd rfl hpos
  have halive : (clientProcess c).Run ⟨v, .aliveTest r, loop, false⟩ [] ⟨v, .setActive r, loop, false⟩ := by
    apply main_run hops rfl
    simp [mainStep, hdead]
  have hactive : (clientProcess c).Run ⟨v, .setActive r, loop, false⟩ [.begun false]
      ⟨{ v with isActive := true }, .activeTest r, loop, false⟩ := by
    apply main_run hops rfl
    simp [mainStep, hid, hover]
  have htest : (clientProcess c).Run ⟨{ v with isActive := true }, .activeTest r, loop, false⟩ []
      ⟨{ v with isActive := true }, .reset .address r, loop, false⟩ := main_run hops rfl rfl
  have hbegin := (mainDatagram_run c v loop r).trans (halive.trans (hactive.trans htest))
  have hreset := (hstep .address { v with isActive := true } (by simp)).trans ((hstep .total _ (by simp)).trans
    ((hstep .psn _ (by simp)).trans ((hstep .close _ (by simp)).trans (hstep .version _ (by simp)))))
  exact ⟨_, _, _, hbegin.trans hreset, rfl, by simp⟩

/-- FIN clears `is_active_`, a new NTF comes in at once, and the callback gets the version 0 in the place
of 7. -/
theorem callback_stale :
    ∃ past S file post, (clientProcess smallClient).Trace (past ++ [.of .loop (.fileReceived file 0)]) S ∧
      lastTransfer past = some (7, post) ∧ ¬Belongs past (.of .loop (.fileReceived file 0)) := by
  obtain ⟨es, v, htrace, hclean, hactive, hdone, hversion⟩ := waiting_twoPackets
  obtain ⟨es', hfin, hclean', hstart⟩ :=
    fin_run smallClient twoPackets_fin.1 twoPackets_fin.2.1 twoPackets_fin.2.2 hdone
  obtain ⟨es'', w, pos, hreset, hzero, hstart'⟩ := reset_version_run smallClient
    { v.heardFrom (twoPackets.received .fin).addr with status := .fin, isActive := false }
    (.onReceive .finCall (twoPackets.received .fin)) rfl rfl oneByte_notifies.2.1
  have hcall := call_run (c := smallClient) rfl w (.reset pos (oneByte.received .ntf)) (twoPackets.received .fin)
  rw [hzero] at hcall
  have hrun := ((htrace.run hfin).run hreset).run hcall
  obtain ⟨post, hlast⟩ : ∃ post, lastTransfer (es ++ es' ++ es'') = some (7, post) := by
    obtain ⟨post, hpost⟩ := ((transferInv_of_trace htrace hclean).version rfl).resolve_left (by simp)
    rw [lastTransfer_append hstart', lastTransfer_append hstart, hpost]
    exact ⟨_, by rw [← hversion]; rfl⟩
  refine ⟨_, _, _, post, hrun, hlast, ?_⟩
  rintro ⟨post', data, hlast', -, -⟩
  rw [hlast] at hlast'
  simp at hlast'

end ClientProcess

end Trftp
