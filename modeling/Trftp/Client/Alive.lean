import Trftp.Client.Statements
import Trftp.Messages

/-!
# Is there a loop behind `is_active_`?

`Begin` stores true in `is_active_` on the word of a header that nobody has checked, and the
receive loop, which alone stores false later, is started behind the check. If the check fails
in between, nothing stores false any more: every later datagram at the main socket is discarded
because the transaction is alive. On every other path the flag and the loop stay together.
-/

namespace Trftp

/-- An NTF that the branch for it accepts. -/
def Received.Notifies (r : Received) : Prop :=
  r.msg.intact r.len = true ∧ r.id? = some .ntf ∧ r.payloadLen = 4

/-- Positions in `OnReceive` that an NTF can reach. -/
def ReceivePos.ofNtf : ReceivePos → Bool
  | .hear | .check | .ntfStatus | .ntfVersion | .ntfJoin | .ntfStart => true
  | .store id | .send id => id = .chk ∨ id = .cxl
  | .dead => true
  | .infoTest | .infoMatch | .infoStatus | .infoSize | .infoCrc | .infoTotal | .infoOpen | .infoOpened => false
  | .dataTest | .dataLength | .dataNumber | .dataWrite | .dataWritten | .dataStatus | .dataCount => false
  | .dataLast | .dataClose | .dataSize | .dataCrc => false
  | .finTest | .finStatus | .finDead | .finCall => false
  | .cxlOpen | .cxlClose | .cxlRemove | .cxlStatus => false

/-- The main loop is in `OnReceive`, in front of the start of the receive loop or on the way without it. -/
def MainPos.joined : MainPos → Bool
  | .onReceive pos _ => pos ≠ .store .chk ∧ pos ≠ .send .chk
  | .idle | .aliveTest _ | .setActive _ | .activeTest _ | .reset _ _ => false

/-- The main loop is between the store of `Begin` and the start of the receive loop, or the store that
takes the first one back. -/
def MainPos.beginning : MainPos → Bool
  | .activeTest _ | .reset _ _ => true
  | .onReceive pos _ => pos ≠ .store .chk ∧ pos ≠ .send .chk ∧ pos ≠ .send .cxl
  | .idle | .aliveTest _ | .setActive _ => false

/-- The receive loop was started, and `Begin` has not stored true since. -/
def StartedSinceBegun (es : List ClientProcessEvent) : Prop :=
  ∃ pre version post, es = pre ++ .started version :: post ∧ ∀ wasOver, .begun wasOver ∉ post

/-- It stays so until `Begin` stores true again. -/
theorem StartedSinceBegun.append {es e : List ClientProcessEvent} (h : StartedSinceBegun es)
    (he : ∀ wasOver, .begun wasOver ∉ e) : StartedSinceBegun (es ++ e) := by
  obtain ⟨pre, version, post, rfl, hpost⟩ := h
  refine ⟨pre, version, post ++ e, by simp, fun wasOver hmem => ?_⟩
  rcases List.mem_append.mp hmem with hmem | hmem
  · exact hpost wasOver hmem
  · exact he wasOver hmem

namespace ClientTransaction

variable {c : ClientTransaction} {r : Received} {ops : FileOps} {v w : ClientVars} {e : List ClientEvent}
  {pos : ReceivePos} {next : Option ReceivePos}

/-- What a statement of `OnReceive` does to the two members that the threads live by. -/
structure ReceiveFrame (v w : ClientVars) (pos : ReceivePos) : Prop where
  joinable : w.joinable = v.joinable
  isActive : w.isActive = if pos = .dead ∨ pos = .finDead then false else v.isActive

/-- Every statement stays within the frame. -/
theorem receiveStep_frame (h : c.receiveStep r ops v pos = some (w, e, next)) : ReceiveFrame v w pos := by
  revert h
  fun_cases ClientTransaction.receiveStep c r ops v pos <;> intro h <;> cases h
  case case18 =>
    rw [ClientVars.openStream_eq]
    exact ⟨rfl, rfl⟩
  case case27 =>
    rw [ClientVars.writeStream_eq]
    exact ⟨rfl, rfl⟩
  case case34 | case48 =>
    rw [ClientVars.closeStream_eq]
    exact ⟨rfl, rfl⟩
  all_goals exact ⟨rfl, rfl⟩

/-- `Reset` assigns neither of them before it joins. -/
theorem resetStep_frame (ops : FileOps) (v : ClientVars) (pos : ResetPos) :
    (resetStep ops v pos).1.joinable = v.joinable ∧ (resetStep ops v pos).1.isActive = v.isActive := by
  cases pos with
  | close =>
    rw [resetStep, ClientVars.closeStream_eq]
    exact ⟨rfl, rfl⟩
  | address | total | psn | version | size | crc | join => exact ⟨rfl, rfl⟩

end ClientTransaction

namespace ClientProcess

variable {c : ClientTransaction} {S S' : ClientProcess} {ops : FileOps} {e es : List ClientProcessEvent}

/-- What a statement of the receive loop does to what the threads live by. -/
structure LoopFrame (S S' : ClientProcess) (e : List ClientProcessEvent) : Prop where
  main : S'.main = S.main
  joinable : S'.vars.joinable = S.vars.joinable
  /-- it stores false only -/
  isActive : S'.vars.isActive = true → S.vars.isActive = true
  running : S.loop ≠ .absent
  /-- it leaves the loop when `is_active_` does not hold, or on the way that a timeout has taken -/
  left : S'.loop.over = true → S.loop.over = true ∨ S'.vars.isActive = false
  quiet : ∀ x ∈ e, (∀ wasOver, x ≠ .begun wasOver) ∧ ∀ alive, x ≠ .rejected alive

/-- A statement of `OnReceive` in the receive loop stays within the frame. -/
theorem loopReceive_frame {pos : ReceivePos} {r : Received} (hpos : S.loop = .onReceive pos r)
    (h : S.loopReceive c ops pos r = some (S', e)) : LoopFrame S S' e := by
  unfold loopReceive at h
  split at h
  · split_ifs at h
    cases h
    refine ⟨rfl, rfl, id, by simp [hpos], fun hover => Or.inl hover, ?_⟩
    simp
  · contradiction
  · split at h
    · cases h
      refine ⟨rfl, rfl, id, by simp [hpos], fun hover => Or.inl hover, ?_⟩
      simp
    · rename_i vars es next hstep
      have hframe := ClientTransaction.receiveStep_frame hstep
      cases h
      refine ⟨rfl, hframe.joinable, fun hactive => ?_, by simp [hpos], fun hover => ?_, ?_⟩
      · have hkept := hframe.isActive
        rw [hactive] at hkept
        split_ifs at hkept
        exact hkept.symm
      · cases next with
        | none => contradiction
        | some next => contradiction
      · intro x hx
        rcases List.mem_append.mp hx with hx | hx
        · split_ifs at hx
          · cases List.mem_singleton.mp hx
            simp
          · cases hx
        · obtain ⟨y, -, rfl⟩ := List.mem_map.mp hx
          simp

/-- Every statement of the receive loop stays within the frame. -/
theorem loopStep_frame (h : S.loopStep c ops = some (S', e)) : LoopFrame S S' e := by
  unfold loopStep at h
  split at h
  case h_2 hpos =>
    split_ifs at h with hactive <;> cases h
    · exact ⟨rfl, rfl, id, by simp [hpos], fun hover => by contradiction, by simp⟩
    · rw [Bool.not_eq_true] at hactive
      exact ⟨rfl, rfl, id, by simp [hpos], fun _ => Or.inr hactive, by simp⟩
  case h_4 hpos =>
    cases h
    exact ⟨rfl, rfl, id, by simp [hpos], fun hover => by contradiction, by simp⟩
  case h_5 hpos =>
    cases h
    exact ⟨rfl, rfl, fun hactive => by contradiction, by simp [hpos], fun _ => Or.inr rfl, by simp⟩
  case h_6 hpos =>
    cases h
    exact ⟨rfl, rfl, id, by simp [hpos], fun _ => Or.inl (by rw [hpos]; rfl), by simp⟩
  case h_7 pos r hpos => exact loopReceive_frame hpos h
  all_goals contradiction

/-- What the position of the main loop says about its message. -/
def MainPos.Ok (isActive : Bool) : MainPos → Prop
  | .idle | .aliveTest _ | .setActive _ => True
  | .activeTest r => r.id? = some .ntf ∨ isActive = false
  | .reset _ r => r.id? = some .ntf
  | .onReceive pos r => r.id? = some .ntf ∧ pos.ofNtf = true

/-- The main loop waits for a datagram or is about to discard one. -/
def MainPos.AtRest : MainPos → Prop
  | .idle | .aliveTest _ => True
  | .setActive _ | .activeTest _ | .reset _ _ | .onReceive _ _ => False

/-- How `is_active_`, `thread_` and the receive loop belong together. -/
structure AliveInv (es : List ClientProcessEvent) (S : ClientProcess) : Prop where
  /-- the thread that runs is not joined yet -/
  joinable : S.loop ≠ .absent → S.vars.joinable = true
  /-- `Reset` has joined it on the way to `OnReceive` -/
  joined : S.main.joined = true → S.loop = .absent ∧ S.vars.joinable = false
  main : MainPos.Ok S.vars.isActive S.main
  /-- a transaction that is alive has a loop, unless an NTF was rejected while it was alive -/
  alive : S.vars.isActive = true → S.main.beginning = false →
    (S.loop.over = false ∧ StartedSinceBegun es) ∨ .rejected true ∈ es
  /-- and then it stays alive without one -/
  wedged : .rejected true ∈ es → S.vars.isActive = true ∧ S.loop = .absent ∧ MainPos.AtRest S.main

/-- A statement of the receive loop keeps the invariant. -/
theorem AliveInv.loopStep (hinv : AliveInv es S) (h : S.loopStep c ops = some (S', e)) :
    AliveInv (es ++ e) S' := by
  have hframe := loopStep_frame h
  have hunwedged : .rejected true ∉ es := fun hmem => hframe.running (hinv.wedged hmem).2.1
  have hrejected : .rejected true ∉ es ++ e := by
    intro hmem
    rcases List.mem_append.mp hmem with hold | hnew
    · exact hunwedged hold
    · exact (hframe.quiet _ hnew).2 true rfl
  constructor
  · intro _
    rw [hframe.joinable]
    exact hinv.joinable hframe.running
  · intro hjoined
    rw [hframe.main] at hjoined
    exact absurd (hinv.joined hjoined).1 hframe.running
  · have hmain := hinv.main
    rw [hframe.main]
    cases hpos : S.main with
    | activeTest r =>
      rw [hpos] at hmain
      rcases hmain with hntf | hdead
      · exact Or.inl hntf
      · right
        by_contra hactive
        rw [hframe.isActive (Bool.not_eq_false _ ▸ hactive)] at hdead
        contradiction
    | idle | aliveTest | setActive | reset | onReceive =>
      rw [hpos] at hmain
      exact hmain
  · intro hactive hbeginning
    rw [hframe.main] at hbeginning
    rcases hinv.alive (hframe.isActive hactive) hbeginning with ⟨hover, hstarted⟩ | hwedged
    · refine Or.inl ⟨?_, hstarted.append fun wasOver hmem => (hframe.quiet _ hmem).1 wasOver rfl⟩
      by_contra hover'
      rcases hframe.left (Bool.not_eq_false _ ▸ hover') with hover'' | hdead
      · rw [hover] at hover''
        contradiction
      · rw [hactive] at hdead
        contradiction
    · exact absurd hwedged hunwedged
  · exact fun hmem => absurd hmem hrejected

/-- A statement of the main loop that is not at rest finds the transaction not wedged. -/
theorem AliveInv.not_rejected (hinv : AliveInv es S) (hmain : ¬MainPos.AtRest S.main) : .rejected true ∉ es :=
  fun hmem => hmain (hinv.wedged hmem).2.2

/-- The main loop reaches a position between the store of `Begin` and the start of the receive loop. -/
theorem AliveInv.toBeginning (hinv : AliveInv es S) (hrest : ¬MainPos.AtRest S.main) {vars : ClientVars}
    {next : MainPos} (hjoinable : S.loop ≠ .absent → vars.joinable = true)
    (hjoined : next.joined = true → S.loop = .absent ∧ vars.joinable = false)
    (hok : MainPos.Ok vars.isActive next) (hbeginning : next.beginning = true)
    (hquiet : .rejected true ∉ e) : AliveInv (es ++ e) { S with vars := vars, main := next } := by
  refine ⟨hjoinable, hjoined, hok, fun _ hnot => ?_, fun hmem => ?_⟩
  · rw [hbeginning] at hnot
    contradiction
  · rcases List.mem_append.mp hmem with hold | hnew
    · exact absurd hold (hinv.not_rejected hrest)
    · exact absurd hnew hquiet

/-- The main loop gives up, with a transaction that is not alive. -/
theorem AliveInv.giveUp (hinv : AliveInv es S) (hrest : ¬MainPos.AtRest S.main) {vars : ClientVars}
    {next : MainPos} (hjoinable : S.loop ≠ .absent → vars.joinable = true)
    (hjoined : next.joined = true → S.loop = .absent ∧ vars.joinable = false)
    (hok : MainPos.Ok vars.isActive next) (hdead : vars.isActive = false)
    (hquiet : .rejected true ∉ e) : AliveInv (es ++ e) { S with vars := vars, main := next } := by
  refine ⟨hjoinable, hjoined, hok, fun hactive => ?_, fun hmem => ?_⟩
  · rw [hdead] at hactive
    contradiction
  · rcases List.mem_append.mp hmem with hold | hnew
    · exact absurd hold (hinv.not_rejected hrest)
    · exact absurd hnew hquiet

/-- Joining keeps the invariant; the receive loop has ended then. -/
theorem AliveInv.join (hinv : AliveInv es S) (hrest : ¬MainPos.AtRest S.main) {next : MainPos}
    (hok : ∀ isActive, MainPos.Ok isActive next) (hbeginning : next.beginning = true)
    (h : S.join next = some (S', e)) : AliveInv (es ++ e) S' := by
  unfold ClientProcess.join at h
  split_ifs at h with hjoinable hloop
  · cases h
    exact hinv.toBeginning hrest (fun hrunning => absurd hloop hrunning) (fun _ => ⟨hloop, rfl⟩) (hok _)
      hbeginning List.not_mem_nil
  · have hloop : S.loop = .absent := by
      by_contra hrunning
      exact hjoinable (hinv.joinable hrunning)
    rw [Bool.not_eq_true] at hjoinable
    cases h
    exact hinv.toBeginning hrest (fun hrunning => absurd hloop hrunning) (fun _ => ⟨hloop, hjoinable⟩)
      (hok _) hbeginning List.not_mem_nil

/-- The receive loop is started. -/
theorem AliveInv.start (hinv : AliveInv es S) {r : Received} (hpos : S.main = .onReceive .ntfStart r)
    {version : UInt32} : AliveInv (es ++ [.started version])
      { S with vars := { S.vars with joinable := true }, main := .onReceive (.store .chk) r, loop := .test } := by
  have hmain := hinv.main
  rw [hpos] at hmain
  refine ⟨fun _ => rfl, fun hjoined => by contradiction, ⟨hmain.1, rfl⟩, fun _ _ => Or.inl ⟨rfl, ?_⟩,
    fun hmem => ?_⟩
  · exact ⟨es, version, [], rfl, by simp⟩
  · have hold : .rejected true ∈ es := by simpa using hmem
    exact absurd hold (hinv.not_rejected (by rw [hpos]; exact id))

/-- The main loop moves on outside of `Begin`. -/
theorem AliveInv.move (hinv : AliveInv es S) {vars : ClientVars} {next : MainPos}
    (hactive : vars.isActive = S.vars.isActive) (hjoinable : vars.joinable = S.vars.joinable)
    (hbefore : S.main.beginning = false) (hjoined : next.joined = false)
    (hok : MainPos.Ok vars.isActive next) (hwedged : .rejected true ∈ es → MainPos.AtRest next)
    (hquiet : ∀ x ∈ e, (∀ wasOver, x ≠ .begun wasOver) ∧ ∀ alive, x ≠ .rejected alive) :
    AliveInv (es ++ e) { S with vars := vars, main := next } := by
  have hrejected : .rejected true ∈ es ++ e ↔ .rejected true ∈ es := by
    rw [List.mem_append, or_iff_left]
    exact fun hmem => (hquiet _ hmem).2 true rfl
  constructor
  · rw [hjoinable]
    exact hinv.joinable
  · intro hnot
    rw [hjoined] at hnot
    contradiction
  · exact hok
  · intro halive _
    rw [hactive] at halive
    rcases hinv.alive halive hbefore with ⟨hover, hstarted⟩ | hmem
    · exact Or.inl ⟨hover, hstarted.append fun wasOver hmem => (hquiet _ hmem).1 wasOver rfl⟩
    · exact Or.inr (hrejected.mpr hmem)
  · intro hmem
    obtain ⟨halive, hloop, -⟩ := hinv.wedged (hrejected.mp hmem)
    exact ⟨hactive.trans halive, hloop, hwedged (hrejected.mp hmem)⟩

/-- The integrity check of an NTF fails: the transaction stays as it is, and no loop is started. -/
theorem AliveInv.reject (hinv : AliveInv es S) (hrest : ¬MainPos.AtRest S.main) (hloop : S.loop = .absent) :
    AliveInv (es ++ [.rejected S.vars.isActive]) { S with main := .idle } := by
  have hwedged : .rejected true ∈ es ++ [.rejected S.vars.isActive] ↔ S.vars.isActive = true := by
    rw [List.mem_append, or_iff_right (hinv.not_rejected hrest), List.mem_singleton,
      ClientProcessEvent.rejected.injEq]
    exact eq_comm
  refine ⟨hinv.joinable, fun hnot => by contradiction, trivial, fun halive _ => ?_, fun hmem => ?_⟩
  · exact Or.inr (hwedged.mpr halive)
  · exact ⟨hwedged.mp hmem, hloop, trivial⟩

/-- A statement of `OnReceive` in the main loop keeps the invariant. -/
theorem AliveInv.mainReceive (hinv : AliveInv es S) {pos : ReceivePos} {r : Received}
    (hpos : S.main = .onReceive pos r) (h : S.mainReceive c ops pos r = some (S', e)) :
    AliveInv (es ++ e) S' := by
  have hmain := hinv.main
  rw [hpos] at hmain
  obtain ⟨hid, hntf⟩ := hmain
  have hrest : ¬MainPos.AtRest S.main := by
    rw [hpos]
    exact id
  have hjoined := hinv.joined
  rw [hpos] at hjoined
  cases pos with
  | ntfJoin =>
    refine hinv.join hrest ?_ ?_ h
    · exact fun _ => ⟨hid, rfl⟩
    · rfl
  | ntfStart =>
    cases h
    exact hinv.start hpos
  | hear =>
    cases h
    exact hinv.toBeginning hrest hinv.joinable (fun _ => hjoined rfl) ⟨hid, rfl⟩ rfl (by simp)
  | check =>
    simp only [ClientProcess.mainReceive, ClientTransaction.receiveStep] at h
    by_cases hvalid : ClientTransaction.validateMessageIntegrity r.msg r.len = true
    · have hbranch : ∃ pos', ClientTransaction.branch r = some pos' ∧ pos'.ofNtf = true ∧
          (MainPos.onReceive pos' r).beginning = true := by
        rw [ClientTransaction.branch, hid]
        by_cases hlen : r.payloadLen ≠ 4
        · exact ⟨.store .cxl, if_pos hlen, rfl, rfl⟩
        · exact ⟨.ntfStatus, if_neg hlen, rfl, rfl⟩
      obtain ⟨pos', hpos', hntf', hbeginning⟩ := hbranch
      rw [hvalid, hpos'] at h
      cases h
      exact hinv.toBeginning hrest hinv.joinable (fun _ => hjoined rfl) ⟨hid, hntf'⟩ hbeginning (by simp)
    · rw [Bool.not_eq_true] at hvalid
      rw [hvalid] at h
      cases h
      exact hinv.reject hrest (hjoined rfl).1
  | ntfStatus =>
    cases h
    exact hinv.toBeginning hrest hinv.joinable (fun _ => hjoined rfl) ⟨hid, rfl⟩ rfl (by simp)
  | ntfVersion =>
    cases h
    exact hinv.toBeginning hrest hinv.joinable (fun _ => hjoined rfl) ⟨hid, rfl⟩ rfl (by simp)
  | dead =>
    cases h
    exact hinv.giveUp hrest hinv.joinable (fun _ => hjoined rfl) ⟨hid, rfl⟩ rfl (by simp)
  | store id =>
    cases h
    have hkind : id = .chk ∨ id = .cxl := of_decide_eq_true hntf
    rcases hkind with rfl | rfl
    · exact hinv.move rfl rfl (by rw [hpos]; rfl) rfl ⟨hid, rfl⟩
        (fun hmem => absurd hmem (hinv.not_rejected hrest)) (by simp)
    · exact hinv.toBeginning hrest hinv.joinable (fun _ => hjoined rfl) ⟨hid, rfl⟩ rfl (by simp)
  | send id =>
    cases h
    have hkind : id = .chk ∨ id = .cxl := of_decide_eq_true hntf
    have hbefore : S.main.beginning = false := by
      rw [hpos]
      rcases hkind with rfl | rfl <;> rfl
    exact hinv.move rfl rfl hbefore rfl trivial (fun _ => trivial) (by simp)
  | infoTest | infoMatch | infoStatus | infoSize | infoCrc | infoTotal | infoOpen | infoOpened => contradiction
  | dataTest | dataLength | dataNumber | dataWrite | dataWritten | dataStatus | dataCount => contradiction
  | dataLast | dataClose | dataSize | dataCrc => contradiction
  | finTest | finStatus | finDead | finCall => contradiction
  | cxlOpen | cxlClose | cxlRemove | cxlStatus => contradiction

/-- A statement of the main loop keeps the invariant. -/
theorem AliveInv.mainStep (hinv : AliveInv es S) (h : S.mainStep c ops = some (S', e)) :
    AliveInv (es ++ e) S' := by
  have hmain := hinv.main
  unfold ClientProcess.mainStep at h
  split at h
  case h_1 => contradiction
  case h_2 r hpos =>
    have hbefore : S.main.beginning = false := by
      rw [hpos]
      rfl
    split_ifs at h with hactive
    · cases h
      exact hinv.move rfl rfl hbefore rfl trivial (fun _ => trivial) (by simp)
    · cases h
      exact hinv.move rfl rfl hbefore rfl trivial (fun hmem => absurd (hinv.wedged hmem).1 hactive) (by simp)
  case h_3 r hpos =>
    have hrest : ¬MainPos.AtRest S.main := by
      rw [hpos]
      exact id
    split_ifs at h with hid
    · cases h
      exact hinv.toBeginning hrest hinv.joinable (fun hnot => by contradiction) (Or.inl hid) rfl (by simp)
    · cases h
      exact hinv.giveUp hrest hinv.joinable (fun hnot => by contradiction) (Or.inr rfl) rfl (by simp)
  case h_4 r hpos =>
    have hrest : ¬MainPos.AtRest S.main := by
      rw [hpos]
      exact id
    rw [hpos] at hmain
    split_ifs at h with hactive
    · cases h
      have hid : r.id? = some .ntf := hmain.resolve_right (by rw [hactive]; exact Bool.noConfusion)
      exact hinv.toBeginning hrest hinv.joinable (fun hnot => by contradiction) hid rfl (by simp)
    · rw [Bool.not_eq_true] at hactive
      cases h
      exact hinv.giveUp hrest hinv.joinable (fun hnot => by contradiction) trivial hactive (by simp)
  case h_5 r hpos =>
    rw [hpos] at hmain
    refine hinv.join ?_ ?_ ?_ h
    · rw [hpos]
      exact id
    · exact fun _ => ⟨hmain, rfl⟩
    · rfl
  case h_6 pos r _ hpos =>
    have hrest : ¬MainPos.AtRest S.main := by
      rw [hpos]
      exact id
    rw [hpos] at hmain
    cases h
    have hkeep := ClientTransaction.resetStep_frame ops S.vars pos
    refine hinv.toBeginning hrest ?_ (fun hnot => by contradiction) hmain rfl (by simp)
    rw [hkeep.1]
    exact hinv.joinable
  case h_7 pos r hpos => exact hinv.mainReceive hpos h

/-- Datagrams and timeouts move the receive loop within its body. -/
theorem AliveInv.congr (hinv : AliveInv es S) (hvars : S'.vars = S.vars) (hmain : S'.main = S.main)
    (habsent : S'.loop = .absent ↔ S.loop = .absent) (hover : S'.loop.over = S.loop.over)
    (hquiet : ∀ x ∈ e, (∀ wasOver, x ≠ .begun wasOver) ∧ ∀ alive, x ≠ .rejected alive) :
    AliveInv (es ++ e) S' := by
  have hrejected : .rejected true ∈ es ++ e ↔ .rejected true ∈ es := by
    rw [List.mem_append, or_iff_left]
    exact fun hmem => (hquiet _ hmem).2 true rfl
  constructor
  · rw [hvars, Ne, habsent]
    exact hinv.joinable
  · rw [hvars, hmain, habsent]
    exact hinv.joined
  · rw [hvars, hmain]
    exact hinv.main
  · rw [hvars, hmain, hover, hrejected]
    intro hactive hbeginning
    rcases hinv.alive hactive hbeginning with ⟨hrunning, hstarted⟩ | hmem
    · exact Or.inl ⟨hrunning, hstarted.append fun wasOver hmem => (hquiet _ hmem).1 wasOver rfl⟩
    · exact Or.inr hmem
  · rw [hvars, hmain, habsent, hrejected]
    exact hinv.wedged

/-- Every step keeps the invariant. -/
theorem AliveInv.step {a : ClientProcessAction} (hinv : AliveInv es S) (h : S.step c a = some (S', e)) :
    AliveInv (es ++ e) S' := by
  cases a with
  | main ops =>
    simp only [ClientProcess.step] at h
    split_ifs at h
    exact hinv.mainStep h
  | loop ops =>
    simp only [ClientProcess.step] at h
    split_ifs at h
    exact hinv.loopStep h
  | mainDatagram buffer d =>
    simp only [ClientProcess.step] at h
    split_ifs at h with hblocked
    have hpos : S.main = .idle := by
      by_contra hpos
      exact hblocked (Or.inr hpos)
    split at h
    · cases h
      exact hinv.congr rfl rfl Iff.rfl rfl (by simp)
    · cases h
      exact hinv.move rfl rfl (by rw [hpos]; rfl) rfl trivial (fun _ => trivial) (by simp)
  | loopDatagram buffer d =>
    simp only [ClientProcess.step] at h
    split_ifs at h with hblocked
    have hpos : S.loop = .receive := by
      by_contra hpos
      exact hblocked (Or.inr hpos)
    split at h
    · cases h
      exact hinv.congr rfl rfl Iff.rfl rfl (by simp)
    · cases h
      exact hinv.congr rfl rfl (by simp [hpos]) (by rw [hpos]; rfl) (by simp)
  | loopTimeout =>
    simp only [ClientProcess.step] at h
    split_ifs at h with hblocked
    have hpos : S.loop = .receive := by
      by_contra hpos
      exact hblocked (Or.inr hpos)
    cases h
    exact hinv.congr rfl rfl (by simp [hpos]) (by rw [hpos]; rfl) (by simp)

/-- The invariant holds in every reachable state. -/
theorem aliveInv_of_trace (h : (clientProcess c).Trace es S) : AliveInv es S := by
  refine h.invariant (I := fun es S => AliveInv es S) ?_ ?_
  · rintro S ⟨tempFile, rfl⟩
    exact ⟨fun hnot => by contradiction, fun hnot => by contradiction, trivial, fun hnot => by contradiction,
      fun hnot => by contradiction⟩
  · intro es S a S' e _ hinv hstep
    exact hinv.step hstep

/-- A transaction that is alive has a receive loop unless an NTF was rejected while it was alive.

Between two iterations of `Client::HandleIncomingMessages`: if `is_active_` holds, then a receive loop
runs that was started since the last `Begin`, if and only if no NTF that `Begin` let through failed the
integrity check while `is_active_` held. -/
theorem alive_has_loop_iff (h : (clientProcess c).Trace es S) (hidle : S.main = .idle) :
    (S.vars.isActive = true → S.loop.over = false ∧ StartedSinceBegun es) ↔ .rejected true ∉ es := by
  have hinv := aliveInv_of_trace h
  constructor
  · intro halive hmem
    obtain ⟨hactive, hloop, -⟩ := hinv.wedged hmem
    have hover := (halive hactive).1
    rw [hloop] at hover
    contradiction
  · intro hclean hactive
    exact (hinv.alive hactive (by rw [hidle]; rfl)).resolve_right hclean

/-- `Begin` accepts an NTF that `OnReceive` accepts. -/
theorem begin_accepts (c : ClientTransaction) (v : ClientVars) {r : Received} (ops : FileOps)
    (hr : r.Notifies) : ∃ w e, c.begin v r ops = some (w, e) ∧ w.isActive = true ∧ w.joinable = true := by
  obtain ⟨hintact, hid, hlen⟩ := hr
  have hactive : (ClientTransaction.reset { v with isActive := true } ops).isActive = true := by
    rw [ClientTransaction.reset, ClientVars.closeStream_eq]
  have hfresh : (ClientTransaction.reset { v with isActive := true } ops).joinable = false := rfl
  unfold ClientTransaction.begin
  rw [if_pos hid]
  generalize ClientTransaction.reset { v with isActive := true } ops = u at hactive hfresh
  have hreceive : ∃ w e, c.onReceive u r ops = some (w, e) ∧ w.isActive = true ∧ w.joinable = true := by
    have hheard : (u.heardFrom r.addr).joinable = false := hfresh
    simp only [ClientTransaction.onReceive, ClientTransaction.validateMessageIntegrity, hintact, hid,
      ClientTransaction.onNtf, hlen, hheard]
    exact ⟨_, _, rfl, hactive, rfl⟩
  obtain ⟨w, e, hw, hstarted⟩ := hreceive
  exact ⟨w, .began :: e, by rw [hw]; rfl, hstarted⟩

/-- An NTF starts the receive loop of a client that is not alive. -/
theorem notify_run (c : ClientTransaction) {v : ClientVars} {r : Received} (hdead : v.isActive = false)
    (hr : r.Notifies) :
    ∃ es w, (clientProcess c).Run (waiting v) es ⟨w, .idle, .receive, false⟩ ∧ w.isActive = true := by
  obtain ⟨w, e, hbegin, hactive, hjoinable⟩ := begin_accepts c v ⟨true, true, 0⟩ hr
  obtain ⟨es, hrun, -, -⟩ := begin_handled hdead hbegin
  have hreceiving : (w.joinable && w.isActive) = true := by
    rw [hjoinable, hactive]
    rfl
  rw [waiting_receiving hreceiving] at hrun
  exact ⟨es, w, hrun, hactive⟩

/-- The NTF of the smallest transfer is such an NTF. -/
theorem oneByte_notifies : (oneByte.received .ntf).Notifies := by
  have hfrom : (oneByte.received .ntf).From (oneByte.packet ⟨1, 3⟩ .ntf) :=
    Received.ofMessage_from _ _ _ (oneByte.payloadLen_le .ntf)
  have harrived := ServerTransaction.arrived_of_from hfrom
  exact ⟨harrived.intact, harrived.id, harrived.payloadLen⟩

/-- An intact NTF at the main socket of a client that has just started. -/
theorem alive_has_loop_notified :
    ∃ es S, (clientProcess smallClient).Trace es S ∧ S.vars.isActive = true ∧ S.loop.over = false ∧
      StartedSinceBegun es := by
  obtain ⟨es, w, hrun, hactive⟩ :=
    notify_run smallClient (v := ClientTransaction.initialVars none) rfl oneByte_notifies
  have htrace : (clientProcess smallClient).Trace es ⟨w, .idle, .receive, false⟩ := ⟨_, ⟨none, rfl⟩, hrun⟩
  have hclean : .rejected true ∉ es := by
    intro hmem
    have habsent := ((aliveInv_of_trace htrace).wedged hmem).2.1
    contradiction
  have halive := (alive_has_loop_iff htrace rfl).mpr hclean hactive
  exact ⟨es, _, htrace, hactive, halive.1, halive.2⟩

/-- An NTF that fails the integrity check, at the main socket of a client that is not alive. -/
theorem reject_run (c : ClientTransaction) {v : ClientVars} {r : Received} (hdead : v.isActive = false)
    (hid : r.id? = some .ntf) (hinvalid : r.msg.intact r.len = false) :
    ∃ es S, (clientProcess c).Run (waiting v) es S ∧ S.main = .idle ∧ .rejected true ∈ es := by
  have hops : FileOps := ⟨true, true, 0⟩
  have hactive : (ClientTransaction.reset { v with isActive := true } hops).isActive = true := by
    rw [ClientTransaction.reset, ClientVars.closeStream_eq]
  have hbegin := (mainDatagram_run c v .absent r).trans (begin_run c hops hdead hid)
  generalize ClientTransaction.reset { v with isActive := true } hops = w at hactive hbegin
  have hhear : (clientProcess c).Run ⟨w, .onReceive .hear r, .absent, false⟩ []
      ⟨w.heardFrom r.addr, .onReceive .check r, .absent, false⟩ := main_run hops rfl rfl
  have hcheck : (clientProcess c).Run ⟨w.heardFrom r.addr, .onReceive .check r, .absent, false⟩
      [.rejected true] ⟨w.heardFrom r.addr, .idle, .absent, false⟩ := by
    apply main_run hops rfl
    have halive : (w.heardFrom r.addr).isActive = true := hactive
    simp [mainStep, mainReceive, ClientTransaction.receiveStep, ClientTransaction.validateMessageIntegrity,
      hinvalid, halive]
  rw [waiting_dead hdead]
  exact ⟨_, _, hbegin.trans (hhear.trans hcheck), rfl, by simp⟩

/-- The first bytes of an NTF, up to the end of its header. -/
def shortNtf : Received := .ofMessage oneByte.udpSocket (oneByte.message .ntf) 0 (Nat.zero_le _)

/-- The header of an NTF without its payload leaves the client alive without a loop, for good. -/
theorem wedged_by_short_ntf :
    ∃ es S, (clientProcess smallClient).Trace es S ∧ S.main = .idle ∧ S.vars.isActive = true ∧
      S.loop = .absent ∧ ∀ es' S', (clientProcess smallClient).Run S es' S' →
        S'.vars.isActive = true ∧ S'.loop = .absent := by
  have hid : shortNtf.id? = some .ntf := MessageId.ofXid_toXid .ntf
  have hinvalid : shortNtf.msg.intact shortNtf.len = false :=
    TrftpMessage.not_intact_of_length (by decide)
  obtain ⟨es, S, hrun, hidle, hrejected⟩ := reject_run smallClient (v := ClientTransaction.initialVars none)
    rfl hid hinvalid
  have htrace : (clientProcess smallClient).Trace es S := ⟨_, ⟨none, rfl⟩, hrun⟩
  have hwedged : ∀ es' S', (clientProcess smallClient).Run S es' S' →
      S'.vars.isActive = true ∧ S'.loop = .absent := by
    intro es' S' hrun'
    obtain ⟨hactive, hloop, -⟩ :=
      (aliveInv_of_trace (htrace.run hrun')).wedged (List.mem_append_left es' hrejected)
    exact ⟨hactive, hloop⟩
  obtain ⟨hactive, hloop⟩ := hwedged [] S (.nil S)
  exact ⟨es, S, htrace, hidle, hactive, hloop, hwedged⟩

end ClientProcess

end Trftp
