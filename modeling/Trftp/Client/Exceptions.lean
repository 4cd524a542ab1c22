import Trftp.Client.Alive

/-!
# What brings a loop of the client down

Nothing in the two loops catches an exception. `Receive` throws on an empty datagram. In the
receive loop of the transaction, the branch for NTF joins the thread that it runs in, which
throws. `file_size` throws if there is no file, but the branch for DATA gets there only behind
an INFO that created one: the file is removed on the way to the status CXL alone.
-/

namespace Trftp

open Lib (EventMachine)

/-- A datagram that brings the loop of this thread down: an empty one, or an NTF at the socket of the
transaction. -/
def ClientThread.FelledBy (thread : ClientThread) (d : Datagram) (r? : Option Received) : Prop :=
  d.bytes = [] ∨ thread = .loop ∧ ∃ r, r? = some r ∧ r.Notifies

/-- A loop has taken such a datagram. -/
def Felled (es : List ClientProcessEvent) : Prop :=
  ∃ thread d r?, .received thread d r? ∈ es ∧ thread.FelledBy d r?

/-- It stays so. -/
theorem Felled.append {es : List ClientProcessEvent} (h : Felled es) (e : List ClientProcessEvent) :
    Felled (es ++ e) := by
  obtain ⟨thread, d, r?, hmem, hfelled⟩ := h
  exact ⟨thread, d, r?, List.mem_append_left e hmem, hfelled⟩

/-- Steps that take no such datagram do not change that. -/
theorem felled_append_iff {es e : List ClientProcessEvent} (he : ¬Felled e) : Felled (es ++ e) ↔ Felled es := by
  constructor
  · rintro ⟨thread, d, r?, hmem, hfelled⟩
    rcases List.mem_append.mp hmem with hold | hnew
    · exact ⟨thread, d, r?, hold, hfelled⟩
    · exact absurd ⟨thread, d, r?, hnew, hfelled⟩ he
  · exact fun h => h.append e

/-- Positions in the branch for NTF. -/
def ReceivePos.notified : ReceivePos → Bool
  | .ntfStatus | .ntfVersion | .ntfJoin | .ntfStart => true
  | .hear | .check | .store _ | .dead | .send _ => false
  | .infoTest | .infoMatch | .infoStatus | .infoSize | .infoCrc | .infoTotal | .infoOpen | .infoOpened => false
  | .dataTest | .dataLength | .dataNumber | .dataWrite | .dataWritten | .dataStatus | .dataCount => false
  | .dataLast | .dataClose | .dataSize | .dataCrc => false
  | .finTest | .finStatus | .finDead | .finCall => false
  | .cxlOpen | .cxlClose | .cxlRemove | .cxlStatus => false

/-- Positions on the way to the joining, for an NTF. -/
def ReceivePos.beforeJoin : ReceivePos → Bool
  | .hear | .check | .ntfStatus | .ntfVersion | .ntfJoin => true
  | .ntfStart | .store _ | .dead | .send _ => false
  | .infoTest | .infoMatch | .infoStatus | .infoSize | .infoCrc | .infoTotal | .infoOpen | .infoOpened => false
  | .dataTest | .dataLength | .dataNumber | .dataWrite | .dataWritten | .dataStatus | .dataCount => false
  | .dataLast | .dataClose | .dataSize | .dataCrc => false
  | .finTest | .finStatus | .finDead | .finCall => false
  | .cxlOpen | .cxlClose | .cxlRemove | .cxlStatus => false

/-- The kind of the messages that reach a position. -/
def ReceivePos.kind? : ReceivePos → Option MessageId
  | .ntfStatus | .ntfVersion | .ntfJoin | .ntfStart => some .ntf
  | .infoTest | .infoMatch | .infoStatus | .infoSize | .infoCrc | .infoTotal | .infoOpen | .infoOpened => some .info
  | .dataTest | .dataLength | .dataNumber | .dataWrite | .dataWritten | .dataStatus | .dataCount => some .data
  | .dataLast | .dataClose | .dataSize | .dataCrc => some .data
  | .finTest | .finStatus | .finDead | .finCall => some .fin
  | .cxlOpen | .cxlClose | .cxlRemove | .cxlStatus => some .cxl
  | .hear | .check | .store _ | .dead | .send _ => none

/-- Positions that are reached with a file at `new_file_path_`. -/
def ReceivePos.needsFile : ReceivePos → Bool
  | .dataLength | .dataNumber | .dataWrite | .dataWritten | .dataStatus | .dataCount => true
  | .dataLast | .dataClose | .dataSize | .dataCrc => true
  | .store id => id = .rdy ∨ id = .data
  | .hear | .check | .ntfStatus | .ntfVersion | .ntfJoin | .ntfStart | .dead | .send _ => false
  | .infoTest | .infoMatch | .infoStatus | .infoSize | .infoCrc | .infoTotal | .infoOpen | .infoOpened => false
  | .dataTest | .finTest | .finStatus | .finDead | .finCall => false
  | .cxlOpen | .cxlClose | .cxlRemove | .cxlStatus => false

/-- Where a file is at `new_file_path_`, by what the members and the position of the receive loop say. -/
structure FileKept (v : ClientVars) (pos : Option ReceivePos) : Prop where
  /-- an open stream has its file -/
  stream : v.newFileStream.isOpen = true → v.tempFile ≠ none
  /-- the removal has closed the stream -/
  removed : pos = some .cxlRemove → v.newFileStream.isOpen = false
  needed : ∀ p, pos = some p → p.needsFile = true → v.tempFile ≠ none
  /-- DATA is accepted while there is a file -/
  status : v.status = .rdy ∨ v.status = .data → pos ≠ some .cxlStatus → v.tempFile ≠ none

/-- What the main loop does to these members. -/
structure FileFrame (v w : ClientVars) : Prop where
  stream : w.newFileStream.isOpen = true → v.newFileStream.isOpen = true
  file : v.tempFile ≠ none → w.tempFile ≠ none
  status : w.status = .rdy ∨ w.status = .data → v.status = w.status

/-- The main loop does not take the file away. -/
theorem FileKept.frame {v w : ClientVars} {pos : Option ReceivePos} (h : FileKept v pos) (hframe : FileFrame v w) :
    FileKept w pos := by
  constructor
  · exact fun hopen => hframe.file (h.stream (hframe.stream hopen))
  · intro hpos
    by_contra hopen
    rw [Bool.not_eq_false] at hopen
    have hclosed := h.removed hpos
    rw [hframe.stream hopen] at hclosed
    contradiction
  · exact fun p hpos hneeds => hframe.file (h.needed p hpos hneeds)
  · intro hstatus hpos
    have hsame := hframe.status hstatus
    rw [← hsame] at hstatus
    exact hframe.file (h.status hstatus hpos)

/-- A statement that leaves the file alone, and after which no more is asked of it. -/
theorem FileKept.move {v w : ClientVars} {pos : ReceivePos} {next : Option ReceivePos}
    (h : FileKept v (some pos)) (hpos : pos ≠ .cxlStatus)
    (hstream : w.newFileStream.isOpen = v.newFileStream.isOpen) (hfile : w.tempFile = v.tempFile)
    (hstatus : w.status = .rdy ∨ w.status = .data → v.status = w.status) (hnext : next ≠ some .cxlRemove)
    (hneeds : ∀ p, next = some p → p.needsFile = true → pos.needsFile = true) : FileKept w next := by
  constructor
  · rw [hstream, hfile]
    exact h.stream
  · exact fun hremove => absurd hremove hnext
  · intro p hp hneed
    rw [hfile]
    exact h.needed pos rfl (hneeds p hp hneed)
  · intro hw _
    rw [hfile]
    exact h.status (by rwa [hstatus hw]) (by simpa using hpos)

namespace ClientVars

variable {v : ClientVars} {ops : FileOps}

/-- Closing does not take the file away. -/
theorem closeStream_file (h : v.tempFile ≠ none) : (v.closeStream ops).tempFile ≠ none := by
  unfold closeStream
  split_ifs
  · simp
  · exact h

/-- Opening neither. -/
theorem openStream_file (h : v.tempFile ≠ none) : (v.openStream ops).tempFile ≠ none := by
  unfold openStream
  split_ifs
  · exact h
  · simp
  · exact h

/-- A stream that is open behind `open` has its file. -/
theorem openStream_isOpen_file (h : v.newFileStream.isOpen = true → v.tempFile ≠ none) :
    (v.openStream ops).newFileStream.isOpen = true → (v.openStream ops).tempFile ≠ none := by
  unfold openStream
  split_ifs with hopen
  · exact fun _ => h hopen
  · simp
  · exact fun hopen' => absurd hopen' hopen

/-- Writing neither opens nor closes a stream. -/
theorem writeStream_isOpen (data : List UInt8) :
    (v.writeStream ops data).newFileStream.isOpen = v.newFileStream.isOpen := by
  unfold writeStream
  split_ifs <;> rfl

end ClientVars

namespace ClientTransaction

variable {c : ClientTransaction} {r : Received} {ops : FileOps} {v w : ClientVars} {e : List ClientEvent}
  {pos : ReceivePos} {next : Option ReceivePos}

/-- Where the branches begin. -/
theorem branch_cases {p : ReceivePos} (h : branch r = some p) :
    p = .store .cxl ∨ p = .ntfStatus ∨ p = .infoTest ∨ p = .dataTest ∨ p = .finTest ∨ p = .cxlOpen := by
  unfold branch at h
  split at h
  · split_ifs at h <;> cases h <;> simp
  all_goals cases h <;> simp

/-- The check of a message, and what the branches begin with. -/
theorem fileKept_of_check (h : FileKept v (some .check))
    (hstep : c.receiveStep r ops v .check = some (w, e, next)) : FileKept w next := by
  simp only [receiveStep] at hstep
  split_ifs at hstep <;> cases hstep
  · exact h.move (by simp) rfl rfl (by simp) (by simp) (by simp)
  · have hbranch : ∀ p, branch r = some p → p ≠ .cxlRemove ∧ p.needsFile = false := by
      intro p hp
      rcases branch_cases hp with rfl | rfl | rfl | rfl | rfl | rfl <;> simp [ReceivePos.needsFile]
    refine h.move (by simp) rfl rfl (by simp) (fun hp => (hbranch _ hp).1 rfl) fun p hp hneed => ?_
    rw [(hbranch p hp).2] at hneed
    contradiction

/-- The branch for INFO opens a file. -/
theorem fileKept_of_info (h : FileKept v (some pos)) (hpos : pos.kind? = some .info)
    (hstep : c.receiveStep r ops v pos = some (w, e, next)) : FileKept w next := by
  cases pos with
  | infoStatus | infoSize | infoCrc | infoTotal =>
    cases hstep
    exact h.move (by simp) rfl rfl (by simp) (by simp) (by simp [ReceivePos.needsFile])
  | infoTest | infoMatch =>
    simp only [receiveStep] at hstep
    split_ifs at hstep <;> cases hstep <;>
      exact h.move (by simp) rfl rfl (by simp) (by simp) (by simp [ReceivePos.needsFile])
  | infoOpen =>
    cases hstep
    have hsame := ClientVars.openStream_eq v ops
    refine ⟨ClientVars.openStream_isOpen_file h.stream, by simp, by simp [ReceivePos.needsFile], ?_⟩
    intro hstatus _
    rw [hsame] at hstatus
    exact ClientVars.openStream_file (h.status hstatus (by simp))
  | infoOpened =>
    simp only [receiveStep] at hstep
    split_ifs at hstep with hopen <;> cases hstep
    · exact h.move (by simp) rfl rfl (by simp) (by simp) (by simp [ReceivePos.needsFile])
    · rw [Bool.not_eq_true, Bool.not_eq_false'] at hopen
      exact ⟨h.stream, by simp, fun _ _ _ => h.stream hopen, fun _ _ => h.stream hopen⟩
  | _ => contradiction

/-- The branch for DATA works on a file. -/
theorem fileKept_of_data (h : FileKept v (some pos)) (hpos : pos.kind? = some .data)
    (hstep : c.receiveStep r ops v pos = some (w, e, next)) : FileKept w next := by
  cases pos with
  | dataCount =>
    cases hstep
    exact h.move (by simp) rfl rfl (by simp) (by simp) (by simp [ReceivePos.needsFile])
  | dataLength | dataNumber | dataWritten | dataLast =>
    simp only [receiveStep] at hstep
    split_ifs at hstep <;> cases hstep <;>
      exact h.move (by simp) rfl rfl (by simp) (by simp) (by simp [ReceivePos.needsFile])
  | dataTest =>
    simp only [receiveStep] at hstep
    split_ifs at hstep with hstatus <;> cases hstep
    · exact h.move (by simp) rfl rfl (by simp) (by simp) (by simp [ReceivePos.needsFile])
    · have haccepted : v.status = .rdy ∨ v.status = .data := by
        rw [not_not.mp hstatus, dataStatus]
        split_ifs
        · exact Or.inl rfl
        · exact Or.inr rfl
      have hfile := h.status haccepted (by simp)
      exact ⟨h.stream, by simp, fun _ _ _ => hfile, fun _ _ => hfile⟩
  | dataWrite =>
    cases hstep
    refine h.move (by simp) (ClientVars.writeStream_isOpen _) ?_ ?_ (by simp) (by simp [ReceivePos.needsFile])
    · rw [ClientVars.writeStream_eq]
    · rw [ClientVars.writeStream_eq]
      exact fun _ => rfl
  | dataStatus =>
    cases hstep
    have hfile := h.needed .dataStatus rfl rfl
    exact ⟨h.stream, by simp, fun _ _ _ => hfile, fun _ _ => hfile⟩
  | dataClose =>
    cases hstep
    have hfile : (v.closeStream ops).tempFile ≠ none := ClientVars.closeStream_file (h.needed .dataClose rfl rfl)
    exact ⟨fun _ => hfile, by simp, fun _ _ _ => hfile, fun _ _ => hfile⟩
  | dataSize =>
    have hfile := h.needed .dataSize rfl rfl
    simp only [receiveStep] at hstep
    split at hstep
    · contradiction
    · split_ifs at hstep <;> cases hstep <;>
        exact ⟨h.stream, by simp, fun _ _ _ => hfile, fun _ _ => hfile⟩
  | dataCrc =>
    have hfile := h.needed .dataCrc rfl rfl
    simp only [receiveStep] at hstep
    split_ifs at hstep <;> cases hstep <;>
      exact ⟨h.stream, by simp, fun _ _ _ => hfile, fun _ _ => hfile⟩
  | _ => contradiction

/-- The branch for CXL closes the stream before it removes the file. -/
theorem fileKept_of_cxl (h : FileKept v (some pos)) (hpos : pos.kind? = some .cxl)
    (hstep : c.receiveStep r ops v pos = some (w, e, next)) : FileKept w next := by
  cases pos with
  | cxlOpen =>
    simp only [receiveStep] at hstep
    split_ifs at hstep <;> cases hstep <;>
      exact h.move (by simp) rfl rfl (by simp) (by simp) (by simp [ReceivePos.needsFile])
  | cxlClose =>
    cases hstep
    have hclosed := ClientVars.closeStream_isOpen v ops
    refine ⟨?_, fun _ => hclosed, by simp [ReceivePos.needsFile], ?_⟩
    · rw [hclosed]
      exact fun hopen => by contradiction
    · intro hstatus _
      rw [ClientVars.closeStream_eq] at hstatus
      exact ClientVars.closeStream_file (h.status hstatus (by simp))
  | cxlRemove =>
    cases hstep
    have hclosed := h.removed rfl
    refine ⟨?_, by simp, by simp [ReceivePos.needsFile], fun _ hpos => absurd rfl hpos⟩
    rw [hclosed]
    exact fun hopen => by contradiction
  | cxlStatus =>
    cases hstep
    exact ⟨h.stream, by simp, by simp [ReceivePos.needsFile], by simp⟩
  | _ => contradiction

/-- Every statement of `OnReceive` keeps track of the file. -/
theorem receiveStep_fileKept (h : FileKept v (some pos)) (hstep : c.receiveStep r ops v pos = some (w, e, next)) :
    FileKept w next := by
  cases pos with
  | ntfJoin | ntfStart => contradiction
  | hear | ntfStatus | ntfVersion | finStatus | finDead | finCall | dead | send =>
    cases hstep
    exact h.move (by simp) rfl rfl (by simp) (by simp) (by simp [ReceivePos.needsFile])
  | finTest =>
    simp only [receiveStep] at hstep
    split_ifs at hstep <;> cases hstep <;>
      exact h.move (by simp) rfl rfl (by simp) (by simp) (by simp [ReceivePos.needsFile])
  | check => exact fileKept_of_check h hstep
  | infoTest | infoMatch | infoStatus | infoSize | infoCrc | infoTotal | infoOpen | infoOpened =>
    exact fileKept_of_info h rfl hstep
  | dataTest | dataLength | dataNumber | dataWrite | dataWritten | dataStatus | dataCount | dataLast | dataClose
  | dataSize | dataCrc => exact fileKept_of_data h rfl hstep
  | cxlOpen | cxlClose | cxlRemove | cxlStatus => exact fileKept_of_cxl h rfl hstep
  | store id =>
    cases hstep
    refine ⟨h.stream, ?_, ?_, fun hstatus _ => ?_⟩
    · split_ifs <;> simp
    · split_ifs <;> simp [ReceivePos.needsFile]
    · exact h.needed (.store id) rfl (by simpa [ReceivePos.needsFile] using hstatus)

/-- A statement that throws: the two about `thread_`, and `file_size` without a file. -/
theorem receiveStep_eq_none (h : c.receiveStep r ops v pos = none) :
    pos = .ntfJoin ∨ pos = .ntfStart ∨ pos = .dataSize ∧ v.tempFile = none := by
  revert h
  fun_cases ClientTransaction.receiveStep c r ops v pos <;> intro h <;> simp_all

/-- The branch for NTF is reached with an NTF. -/
theorem receiveStep_notifies {p : ReceivePos} (h : pos.notified = true → r.Notifies)
    (hstep : c.receiveStep r ops v pos = some (w, e, some p)) (hp : p.notified = true) : r.Notifies := by
  cases pos with
  | check =>
    by_cases hintact : r.msg.intact r.len = true
    · have hbranch : branch r = some p := by
        simpa [receiveStep, validateMessageIntegrity, hintact] using (congrArg (·.map (·.2.2)) hstep)
      unfold branch at hbranch
      split at hbranch
      case h_1 hid =>
        split_ifs at hbranch with hlen <;> cases hbranch
        · contradiction
        · exact ⟨hintact, hid, not_not.mp hlen⟩
      all_goals cases hbranch <;> contradiction
    · simp [receiveStep, validateMessageIntegrity, hintact] at hstep
  | ntfStatus | ntfVersion | ntfJoin | ntfStart => exact h rfl
  | finCall | send => cases hstep
  | hear | infoStatus | infoSize | infoCrc | infoTotal | infoOpen | finStatus | finDead
  | dataWrite | dataStatus | dataCount | dataClose | dead | cxlClose | cxlRemove | cxlStatus =>
    cases hstep
    contradiction
  | infoTest | infoMatch | infoOpened | dataTest | dataLength | dataNumber | dataWritten | dataLast | dataCrc
  | finTest | cxlOpen =>
    simp only [receiveStep] at hstep
    split_ifs at hstep <;> cases hstep <;> contradiction
  | dataSize =>
    simp only [receiveStep] at hstep
    split at hstep
    · contradiction
    · split_ifs at hstep <;> cases hstep <;> contradiction
  | store id =>
    simp only [receiveStep, Option.some.injEq, Prod.mk.injEq] at hstep
    obtain ⟨-, -, rfl⟩ := hstep
    split_ifs at hp <;> contradiction

/-- An NTF gets to the joining. -/
theorem receiveStep_beforeJoin (hr : r.Notifies) (hpos : pos.beforeJoin = true)
    (hstep : c.receiveStep r ops v pos = some (w, e, next)) : ∃ p, next = some p ∧ p.beforeJoin = true := by
  cases pos with
  | hear | ntfStatus | ntfVersion =>
    cases hstep
    exact ⟨_, rfl, rfl⟩
  | check =>
    simp only [receiveStep, validateMessageIntegrity, hr.1, branch, hr.2.1, hr.2.2] at hstep
    cases hstep
    exact ⟨_, rfl, rfl⟩
  | ntfJoin => contradiction
  | ntfStart | store | dead | send => contradiction
  | infoTest | infoMatch | infoStatus | infoSize | infoCrc | infoTotal | infoOpen | infoOpened => contradiction
  | dataTest | dataLength | dataNumber | dataWrite | dataWritten | dataStatus | dataCount => contradiction
  | dataLast | dataClose | dataSize | dataCrc | finTest | finStatus | finDead | finCall => contradiction
  | cxlOpen | cxlClose | cxlRemove | cxlStatus => contradiction

/-- `Reset` does not take the file away. -/
theorem resetStep_fileFrame (ops : FileOps) (v : ClientVars) (pos : ResetPos) :
    FileFrame v (resetStep ops v pos).1 := by
  cases pos with
  | close =>
    refine ⟨fun hopen => ?_, ClientVars.closeStream_file, fun _ => ?_⟩
    · rw [resetStep, ClientVars.closeStream_isOpen] at hopen
      contradiction
    · rw [resetStep, ClientVars.closeStream_eq]
  | address | total | psn | version | size | crc | join => exact ⟨id, id, fun _ => rfl⟩

/-- Nor does `OnReceive` for an NTF. -/
theorem receiveStep_fileFrame (hntf : pos.ofNtf = true) (hstep : c.receiveStep r ops v pos = some (w, e, next)) :
    FileFrame v w := by
  cases pos with
  | ntfJoin | ntfStart => contradiction
  | hear | dead | send =>
    cases hstep
    exact ⟨id, id, fun _ => rfl⟩
  | check =>
    simp only [receiveStep] at hstep
    split_ifs at hstep <;> cases hstep <;> exact ⟨id, id, fun _ => rfl⟩
  | ntfStatus =>
    cases hstep
    exact ⟨id, id, by simp⟩
  | ntfVersion =>
    cases hstep
    exact ⟨id, id, fun _ => rfl⟩
  | store id =>
    cases hstep
    have hkind : id = .chk ∨ id = .cxl := of_decide_eq_true hntf
    refine ⟨fun h => h, fun h => h, fun hstatus => ?_⟩
    rcases hkind with rfl | rfl <;> simp at hstatus
  | infoTest | infoMatch | infoStatus | infoSize | infoCrc | infoTotal | infoOpen | infoOpened => contradiction
  | dataTest | dataLength | dataNumber | dataWrite | dataWritten | dataStatus | dataCount => contradiction
  | dataLast | dataClose | dataSize | dataCrc | finTest | finStatus | finDead | finCall => contradiction
  | cxlOpen | cxlClose | cxlRemove | cxlStatus => contradiction

end ClientTransaction

/-- The position of the receive loop in `OnReceive`, if it is there. -/
def LoopPos.receivePos? : LoopPos → Option ReceivePos
  | .onReceive pos _ => some pos
  | .absent | .test | .receive | .timeoutStore | .timeoutDead | .timeoutSend => none

namespace ClientProcess

variable {c : ClientTransaction} {S S' : ClientProcess} {ops : FileOps} {e es : List ClientProcessEvent}

/-- What a statement of the main loop does to what keeps the loops up. -/
structure MainFrame (S S' : ClientProcess) (e : List ClientProcessEvent) : Prop where
  file : FileFrame S.vars S'.vars
  terminated : S'.terminated = S.terminated
  /-- the receive loop stays where it is, or it is started -/
  loop : S'.loop = S.loop ∨ S.loop = .absent ∧ S'.loop = .test
  quiet : ¬Felled e

/-- Where the main loop joins, no loop throws. -/
theorem join_frame {next : MainPos} (h : S.join next = some (S', e)) : MainFrame S S' e := by
  unfold join at h
  split_ifs at h <;> cases h <;> exact ⟨⟨id, id, fun _ => rfl⟩, rfl, Or.inl rfl, by simp [Felled]⟩

/-- Every statement of the main loop stays within the frame. In particular it does not throw. -/
theorem mainStep_frame (hinv : AliveInv es S) (h : S.mainStep c ops = some (S', e)) : MainFrame S S' e := by
  have hmain := hinv.main
  unfold mainStep at h
  split at h
  case h_1 => contradiction
  case h_2 | h_3 | h_4 =>
    split_ifs at h <;> cases h <;> exact ⟨⟨id, id, fun _ => rfl⟩, rfl, Or.inl rfl, by simp [Felled]⟩
  case h_5 => exact join_frame h
  case h_6 pos r _ _ =>
    cases h
    exact ⟨ClientTransaction.resetStep_fileFrame ops S.vars pos, rfl, Or.inl rfl, by simp [Felled]⟩
  case h_7 pos r hpos =>
    rw [hpos] at hmain
    unfold mainReceive at h
    split at h
    case h_1 => exact join_frame h
    case h_2 =>
      cases h
      have habsent := (hinv.joined (by rw [hpos]; rfl)).1
      exact ⟨⟨id, id, fun _ => rfl⟩, rfl, Or.inr ⟨habsent, rfl⟩, by simp [Felled]⟩
    case h_3 hjoin hstart =>
      split at h
      case h_1 hthrows =>
        rcases ClientTransaction.receiveStep_eq_none hthrows with rfl | rfl | ⟨rfl, -⟩
        · exact absurd rfl hjoin
        · exact absurd rfl hstart
        · exact absurd hmain.2 (by simp [ReceivePos.ofNtf])
      case h_2 vars x next hstep =>
        cases h
        refine ⟨ClientTransaction.receiveStep_fileFrame hmain.2 hstep, rfl, Or.inl rfl, ?_⟩
        rintro ⟨thread, d, r?, hmem, -⟩
        rcases List.mem_append.mp hmem with hmem | hmem
        · split_ifs at hmem <;> simp at hmem
        · simp at hmem

/-- Why the loops are up, or what has brought one down. -/
structure UpInv (es : List ClientProcessEvent) (S : ClientProcess) : Prop where
  file : FileKept S.vars S.loop.receivePos?
  /-- the receive loop works on what it has received -/
  source : ∀ pos r, S.loop = .onReceive pos r → ∃ d, .received .loop d (some r) ∈ es
  notifies : ∀ pos r, S.loop = .onReceive pos r → pos.notified = true → r.Notifies
  felled : S.terminated = true → Felled es
  /-- such a datagram has brought a loop down, or will at the joining -/
  doomed : Felled es → S.terminated = true ∨
    ∃ pos r, S.loop = .onReceive pos r ∧ pos.beforeJoin = true ∧ r.Notifies

/-- A statement of the main loop keeps the invariant. -/
theorem UpInv.mainStep (hinv : UpInv es S) (hframe : MainFrame S S' e) (hrunning : S.terminated = false) :
    UpInv (es ++ e) S' := by
  have hrunning' : S'.terminated = false := hframe.terminated.trans hrunning
  constructor
  · have hkept := hinv.file.frame hframe.file
    rcases hframe.loop with hloop | ⟨habsent, hloop⟩
    · rwa [hloop]
    · rw [habsent] at hkept
      rwa [hloop]
  · intro pos r hpos
    rcases hframe.loop with hloop | ⟨-, hloop⟩ <;> rw [hloop] at hpos
    · obtain ⟨d, hmem⟩ := hinv.source pos r hpos
      exact ⟨d, List.mem_append_left e hmem⟩
    · contradiction
  · intro pos r hpos
    rcases hframe.loop with hloop | ⟨-, hloop⟩ <;> rw [hloop] at hpos
    · exact hinv.notifies pos r hpos
    · contradiction
  · intro hdown
    rw [hrunning'] at hdown
    contradiction
  · intro hfelled
    rcases hinv.doomed ((felled_append_iff hframe.quiet).mp hfelled) with hdown | ⟨pos, r, hpos, hdoomed⟩
    · rw [hrunning] at hdown
      contradiction
    · rcases hframe.loop with hloop | ⟨habsent, -⟩
      · exact Or.inr ⟨pos, r, hloop.trans hpos, hdoomed⟩
      · rw [habsent] at hpos
        contradiction

/-- The receive loop moves outside of `OnReceive`, or leaves it. -/
theorem UpInv.move (hinv : UpInv es S) (hrunning : S.terminated = false) {vars : ClientVars} {loop : LoopPos}
    (hfile : FileKept vars none) (hnext : ∀ pos r, loop ≠ .onReceive pos r) (hquiet : ¬Felled e)
    (hpos : ∀ pos r, S.loop = .onReceive pos r → r.Notifies → pos.beforeJoin = false) :
    UpInv (es ++ e) { S with vars := vars, loop := loop } := by
  have hoff : loop.receivePos? = none := by
    cases loop with
    | onReceive pos r => exact absurd rfl (hnext pos r)
    | absent | test | receive | timeoutStore | timeoutDead | timeoutSend => rfl
  refine ⟨?_, fun pos r heq => absurd heq (hnext pos r), fun pos r heq => absurd heq (hnext pos r),
    fun hdown => ?_, fun hfelled => ?_⟩
  · show FileKept vars loop.receivePos?
    rwa [hoff]
  · rw [show S.terminated = true from hdown] at hrunning
    contradiction
  · rcases hinv.doomed ((felled_append_iff hquiet).mp hfelled) with hdown | ⟨pos, r, heq, hbefore, hr⟩
    · rw [hdown] at hrunning
      contradiction
    · rw [hpos pos r heq hr] at hbefore
      contradiction

/-- What a statement of `OnReceive` shows is not the taking of a datagram. -/
theorem not_felled_shown {thread : ClientThread} {x : List ClientEvent} {p : Prop} [Decidable p] :
    ¬Felled ((if p then [.finished] else []) ++ x.map (.of thread)) := by
  rintro ⟨thread, d, r?, hmem, -⟩
  rcases List.mem_append.mp hmem with hmem | hmem
  · split_ifs at hmem <;> simp at hmem
  · simp at hmem

/-- No statement of the receive loop takes a datagram. -/
theorem loopStep_quiet (h : S.loopStep c ops = some (S', e)) : ¬Felled e := by
  unfold loopStep at h
  split at h
  case h_7 pos r _ =>
    unfold loopReceive at h
    split at h
    case h_1 =>
      split_ifs at h
      cases h
      simp [Felled]
    case h_2 => contradiction
    case h_3 =>
      split at h
      · cases h
        simp [Felled]
      · cases h
        exact not_felled_shown
  case h_2 => split_ifs at h <;> cases h <;> simp [Felled]
  case h_4 | h_5 | h_6 =>
    cases h
    simp [Felled]
  all_goals contradiction

/-- A statement of `OnReceive` in the receive loop keeps the invariant. -/
theorem UpInv.loopReceive (hinv : UpInv es S) (hrunning : S.terminated = false) {pos : ReceivePos} {r : Received}
    (hpos : S.loop = .onReceive pos r) (h : S.loopReceive c ops pos r = some (S', e)) : UpInv (es ++ e) S' := by
  have hfile : FileKept S.vars (some pos) := by
    have hkept := hinv.file
    rwa [hpos] at hkept
  obtain ⟨d, hsource⟩ := hinv.source pos r hpos
  unfold ClientProcess.loopReceive at h
  split at h
  case h_1 =>
    split_ifs at h
    cases h
    have hnotifies := hinv.notifies _ r hpos rfl
    have hfelled : Felled es := ⟨.loop, d, some r, hsource, Or.inr ⟨rfl, r, rfl, hnotifies⟩⟩
    refine ⟨?_, ?_, ?_, fun _ => hfelled.append _, fun _ => Or.inl rfl⟩
    · exact hinv.file
    · intro pos' r' hpos'
      obtain ⟨d, hmem⟩ := hinv.source pos' r' hpos'
      exact ⟨d, List.mem_append_left _ hmem⟩
    · exact hinv.notifies
  case h_2 => contradiction
  case h_3 hjoin hstart =>
    split at h
    case h_1 hthrows =>
      rcases ClientTransaction.receiveStep_eq_none hthrows with rfl | rfl | ⟨rfl, hnone⟩
      · exact absurd rfl hjoin
      · exact absurd rfl hstart
      · exact absurd hnone (hfile.needed .dataSize rfl rfl)
    case h_2 vars x next hstep =>
      cases h
      have hkept := ClientTransaction.receiveStep_fileKept hfile hstep
      have hquiet : ¬Felled ((if pos = .finDead then [.finished] else []) ++ x.map (.of .loop)) :=
        not_felled_shown
      cases next with
      | none =>
        refine hinv.move hrunning hkept (by simp) hquiet fun pos' r' hpos' hr' => ?_
        rw [hpos] at hpos'
        cases hpos'
        by_contra hbefore
        rw [Bool.not_eq_false] at hbefore
        obtain ⟨p, hp, -⟩ := ClientTransaction.receiveStep_beforeJoin hr' hbefore hstep
        contradiction
      | some p =>
        refine ⟨hkept, ?_, ?_, fun hdown => ?_, fun hfelled => ?_⟩
        · intro pos' r' hpos'
          cases hpos'
          exact ⟨d, List.mem_append_left _ hsource⟩
        · intro pos' r' hpos' hnotified
          cases hpos'
          exact ClientTransaction.receiveStep_notifies (hinv.notifies pos r hpos) hstep hnotified
        · rw [show S.terminated = true from hdown] at hrunning
          contradiction
        · right
          rcases hinv.doomed ((felled_append_iff hquiet).mp hfelled) with hdown | ⟨pos', r', hpos', hbefore, hr⟩
          · rw [hdown] at hrunning
            contradiction
          · rw [hpos] at hpos'
            cases hpos'
            obtain ⟨p', hp', hbefore'⟩ := ClientTransaction.receiveStep_beforeJoin hr hbefore hstep
            cases hp'
            exact ⟨_, r, rfl, hbefore', hr⟩

/-- A statement of the receive loop keeps the invariant. -/
theorem UpInv.loopStep (hinv : UpInv es S) (hrunning : S.terminated = false)
    (h : S.loopStep c ops = some (S', e)) : UpInv (es ++ e) S' := by
  have hfile := hinv.file
  unfold ClientProcess.loopStep at h
  split at h
  case h_2 hpos =>
    rw [hpos] at hfile
    split_ifs at h <;> cases h <;>
      exact hinv.move hrunning hfile (by simp) (by simp [Felled]) (by simp [hpos])
  case h_4 hpos | h_5 hpos =>
    rw [hpos] at hfile
    cases h
    refine hinv.move hrunning (hfile.frame ?_) (by simp) (by simp [Felled]) (by simp [hpos])
    exact ⟨id, id, by simp⟩
  case h_6 hpos =>
    rw [hpos] at hfile
    cases h
    exact hinv.move hrunning hfile (by simp) (by simp [Felled]) (by simp [hpos])
  case h_7 pos r hpos => exact hinv.loopReceive hrunning hpos h
  all_goals contradiction

/-- An empty datagram brings the loop down that takes it. -/
theorem UpInv.empty (hinv : UpInv es S) {thread : ClientThread} {d : Datagram} {r? : Option Received}
    (hempty : d.bytes = []) (hmem : .received thread d r? ∈ e) :
    UpInv (es ++ e) { S with terminated := true } := by
  have hfelled : Felled (es ++ e) := ⟨thread, d, r?, List.mem_append_right es hmem, Or.inl hempty⟩
  refine ⟨hinv.file, fun pos r hpos => ?_, hinv.notifies, fun _ => hfelled, fun _ => Or.inl rfl⟩
  obtain ⟨d, hold⟩ := hinv.source pos r hpos
  exact ⟨d, List.mem_append_left e hold⟩

/-- The receive loop takes a datagram that is not empty. -/
theorem UpInv.received (hinv : UpInv es S) (hrunning : S.terminated = false) (hpos : S.loop = .receive)
    {buffer : TrftpMessage} {d : Datagram} {r : Received} (hreceive : udpReceive buffer d = some r) :
    UpInv (es ++ [.received .loop d (some r)]) { S with loop := .onReceive .hear r } := by
  have hfile := hinv.file
  rw [hpos] at hfile
  have hbytes : d.bytes ≠ [] := fun hempty => by
    rw [(udpReceive_eq_none_iff buffer d).mpr hempty] at hreceive
    contradiction
  refine ⟨⟨hfile.stream, by simp [LoopPos.receivePos?], by simp [LoopPos.receivePos?, ReceivePos.needsFile],
    fun hstatus _ => hfile.status hstatus (by simp [LoopPos.receivePos?])⟩, ?_, ?_, fun hdown => ?_, ?_⟩
  · intro pos' r' hpos'
    cases hpos'
    exact ⟨d, by simp⟩
  · intro pos' r' hpos' hnotified
    cases hpos'
    contradiction
  · rw [show S.terminated = true from hdown] at hrunning
    contradiction
  · rintro ⟨thread, d', r?, hmem, hfelled⟩
    rcases List.mem_append.mp hmem with hold | hnew
    · rcases hinv.doomed ⟨thread, d', r?, hold, hfelled⟩ with hdown | ⟨pos', r', hpos', -⟩
      · rw [hdown] at hrunning
        contradiction
      · rw [hpos] at hpos'
        contradiction
    · cases List.mem_singleton.mp hnew
      rcases hfelled with hempty | ⟨-, r', hr', hnotifies⟩
      · exact absurd hempty hbytes
      · cases hr'
        exact Or.inr ⟨.hear, r, rfl, rfl, hnotifies⟩

/-- Every step keeps the invariant. -/
theorem UpInv.step {a : ClientProcessAction} (hinv : UpInv es S) (halive : AliveInv es S)
    (h : S.step c a = some (S', e)) : UpInv (es ++ e) S' := by
  cases a with
  | main ops =>
    simp only [ClientProcess.step] at h
    split_ifs at h with hdown
    exact hinv.mainStep (mainStep_frame halive h) (Bool.not_eq_true _ ▸ hdown)
  | loop ops =>
    simp only [ClientProcess.step] at h
    split_ifs at h with hdown
    exact hinv.loopStep (Bool.not_eq_true _ ▸ hdown) h
  | mainDatagram buffer d =>
    simp only [ClientProcess.step] at h
    split_ifs at h with hblocked
    rw [not_or, Bool.not_eq_true] at hblocked
    split at h
    case h_1 hempty =>
      cases h
      exact hinv.empty ((udpReceive_eq_none_iff buffer d).mp hempty) List.mem_cons_self
    case h_2 r hreceive =>
      cases h
      have hbytes : d.bytes ≠ [] := fun hempty => by
        rw [(udpReceive_eq_none_iff buffer d).mpr hempty] at hreceive
        contradiction
      refine hinv.mainStep ⟨⟨id, id, fun _ => rfl⟩, rfl, Or.inl rfl, ?_⟩ hblocked.1
      simp [Felled, ClientThread.FelledBy, hbytes]
  | loopDatagram buffer d =>
    simp only [ClientProcess.step] at h
    split_ifs at h with hblocked
    rw [not_or, Bool.not_eq_true, not_not] at hblocked
    obtain ⟨hrunning, hpos⟩ := hblocked
    split at h
    case h_1 hempty =>
      cases h
      exact hinv.empty ((udpReceive_eq_none_iff buffer d).mp hempty) List.mem_cons_self
    case h_2 r hreceive =>
      cases h
      exact hinv.received hrunning hpos hreceive
  | loopTimeout =>
    simp only [ClientProcess.step] at h
    split_ifs at h with hblocked
    rw [not_or, Bool.not_eq_true, not_not] at hblocked
    cases h
    have hfile := hinv.file
    rw [hblocked.2] at hfile
    exact hinv.move hblocked.1 hfile (by simp) (by simp [Felled]) (by simp [hblocked.2])

/-- The invariant holds in every reachable state. -/
theorem upInv_of_trace (h : (clientProcess c).Trace es S) : UpInv es S := by
  refine h.invariant (I := fun es S => UpInv es S) ?_ ?_
  · rintro S ⟨tempFile, rfl⟩
    have hfile : FileKept (ClientTransaction.initialVars tempFile) none := by
      constructor <;> simp [ClientTransaction.initialVars]
    exact ⟨hfile, by simp, by simp, by simp, by simp [Felled]⟩
  · intro es S a S' e htrace hinv hstep
    exact hinv.step (aliveInv_of_trace htrace) hstep

/-- The receive loop finishes what it is at, or as much of it as there are answers of the file system. -/
def LoopStays (c : ClientTransaction) (S : ClientProcess) : Prop :=
  ∀ (opss : List FileOps) S' e,
    (clientProcess c).exec S (opss.map ClientProcessAction.loop) = some (S', e) → S'.terminated = false

/-- What holds behind a statement of the receive loop held before. -/
theorem LoopStays.next (h : LoopStays c S) (ops : FileOps) (hrunning : S.terminated = false)
    (hstep : S.loopStep c ops = some (S', e)) : LoopStays c S' := by
  intro opss S'' e' hexec
  refine h (ops :: opss) S'' (e ++ e') ?_
  have hfirst : (clientProcess c).step S (.loop ops) = some (S', e) := by
    show (if S.terminated then none else S.loopStep c ops) = _
    rw [hrunning]
    exact hstep
  rw [List.map_cons, EventMachine.exec, hfirst, Option.bind_some, hexec]
  rfl

/-- On the way to the joining the receive loop does not stay up. -/
theorem not_loopStays {v : ClientVars} {main : MainPos} {pos : ReceivePos} {r : Received}
    (hjoinable : v.joinable = true) (hpos : pos.beforeJoin = true) (hr : r.Notifies) :
    ¬LoopStays c ⟨v, main, .onReceive pos r, false⟩ := by
  intro hstays
  have hops : FileOps := ⟨true, true, 0⟩
  have hjoin : ∀ v : ClientVars, v.joinable = true → ¬LoopStays c ⟨v, main, .onReceive .ntfJoin r, false⟩ := by
    intro v hv hstays
    have hthrows : loopStep c ⟨v, main, .onReceive .ntfJoin r, false⟩ hops =
        some (⟨v, main, .onReceive .ntfJoin r, true⟩, [.threw .loop]) := by
      simp [loopStep, loopReceive, throws, hv]
    exact absurd (hstays.next hops rfl hthrows [] _ [] rfl) (by simp)
  have hversion : ∀ v : ClientVars, v.joinable = true →
      ¬LoopStays c ⟨v, main, .onReceive .ntfVersion r, false⟩ :=
    fun v hv hstays => hjoin { v with newFileVersion := r.msg.ntf.newFileVersion } hv
      (hstays.next hops rfl rfl)
  have hstatus : ∀ v : ClientVars, v.joinable = true →
      ¬LoopStays c ⟨v, main, .onReceive .ntfStatus r, false⟩ :=
    fun v hv hstays => hversion { v with status := .ntf } hv (hstays.next hops rfl rfl)
  have hcheck : ∀ v : ClientVars, v.joinable = true → ¬LoopStays c ⟨v, main, .onReceive .check r, false⟩ := by
    intro v hv hstays
    refine hstatus v hv (hstays.next hops (e := []) rfl ?_)
    simp [loopStep, loopReceive, ClientTransaction.receiveStep, ClientTransaction.validateMessageIntegrity,
      ClientTransaction.branch, hr.1, hr.2.1, hr.2.2]
  have hhear : ∀ v : ClientVars, v.joinable = true → ¬LoopStays c ⟨v, main, .onReceive .hear r, false⟩ :=
    fun v hv hstays => hcheck (v.heardFrom r.addr) hv (hstays.next hops rfl rfl)
  cases pos with
  | hear => exact hhear v hjoinable hstays
  | check => exact hcheck v hjoinable hstays
  | ntfStatus => exact hstatus v hjoinable hstays
  | ntfVersion => exact hversion v hjoinable hstays
  | ntfJoin => exact hjoin v hjoinable hstays
  | ntfStart | store | dead | send => contradiction
  | infoTest | infoMatch | infoStatus | infoSize | infoCrc | infoTotal | infoOpen | infoOpened => contradiction
  | dataTest | dataLength | dataNumber | dataWrite | dataWritten | dataStatus | dataCount => contradiction
  | dataLast | dataClose | dataSize | dataCrc | finTest | finStatus | finDead | finCall => contradiction
  | cxlOpen | cxlClose | cxlRemove | cxlStatus => contradiction

/-- Nor does a sequence of them. -/
theorem loop_exec_quiet (opss : List FileOps)
    (h : (clientProcess c).exec S (opss.map ClientProcessAction.loop) = some (S', e)) : ¬Felled e := by
  induction opss generalizing S e with
  | nil =>
    cases h
    simp [Felled]
  | cons ops opss ih =>
    obtain ⟨⟨S₁, e₁⟩, hstep, hrest⟩ := Option.bind_eq_some_iff.mp h
    obtain ⟨⟨S₂, e₂⟩, hexec, heq⟩ := Option.map_eq_some_iff.mp hrest
    cases heq
    have hfirst : ¬Felled e₁ := by
      simp only [clientProcess, step] at hstep
      split_ifs at hstep
      exact loopStep_quiet hstep
    exact fun hfelled => hfirst ((felled_append_iff (ih hexec)).mp hfelled)

/-- The loops are up, and stay up until the receive loop is through with its message, if and only if no
loop has taken a datagram that brings it down. -/
theorem loopStays_iff (h : (clientProcess c).Trace es S) : LoopStays c S ↔ ¬Felled es := by
  constructor
  · intro hstays hfelled
    rcases (upInv_of_trace h).doomed hfelled with hdown | ⟨pos, r, hpos, hbefore, hr⟩
    · rw [hstays [] S [] rfl] at hdown
      contradiction
    · have hjoinable := (aliveInv_of_trace h).joinable (by rw [hpos]; simp)
      have hrunning := hstays [] S [] rfl
      obtain ⟨v, main, loop, terminated⟩ := S
      cases hpos
      cases hrunning
      exact not_loopStays hjoinable hbefore hr hstays
  · intro hclean opss S' e hexec
    by_contra hdown
    rw [Bool.not_eq_false] at hdown
    have hfelled := (upInv_of_trace (h.run (EventMachine.exec_run hexec))).felled hdown
    exact hclean ((felled_append_iff (loop_exec_quiet opss hexec)).mp hfelled)

end ClientProcess

end Trftp
