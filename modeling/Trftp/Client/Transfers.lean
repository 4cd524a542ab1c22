import Trftp.Client.Exceptions
import Trftp.Lib.History

/-!
# The transfer that was started last

The start of a receive loop begins a transfer, and the branch for FIN or the sending of CXL ends
it. What each statement of `OnReceive` has to do with the verified file and with this end is
said here, for one thread alone.
-/

namespace Trftp

open Lib (InOrder)

/-- What one more event does to the transfer that was started last. -/
def extendTransfer (transfer : Option (UInt32 × List ClientProcessEvent)) :
    ClientProcessEvent → Option (UInt32 × List ClientProcessEvent)
  | .started version => some (version, [])
  | x => transfer.map fun p => (p.1, p.2 ++ [x])

/-- The transfer that was started last: the version of its NTF, and what was seen since. -/
def lastTransfer (es : List ClientProcessEvent) : Option (UInt32 × List ClientProcessEvent) :=
  es.foldl extendTransfer none

/-- Events that start no transfer are seen of the last one. -/
theorem lastTransfer_append {es e : List ClientProcessEvent} (he : ∀ version, .started version ∉ e) :
    lastTransfer (es ++ e) = (lastTransfer es).map fun p => (p.1, p.2 ++ e) := by
  rw [lastTransfer, List.foldl_append]
  show e.foldl extendTransfer (lastTransfer es) = _
  generalize lastTransfer es = transfer
  induction e generalizing transfer with
  | nil => simp
  | cons x e ih =>
    have hx : extendTransfer transfer x = transfer.map fun p => (p.1, p.2 ++ [x]) := by
      cases x with
      | started version => exact absurd List.mem_cons_self (he version)
      | received | begun | rejected | finished | of | threw => rfl
    rw [List.foldl_cons, hx, ih fun version hmem => he version (List.mem_cons_of_mem x hmem)]
    cases transfer <;> simp

/-- A start begins a transfer. -/
theorem lastTransfer_started (es : List ClientProcessEvent) (version : UInt32) :
    lastTransfer (es ++ [.started version]) = some (version, []) := by
  rw [lastTransfer, List.foldl_append]
  rfl

/-- The events with which the receive loop ends its transfer: FIN, or the CXL that it sends. -/
def ClientProcessEvent.endsTransfer : ClientProcessEvent → Bool
  | .finished => true
  | .of .loop (.sent id _) => id = .cxl
  | _ => false

/-- The transfer that was started last has ended. -/
def Ended (es : List ClientProcessEvent) : Prop :=
  ∃ transfer ∈ lastTransfer es, ∃ x ∈ transfer.2, x.endsTransfer = true

/-- Events that neither start nor end a transfer do not change that. -/
theorem ended_append_iff {es e : List ClientProcessEvent}
    (he : ∀ x ∈ e, (∀ version, x ≠ .started version) ∧ x.endsTransfer = false) : Ended (es ++ e) ↔ Ended es := by
  have hstart : ∀ version, .started version ∉ e := fun version hmem => (he _ hmem).1 version rfl
  have hquiet : ∀ post, (∃ x ∈ post ++ e, x.endsTransfer = true) ↔ ∃ x ∈ post, x.endsTransfer = true := by
    intro post
    constructor
    · rintro ⟨x, hmem, hx⟩
      rcases List.mem_append.mp hmem with hmem | hmem
      · exact ⟨x, hmem, hx⟩
      · rw [(he x hmem).2] at hx
        contradiction
    · rintro ⟨x, hmem, hx⟩
      exact ⟨x, List.mem_append_left e hmem, hx⟩
  rw [Ended, Ended, lastTransfer_append hstart]
  cases lastTransfer es with
  | none => simp
  | some p => simpa using hquiet p.2

/-- A file was handed over that belongs to the transfer that was started last: it is the one that this
transfer verified, and its FIN was accepted since. -/
def HandsOver (past : List ClientProcessEvent) (file : Option (List UInt8)) (version : UInt32) : Prop :=
  ∃ post data, lastTransfer past = some (version, post) ∧ file = some data ∧
    InOrder [(· = .of .loop (.verified data)), (· = .finished)] post

/-- What an event is asked for with regard to the transfer that was started last. -/
def Belongs (past : List ClientProcessEvent) : ClientProcessEvent → Prop
  | .of _ (.fileReceived file version) => HandsOver past file version
  | .of .loop (.sent _ _) => ¬Ended past
  | .received .loop _ _ => ¬Ended past
  | _ => True

/-- What a transfer has handed over stays so until the next one starts. -/
theorem HandsOver.append {past e : List ClientProcessEvent} {file : Option (List UInt8)} {version : UInt32}
    (h : HandsOver past file version) (he : ∀ version, .started version ∉ e) :
    HandsOver (past ++ e) file version := by
  obtain ⟨post, data, hlast, hfile, horder⟩ := h
  exact ⟨post ++ e, data, by rw [lastTransfer_append he, hlast]; rfl, hfile, horder.append e⟩

/-- The transfer that was started last has verified this file. -/
def VerifiedLast (es : List ClientProcessEvent) (file : List UInt8) : Prop :=
  ∃ transfer ∈ lastTransfer es, .of .loop (.verified file) ∈ transfer.2

/-- It stays so until the next one starts. -/
theorem VerifiedLast.append {es e : List ClientProcessEvent} {file : List UInt8} (h : VerifiedLast es file)
    (he : ∀ version, .started version ∉ e) : VerifiedLast (es ++ e) file := by
  obtain ⟨transfer, hlast, hmem⟩ := h
  refine ⟨(transfer.1, transfer.2 ++ e), ?_, List.mem_append_left e hmem⟩
  rw [lastTransfer_append he, hlast]
  rfl

/-- Positions behind the verification of the file, up to the store that accepts FIN. -/
def ReceivePos.finishing : ReceivePos → Bool
  | .store id => id = .done
  | .finStatus | .finDead => true
  | .hear | .check | .ntfStatus | .ntfVersion | .ntfJoin | .ntfStart | .dead | .send _ => false
  | .infoTest | .infoMatch | .infoStatus | .infoSize | .infoCrc | .infoTotal | .infoOpen | .infoOpened => false
  | .dataTest | .dataLength | .dataNumber | .dataWrite | .dataWritten | .dataStatus | .dataCount => false
  | .dataLast | .dataClose | .dataSize | .dataCrc | .finTest | .finCall => false
  | .cxlOpen | .cxlClose | .cxlRemove | .cxlStatus => false

/-- Positions that are reached in another status than DONE. -/
def ReceivePos.transferring : ReceivePos → Bool
  | .infoMatch | .infoStatus | .infoSize | .infoCrc | .infoTotal | .infoOpen | .infoOpened => true
  | .dataLength | .dataNumber | .dataWrite | .dataWritten | .dataStatus | .dataCount => true
  | .dataLast | .dataClose | .dataSize | .dataCrc | .cxlClose | .cxlRemove => true
  | .hear | .check | .ntfStatus | .ntfVersion | .ntfJoin | .ntfStart | .store _ | .dead | .send _ => false
  | .infoTest | .dataTest | .finTest | .finStatus | .finDead | .finCall | .cxlOpen | .cxlStatus => false

/-- The verified file lies at the path while the transfer waits for FIN. -/
structure DoneKept (verified : List UInt8 → Prop) (v : ClientVars) (pos : Option ReceivePos) : Prop where
  done : v.status = .done ∨ (∃ p, pos = some p ∧ p.finishing = true) →
    v.newFileStream.isOpen = false ∧ ∃ file, v.tempFile = some file ∧ verified file
  transferring : ∀ p, pos = some p → p.transferring = true → v.status ≠ .done
  closed : pos = some .dataSize ∨ pos = some .dataCrc → v.newFileStream.isOpen = false

/-- More files may have been verified. -/
theorem DoneKept.mono {verified verified' : List UInt8 → Prop} {v : ClientVars} {pos : Option ReceivePos}
    (h : DoneKept verified v pos) (hmono : ∀ file, verified file → verified' file) :
    DoneKept verified' v pos := by
  refine ⟨fun hdone => ?_, h.transferring, h.closed⟩
  obtain ⟨hclosed, file, hpath, hverified⟩ := h.done hdone
  exact ⟨hclosed, file, hpath, hmono file hverified⟩

/-- What the main loop does to the members while the receive loop is not over. -/
structure MainKeeps (v w : ClientVars) : Prop where
  version : w.newFileVersion = v.newFileVersion
  stream : w.newFileStream = v.newFileStream
  file : w.tempFile = v.tempFile
  status : w.status = v.status ∨ w.status = .chk
  isActive : w.isActive = true → v.isActive = true

/-- The main loop does not touch the verified file. -/
theorem DoneKept.frame {verified : List UInt8 → Prop} {v w : ClientVars} {pos : Option ReceivePos}
    (h : DoneKept verified v pos) (hkeeps : MainKeeps v w) : DoneKept verified w pos := by
  obtain ⟨hdone, htransferring, hclosed⟩ := h
  have hstatus : w.status = .done → v.status = .done := by
    intro hw
    rcases hkeeps.status with hsame | hchk
    · rwa [← hsame]
    · rw [hchk] at hw
      contradiction
  rw [← hkeeps.stream, ← hkeeps.file] at hdone
  rw [← hkeeps.stream] at hclosed
  refine ⟨fun hw => hdone (hw.imp_left hstatus), fun p hpos hp hw => ?_, hclosed⟩
  exact htransferring p hpos hp (hstatus hw)

namespace ClientTransaction

variable {c : ClientTransaction} {r : Received} {ops : FileOps} {v w : ClientVars} {e : List ClientEvent}
  {pos : ReceivePos} {next : Option ReceivePos} {verified : List UInt8 → Prop}

/-- A statement behind which the transfer is not in DONE. -/
theorem doneKept_of_ne (hstatus : w.status ≠ .done) (hfinishing : ∀ p, next = some p → p.finishing = false)
    (hclosed : next = some .dataSize ∨ next = some .dataCrc → w.newFileStream.isOpen = false) :
    DoneKept verified w next := by
  refine ⟨?_, fun _ _ _ => hstatus, hclosed⟩
  rintro (hdone | ⟨p, hp, hfinish⟩)
  · exact absurd hdone hstatus
  · rw [hfinishing p hp] at hfinish
    contradiction

/-- A statement that leaves the members alone, and after which no more is asked of them. -/
theorem doneKept_of_eq (h : DoneKept verified v (some pos)) (hstatus : w.status = v.status)
    (hstream : w.newFileStream = v.newFileStream) (hfile : w.tempFile = v.tempFile)
    (hnext : ∀ p, next = some p → p.finishing = false ∧ p.transferring = false) :
    DoneKept verified w next := by
  refine ⟨?_, fun p hp htransferring => ?_, ?_⟩
  · rintro (hdone | ⟨p, hp, hfinish⟩)
    · rw [hstream, hfile]
      exact h.done (Or.inl (by rwa [← hstatus]))
    · rw [(hnext p hp).1] at hfinish
      contradiction
  · rw [(hnext p hp).2] at htransferring
    contradiction
  · rintro (hp | hp) <;> exact absurd (hnext _ hp).2 (by simp [ReceivePos.transferring])

/-- The branch for INFO is not the one of a transfer in DONE. -/
theorem doneKept_of_info (h : DoneKept verified v (some pos)) (hpos : pos.kind? = some .info)
    (hstep : c.receiveStep r ops v pos = some (w, e, next)) : DoneKept verified w next := by
  have hne := fun hpos => h.transferring pos rfl hpos
  cases pos with
  | infoTest =>
    simp only [receiveStep] at hstep
    split_ifs at hstep with hstatus hlen <;> cases hstep
    · exact doneKept_of_eq h rfl rfl rfl (by simp [ReceivePos.finishing, ReceivePos.transferring])
    · exact doneKept_of_eq h rfl rfl rfl (by simp [ReceivePos.finishing, ReceivePos.transferring])
    · exact doneKept_of_ne (by simp [not_not.mp hstatus]) (by simp [ReceivePos.finishing]) (by simp)
  | infoMatch =>
    simp only [receiveStep] at hstep
    split_ifs at hstep <;> cases hstep <;>
      exact doneKept_of_ne (hne rfl) (by simp [ReceivePos.finishing]) (by simp)
  | infoStatus =>
    cases hstep
    exact doneKept_of_ne (by simp) (by simp [ReceivePos.finishing]) (by simp)
  | infoSize | infoCrc | infoTotal =>
    cases hstep
    exact doneKept_of_ne (hne rfl) (by simp [ReceivePos.finishing]) (by simp)
  | infoOpen =>
    cases hstep
    refine doneKept_of_ne ?_ (by simp [ReceivePos.finishing]) (by simp)
    rw [ClientVars.openStream_eq]
    exact hne rfl
  | infoOpened =>
    simp only [receiveStep] at hstep
    split_ifs at hstep <;> cases hstep <;>
      exact doneKept_of_ne (hne rfl) (by simp [ReceivePos.finishing]) (by simp)
  | _ => contradiction

/-- The branch for DATA is not either, and verifies the file at its end. -/
theorem doneKept_of_data (h : DoneKept verified v (some pos)) (hfile : FileKept v (some pos))
    (hpos : pos.kind? = some .data) (hstep : c.receiveStep r ops v pos = some (w, e, next)) :
    DoneKept (fun file => verified file ∨ .verified file ∈ e) w next := by
  have hne := fun hpos => h.transferring pos rfl hpos
  cases pos with
  | dataTest =>
    simp only [receiveStep] at hstep
    split_ifs at hstep with hstatus <;> cases hstep
    · exact doneKept_of_eq (h.mono fun _ => Or.inl) rfl rfl rfl
        (by simp [ReceivePos.finishing, ReceivePos.transferring])
    · refine doneKept_of_ne ?_ (by simp [ReceivePos.finishing]) (by simp)
      rw [not_not.mp hstatus, dataStatus]
      split_ifs <;> simp
  | dataLength | dataNumber | dataWritten | dataLast =>
    simp only [receiveStep] at hstep
    split_ifs at hstep <;> cases hstep <;>
      exact doneKept_of_ne (hne rfl) (by simp [ReceivePos.finishing]) (by simp)
  | dataWrite =>
    cases hstep
    refine doneKept_of_ne ?_ (by simp [ReceivePos.finishing]) (by simp)
    rw [ClientVars.writeStream_eq]
    exact hne rfl
  | dataStatus =>
    cases hstep
    exact doneKept_of_ne (by simp) (by simp [ReceivePos.finishing]) (by simp)
  | dataCount =>
    cases hstep
    exact doneKept_of_ne (hne rfl) (by simp [ReceivePos.finishing]) (by simp)
  | dataClose =>
    cases hstep
    refine doneKept_of_ne ?_ (by simp [ReceivePos.finishing]) fun _ => ClientVars.closeStream_isOpen v ops
    rw [ClientVars.closeStream_eq]
    exact hne rfl
  | dataSize =>
    have hclosed := h.closed (Or.inl rfl)
    simp only [receiveStep] at hstep
    split at hstep
    · contradiction
    · split_ifs at hstep <;> cases hstep <;>
        exact doneKept_of_ne (hne rfl) (by simp [ReceivePos.finishing]) fun _ => hclosed
  | dataCrc =>
    have hclosed := h.closed (Or.inr rfl)
    simp only [receiveStep] at hstep
    split_ifs at hstep <;> cases hstep
    · exact doneKept_of_ne (hne rfl) (by simp [ReceivePos.finishing]) (by simp)
    · -- the file that is verified here is the one at the path
      obtain ⟨file, hpath⟩ := Option.ne_none_iff_exists'.mp (hfile.needed .dataCrc rfl rfl)
      refine ⟨fun _ => ⟨hclosed, file, hpath, Or.inr ?_⟩, by simp [ReceivePos.transferring], by simp⟩
      simp [hpath]
  | _ => contradiction

/-- The branch for FIN is the one of a transfer in DONE. -/
theorem doneKept_of_fin (h : DoneKept verified v (some pos)) (hpos : pos.kind? = some .fin)
    (hstep : c.receiveStep r ops v pos = some (w, e, next)) : DoneKept verified w next := by
  cases pos with
  | finTest =>
    simp only [receiveStep] at hstep
    split_ifs at hstep with hstatus hlen <;> cases hstep
    · exact doneKept_of_eq h rfl rfl rfl (by simp [ReceivePos.finishing, ReceivePos.transferring])
    · exact doneKept_of_eq h rfl rfl rfl (by simp [ReceivePos.finishing, ReceivePos.transferring])
    · have hdone := h.done (Or.inl (not_not.mp hstatus))
      exact ⟨fun _ => hdone, by simp [ReceivePos.transferring], by simp⟩
  | finStatus =>
    cases hstep
    have hdone := h.done (Or.inr ⟨.finStatus, rfl, rfl⟩)
    exact ⟨fun _ => hdone, by simp [ReceivePos.transferring], by simp⟩
  | finDead | finCall =>
    cases hstep
    exact doneKept_of_eq h rfl rfl rfl (by simp [ReceivePos.finishing, ReceivePos.transferring])
  | _ => contradiction

/-- The branch for CXL removes no file of a transfer in DONE: its stream is closed. -/
theorem doneKept_of_cxl (h : DoneKept verified v (some pos)) (hpos : pos.kind? = some .cxl)
    (hstep : c.receiveStep r ops v pos = some (w, e, next)) : DoneKept verified w next := by
  have hne := fun hpos => h.transferring pos rfl hpos
  cases pos with
  | cxlOpen =>
    simp only [receiveStep] at hstep
    split_ifs at hstep with hopen <;> cases hstep
    · refine doneKept_of_ne (fun hdone => ?_) (by simp [ReceivePos.finishing]) (by simp)
      rw [(h.done (Or.inl hdone)).1] at hopen
      contradiction
    · exact doneKept_of_eq h rfl rfl rfl (by simp [ReceivePos.finishing, ReceivePos.transferring])
  | cxlClose =>
    cases hstep
    refine doneKept_of_ne ?_ (by simp [ReceivePos.finishing]) (by simp)
    rw [ClientVars.closeStream_eq]
    exact hne rfl
  | cxlRemove =>
    cases hstep
    exact doneKept_of_ne (hne rfl) (by simp [ReceivePos.finishing]) (by simp)
  | cxlStatus =>
    cases hstep
    exact doneKept_of_ne (by simp) (by simp [ReceivePos.finishing]) (by simp)
  | _ => contradiction

/-- Every statement of `OnReceive` keeps track of the verified file. -/
theorem receiveStep_doneKept (h : DoneKept verified v (some pos)) (hfile : FileKept v (some pos))
    (hstep : c.receiveStep r ops v pos = some (w, e, next)) :
    DoneKept (fun file => verified file ∨ .verified file ∈ e) w next := by
  have hmono : DoneKept (fun file => verified file ∨ .verified file ∈ e) v (some pos) := h.mono fun _ => Or.inl
  cases pos with
  | ntfJoin | ntfStart => contradiction
  | hear | ntfVersion | dead | send =>
    cases hstep
    exact doneKept_of_eq hmono rfl rfl rfl (by simp [ReceivePos.finishing, ReceivePos.transferring])
  | ntfStatus =>
    cases hstep
    exact doneKept_of_ne (by simp) (by simp [ReceivePos.finishing]) (by simp)
  | check =>
    simp only [receiveStep] at hstep
    split_ifs at hstep <;> cases hstep
    · exact doneKept_of_eq hmono rfl rfl rfl (by simp)
    · refine doneKept_of_eq hmono rfl rfl rfl fun p hp => ?_
      rcases branch_cases hp with rfl | rfl | rfl | rfl | rfl | rfl <;> exact ⟨rfl, rfl⟩
  | infoTest | infoMatch | infoStatus | infoSize | infoCrc | infoTotal | infoOpen | infoOpened =>
    exact doneKept_of_info hmono rfl hstep
  | dataTest | dataLength | dataNumber | dataWrite | dataWritten | dataStatus | dataCount | dataLast | dataClose
  | dataSize | dataCrc => exact doneKept_of_data h hfile rfl hstep
  | finTest | finStatus | finDead | finCall => exact doneKept_of_fin hmono rfl hstep
  | cxlOpen | cxlClose | cxlRemove | cxlStatus => exact doneKept_of_cxl hmono rfl hstep
  | store id =>
    cases hstep
    by_cases hid : id = .done
    · subst hid
      have hdone := hmono.done (Or.inr ⟨.store .done, rfl, rfl⟩)
      exact ⟨fun _ => hdone, by simp [ReceivePos.transferring], by simp⟩
    · refine doneKept_of_ne hid ?_ ?_
      · split_ifs <;> simp [ReceivePos.finishing]
      · split_ifs <;> simp

/-- What a statement of `OnReceive` has to do with the end of a transfer. -/
structure ReceiveEnds (c : ClientTransaction) (v : ClientVars) (pos : ReceivePos) (w : ClientVars)
    (e : List ClientEvent) (next : Option ReceivePos) : Prop where
  version : w.newFileVersion = v.newFileVersion ∨ next = some .ntfJoin
  calls : next = some .finCall → pos = .finDead
  cancels : next = some (.send .cxl) → w.isActive = false
  /-- FIN and CXL come to an end -/
  last : pos = .finCall ∨ pos = .send .cxl → next = none
  /-- it shows one event at most -/
  events : e = [] ∨ ∃ x, e = [x] ∧ ((∃ id, pos = .send id ∧ x = .sent id (c.packet v id)) ∨
    (pos = .finCall ∧ x = .fileReceived v.tempFile v.newFileVersion) ∨
    (∀ id p, x ≠ .sent id p) ∧ ∀ file version, x ≠ .fileReceived file version)
  quiet : pos = .finDead → e = []

/-- Only the sending of CXL shows the end of a transfer. -/
theorem ReceiveEnds.endsTransfer (h : ReceiveEnds c v pos w e next) (hcancel : pos ≠ .send .cxl) {x : ClientEvent}
    (hx : x ∈ e) : (ClientProcessEvent.of .loop x).endsTransfer = false := by
  rcases h.events with rfl | ⟨y, rfl, hy⟩
  · contradiction
  · cases List.mem_singleton.mp hx
    rcases hy with ⟨id, rfl, rfl⟩ | ⟨-, rfl⟩ | ⟨hsent, -⟩
    · exact decide_eq_false fun hid => hcancel (by rw [hid])
    · rfl
    · cases x with
      | sent id p => exact absurd rfl (hsent id p)
      | began | notified | informed | wrote | verified | fileReceived | terminated => rfl

/-- Every statement is such a statement. -/
theorem receiveStep_ends (hstep : c.receiveStep r ops v pos = some (w, e, next)) :
    ReceiveEnds c v pos w e next := by
  cases pos with
  | ntfJoin | ntfStart => contradiction
  | hear | ntfStatus | ntfVersion | infoStatus | infoSize | infoCrc | infoTotal | dataStatus | dataCount
  | finStatus | finDead | dead | cxlRemove | cxlStatus =>
    cases hstep
    constructor <;> simp [ClientVars.heardFrom]
  | infoOpen =>
    cases hstep
    refine ⟨?_, by simp, by simp, by simp, by simp, by simp⟩
    rw [ClientVars.openStream_eq]
    exact Or.inl rfl
  | dataWrite =>
    cases hstep
    refine ⟨?_, by simp, by simp, by simp, by simp, by simp⟩
    rw [ClientVars.writeStream_eq]
    exact Or.inl rfl
  | dataClose | cxlClose =>
    cases hstep
    refine ⟨?_, by simp, by simp, by simp, by simp, by simp⟩
    rw [ClientVars.closeStream_eq]
    exact Or.inl rfl
  | infoTest | infoMatch | infoOpened | dataTest | dataLength | dataNumber | dataWritten | dataLast | dataCrc
  | finTest | cxlOpen =>
    simp only [receiveStep] at hstep
    split_ifs at hstep <;> cases hstep <;> constructor <;> simp
  | check =>
    simp only [receiveStep] at hstep
    split_ifs at hstep <;> cases hstep
    · constructor <;> simp
    · refine ⟨Or.inl rfl, fun hnext => ?_, fun hnext => ?_, by simp, by simp, by simp⟩
      · rcases branch_cases hnext with h | h | h | h | h | h <;> cases h
      · rcases branch_cases hnext with h | h | h | h | h | h <;> cases h
  | dataSize =>
    simp only [receiveStep] at hstep
    split at hstep
    · contradiction
    · split_ifs at hstep <;> cases hstep <;> constructor <;> simp
  | finCall =>
    cases hstep
    refine ⟨Or.inl rfl, by simp, by simp, by simp, ?_, by simp⟩
    by_cases hclient : c.hasClient = true
    · simp [hclient]
    · simp [hclient]
  | store id =>
    cases hstep
    refine ⟨Or.inl rfl, ?_, ?_, by simp, by simp, by simp⟩
    · split_ifs <;> simp
    · split_ifs with hid <;> simp [hid]
  | send id =>
    cases hstep
    constructor <;> simp

end ClientTransaction

end Trftp
