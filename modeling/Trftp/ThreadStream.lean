import Trftp.Lib.EventMachine
import Mathlib.Logic.Function.Basic
import Mathlib.Data.List.Basic

/-!
# `ThreadStream`

A log message is put together in a `ThreadStream` of its own. The destructor takes the mutex of the
target, passes the whole text on and, for a file, closes it. How the text reaches the target is up
to the stream below, so here it goes there in pieces. The constructor asks for the mutex: the
console streams have one each, and `GetFileMutex` makes one for each path, under a mutex of
its own, so that it is one step. A file stands for its path: two paths that name one file are two
targets here, as they have two mutexes in the code.

Not everything goes through a `ThreadStream`: `CalculateFileCrc32` writes to `std::cerr` and takes no
mutex.
-/

namespace Trftp

open Lib (EventMachine)

/-- What a `ThreadStream` writes to. -/
inductive LogTarget where
  | cout | cerr
  | file (path : String)
  deriving DecidableEq

/-- The mutexes of `GetConsoleMutex`, and those that `GetFileMutex` has made. -/
inductive LogMutex where
  | coutMutex | cerrMutex
  | fileMutex (n : ℕ)
  deriving DecidableEq

/-- Where a thread is with its `ThreadStream`. -/
inductive StreamPos where
  /-- the thread has none -/
  | idle
  /-- between the constructor and the destructor -/
  | composing (target : LogTarget) (mutex : LogMutex) (text : List Char)
  /-- in the destructor, before it has the mutex -/
  | waiting (target : LogTarget) (mutex : LogMutex) (text : List Char)
  /-- in the destructor, with the mutex; what the target has got, and what it has not -/
  | writing (target : LogTarget) (mutex : LogMutex) (done rest : List Char)
  deriving DecidableEq

/-- The threads, the mutexes and what the targets have got. -/
structure LogState (ι : Type*) where
  thread : ι → StreamPos
  holder : LogMutex → Option ι
  /-- `file_mutexes` -/
  fileMutexes : List (String × ℕ)
  output : LogTarget → List Char

/-- What happens next. -/
inductive LogAction (ι : Type*) where
  /-- the constructor, and whether the file can be opened -/
  | construct (i : ι) (target : LogTarget) (openOk : Bool)
  /-- `operator<<` -/
  | put (i : ι) (piece : List Char)
  /-- the destructor is entered -/
  | destroy (i : ι)
  /-- `std::scoped_lock lock(*os_mutex_)` -/
  | lock (i : ι)
  /-- that many characters reach the target -/
  | write (i : ι) (count : ℕ)
  /-- the destructor is left -/
  | unlock (i : ι)
  /-- something is written to `std::cerr` without a `ThreadStream` -/
  | raw (piece : List Char)

/-- What a step lets be seen. -/
inductive LogEvent (ι : Type*) where
  /-- a message was completed -/
  | composed (i : ι) (target : LogTarget) (text : List Char)
  /-- the constructor threw -/
  | threw (i : ι)
  /-- a message was passed on -/
  | written (i : ι) (target : LogTarget) (text : List Char)
  | raw (piece : List Char)

namespace LogState

variable {ι : Type*} [DecidableEq ι] (s : LogState ι)

/-- A thread goes on at another place. -/
def move (i : ι) (pos : StreamPos) : LogState ι := { s with thread := Function.update s.thread i pos }

/-- A mutex is taken or given back. -/
def setHolder (mutex : LogMutex) (i? : Option ι) : LogState ι :=
  { s with holder := Function.update s.holder mutex i? }

/-- A target gets more. -/
def append (target : LogTarget) (piece : List Char) : LogState ι :=
  { s with output := Function.update s.output target (s.output target ++ piece) }

/-- `GetFileMutex`: the mutexes with one for the path. -/
def getFileMutex (path : String) : LogState ι :=
  match s.fileMutexes.lookup path with
  | some _ => s
  | none => { s with fileMutexes := (path, s.fileMutexes.length) :: s.fileMutexes }

/-- The mutex of a target, once it has been asked for. -/
def mutex? : LogTarget → Option LogMutex
  | .cout => some .coutMutex
  | .cerr => some .cerrMutex
  | .file path => (s.fileMutexes.lookup path).map .fileMutex

/-- `GetConsoleMutex` or `GetFileMutex`. -/
def getMutex : LogTarget → LogState ι
  | .cout | .cerr => s
  | .file path => s.getFileMutex path

/-- The constructor fails if it opens a file and cannot. -/
def fails (target : LogTarget) (openOk : Bool) : Bool :=
  match target with
  | .cout | .cerr => false
  | .file _ => !openOk

/-- One step of one thread. -/
def step : LogAction ι → Option (LogState ι × List (LogEvent ι))
  | .construct i target openOk =>
    if s.thread i = .idle then
      match (s.getMutex target).mutex? target with
      | some mutex =>
        if fails target openOk then some (s.getMutex target, [.threw i])
        else some ((s.getMutex target).move i (.composing target mutex []), [])
      | none => none
    else none
  | .put i piece =>
    match s.thread i with
    | .composing target mutex text => some (s.move i (.composing target mutex (text ++ piece)), [])
    | _ => none
  | .destroy i =>
    match s.thread i with
    | .composing target mutex text => some (s.move i (.waiting target mutex text), [.composed i target text])
    | _ => none
  | .lock i =>
    match s.thread i with
    | .waiting target mutex text =>
      if s.holder mutex = none then
        some ((s.move i (.writing target mutex [] text)).setHolder mutex (some i), [])
      else none
    | _ => none
  | .write i count =>
    match s.thread i with
    | .writing target mutex done rest =>
      some ((s.move i (.writing target mutex (done ++ rest.take count) (rest.drop count))).append target
        (rest.take count), [])
    | _ => none
  | .unlock i =>
    match s.thread i with
    | .writing target mutex done [] =>
      some ((s.move i .idle).setHolder mutex none, [.written i target done])
    | _ => none
  | .raw piece =>
    some (s.append .cerr piece, [.raw piece])

end LogState

/-- The threads of a process and their log messages. -/
def logMachine (ι : Type*) [DecidableEq ι] : EventMachine (LogState ι) (LogAction ι) (LogEvent ι) where
  initial s := (∀ i, s.thread i = .idle) ∧ (∀ mutex, s.holder mutex = none) ∧ s.fileMutexes = [] ∧
    ∀ target, s.output target = []
  step s a := s.step a

/-- The message that a thread has completed and not yet passed on as a whole. -/
def StreamPos.unfinished : StreamPos → List (LogTarget × List Char)
  | .waiting target _ text => [(target, text)]
  | .writing target _ done rest => [(target, done ++ rest)]
  | .idle | .composing _ _ _ => []

/-- The target and the mutex of the `ThreadStream`. -/
def StreamPos.uses? : StreamPos → Option (LogTarget × LogMutex)
  | .composing target mutex _ | .waiting target mutex _ | .writing target mutex _ _ => some (target, mutex)
  | .idle => none

/-- The mutex that the thread holds. -/
def StreamPos.holds? : StreamPos → Option LogMutex
  | .writing _ mutex _ _ => some mutex
  | .idle | .composing _ _ _ | .waiting _ _ _ => none

namespace LogEvent

variable {ι : Type*} [DecidableEq ι]

/-- A message that was passed on to this target. -/
def textTo? (target : LogTarget) : LogEvent ι → Option (List Char)
  | .written _ target' text => if target' = target then some text else none
  | .composed _ _ _ | .threw _ | .raw _ => none

/-- A message that this thread completed. -/
def composedBy? (i : ι) : LogEvent ι → Option (LogTarget × List Char)
  | .composed j target text => if j = i then some (target, text) else none
  | .written _ _ _ | .threw _ | .raw _ => none

/-- A message that this thread passed on. -/
def writtenBy? (i : ι) : LogEvent ι → Option (LogTarget × List Char)
  | .written j target text => if j = i then some (target, text) else none
  | .composed _ _ _ | .threw _ | .raw _ => none

end LogEvent

/-- The target is written to by `ThreadStream` only. -/
def Reserved {ι : Type*} (es : List (LogEvent ι)) (target : LogTarget) : Prop :=
  target = .cerr → ∀ piece, .raw piece ∉ es

namespace LogState

/-! ## The mutexes -/

section Mutexes

variable {ι : Type*} {s : LogState ι}

/-- A new entry is found under its path. -/
theorem lookup_entry (path path' : String) (n : ℕ) (entries : List (String × ℕ)) :
    ((path, n) :: entries).lookup path' = if path' = path then some n else entries.lookup path' := by
  rw [List.lookup_cons]
  by_cases h : path' = path
  · rw [if_pos h, beq_iff_eq.mpr h]
  · rw [if_neg h, beq_eq_false_iff_ne.mpr h]

/-- The mutexes that exist stay. -/
theorem mutex_getMutex (target' : LogTarget) {target : LogTarget} {mutex : LogMutex}
    (h : s.mutex? target = some mutex) : (s.getMutex target').mutex? target = some mutex := by
  cases target' with
  | cout | cerr => exact h
  | file path =>
    simp only [getMutex, getFileMutex]
    split
    · exact h
    · rename_i hnone
      cases target with
      | cout | cerr => exact h
      | file path' =>
        have hne : path' ≠ path := by
          rintro rfl
          simp [mutex?, hnone] at h
        rw [mutex?, lookup_entry, if_neg hne]
        exact h

/-- `GetConsoleMutex` and `GetFileMutex` change nothing else. -/
theorem getMutex_frame (s : LogState ι) (target : LogTarget) :
    (s.getMutex target).thread = s.thread ∧ (s.getMutex target).holder = s.holder ∧
      (s.getMutex target).output = s.output := by
  cases target with
  | cout | cerr => exact ⟨rfl, rfl, rfl⟩
  | file path =>
    simp only [getMutex, getFileMutex]
    split <;> exact ⟨rfl, rfl, rfl⟩

end Mutexes

/-! ## Mutual exclusion -/

variable {ι : Type*} [DecidableEq ι] {s s' : LogState ι} {es e : List (LogEvent ι)}

/-- What one step can be. -/
inductive LogStep (s : LogState ι) : LogState ι → List (LogEvent ι) → Prop
  | threw {i : ι} {target : LogTarget} : LogStep s (s.getMutex target) [.threw i]
  | construct {i : ι} {target : LogTarget} {mutex : LogMutex} (hpos : s.thread i = .idle)
      (hmutex : (s.getMutex target).mutex? target = some mutex) :
      LogStep s ((s.getMutex target).move i (.composing target mutex [])) []
  | put {i : ι} {target : LogTarget} {mutex : LogMutex} {text piece : List Char}
      (hpos : s.thread i = .composing target mutex text) :
      LogStep s (s.move i (.composing target mutex (text ++ piece))) []
  | destroy {i : ι} {target : LogTarget} {mutex : LogMutex} {text : List Char}
      (hpos : s.thread i = .composing target mutex text) :
      LogStep s (s.move i (.waiting target mutex text)) [.composed i target text]
  | lock {i : ι} {target : LogTarget} {mutex : LogMutex} {text : List Char}
      (hpos : s.thread i = .waiting target mutex text) (hfree : s.holder mutex = none) :
      LogStep s ((s.move i (.writing target mutex [] text)).setHolder mutex (some i)) []
  | write {i : ι} {target : LogTarget} {mutex : LogMutex} {done rest : List Char} (count : ℕ)
      (hpos : s.thread i = .writing target mutex done rest) :
      LogStep s ((s.move i (.writing target mutex (done ++ rest.take count) (rest.drop count))).append target
        (rest.take count)) []
  | unlock {i : ι} {target : LogTarget} {mutex : LogMutex} {done : List Char}
      (hpos : s.thread i = .writing target mutex done []) :
      LogStep s ((s.move i .idle).setHolder mutex none) [.written i target done]
  | raw (piece : List Char) :
      LogStep s (s.append .cerr piece) [.raw piece]

/-- Every step is one of these. -/
theorem step_cases {a : LogAction ι} (h : s.step a = some (s', e)) : LogStep s s' e := by
  cases a with
  | construct i target openOk =>
    simp only [step] at h
    split at h
    · rename_i hidle
      split at h
      · rename_i mutex hmutex
        split at h <;> cases h
        · exact .threw
        · exact .construct hidle hmutex
      · contradiction
    · contradiction
  | put i piece =>
    simp only [step] at h
    split at h <;> cases h
    exact .put ‹_›
  | destroy i =>
    simp only [step] at h
    split at h <;> cases h
    exact .destroy ‹_›
  | lock i =>
    simp only [step] at h
    split at h
    · split at h <;> cases h
      exact .lock ‹_› ‹_›
    · contradiction
  | write i count =>
    simp only [step] at h
    split at h <;> cases h
    exact .write count ‹_›
  | unlock i =>
    simp only [step] at h
    split at h <;> cases h
    exact .unlock ‹_›
  | raw piece =>
    cases h
    exact .raw piece

/-- The `ThreadStream`s have the mutexes of their targets, and a mutex is held by the thread that writes under
it. -/
structure LockInv (s : LogState ι) : Prop where
  uses : ∀ i target mutex, (s.thread i).uses? = some (target, mutex) → s.mutex? target = some mutex
  held : ∀ mutex i, s.holder mutex = some i ↔ (s.thread i).holds? = some mutex

@[simp]
theorem move_holder (s : LogState ι) (i : ι) (pos : StreamPos) : (s.move i pos).holder = s.holder := rfl

@[simp]
theorem move_output (s : LogState ι) (i : ι) (pos : StreamPos) : (s.move i pos).output = s.output := rfl

omit [DecidableEq ι] in
@[simp]
theorem setHolder_thread (s : LogState ι) (mutex : LogMutex) (i? : Option ι) :
    (s.setHolder mutex i?).thread = s.thread := rfl

omit [DecidableEq ι] in
@[simp]
theorem append_thread (s : LogState ι) (target : LogTarget) (piece : List Char) :
    (s.append target piece).thread = s.thread := rfl

omit [DecidableEq ι] in
/-- Who holds a mutex. -/
theorem setHolder_holder (s : LogState ι) (mutex mutex' : LogMutex) (i? : Option ι) :
    (s.setHolder mutex i?).holder mutex' = if mutex' = mutex then i? else s.holder mutex' := by
  unfold setHolder
  by_cases h : mutex' = mutex
  · subst h
    simp
  · simp [h]

omit [DecidableEq ι] in
/-- What a target has got. -/
theorem append_output (s : LogState ι) (target target' : LogTarget) (piece : List Char) :
    (s.append target piece).output target' =
      if target' = target then s.output target' ++ piece else s.output target' := by
  unfold append
  by_cases h : target' = target
  · subst h
    simp
  · simp [h]

/-- The thread at a place. -/
theorem move_thread (s : LogState ι) (i j : ι) (pos : StreamPos) :
    (s.move i pos).thread j = if j = i then pos else s.thread j := by
  unfold move
  by_cases h : j = i
  · subst h
    simp
  · simp [h]

/-- A thread that moves on with its `ThreadStream`, and neither takes nor gives a mutex. -/
theorem LockInv.move (h : LockInv s) {i : ι} {pos : StreamPos}
    (huses : ∀ target mutex, pos.uses? = some (target, mutex) → s.mutex? target = some mutex)
    (hholds : pos.holds? = (s.thread i).holds?) : LockInv (s.move i pos) := by
  refine ⟨fun j target mutex hj => ?_, fun mutex j => ?_⟩
  · rw [move_thread] at hj
    split_ifs at hj with heq
    · exact huses target mutex hj
    · exact h.uses j target mutex hj
  · rw [move_thread]
    split_ifs with heq
    · rw [hholds, heq]
      exact h.held mutex i
    · exact h.held mutex j

omit [DecidableEq ι] in
/-- `GetConsoleMutex` and `GetFileMutex` take no mutex of a target. -/
theorem LockInv.getMutex (h : LockInv s) (target : LogTarget) : LockInv (s.getMutex target) := by
  obtain ⟨hthread, hholder, -⟩ := getMutex_frame s target
  refine ⟨fun j target' mutex hj => ?_, fun mutex j => ?_⟩
  · rw [hthread] at hj
    exact mutex_getMutex target (h.uses j target' mutex hj)
  · rw [hthread, hholder]
    exact h.held mutex j

/-- A free mutex is taken. -/
theorem LockInv.lock (h : LockInv s) {i : ι} {target : LogTarget} {mutex : LogMutex} {text : List Char}
    (hpos : s.thread i = .waiting target mutex text) (hfree : s.holder mutex = none) :
    LockInv ((s.move i (.writing target mutex [] text)).setHolder mutex (some i)) := by
  refine ⟨fun j target' mutex' hj => ?_, fun mutex' j => ?_⟩
  · rw [setHolder_thread, move_thread] at hj
    split_ifs at hj with heq
    · cases hj
      exact h.uses i target mutex (by rw [hpos]; rfl)
    · exact h.uses j target' mutex' hj
  · rw [setHolder_holder, setHolder_thread, move_thread, move_holder]
    split_ifs with hmutex heq heq
    · rw [hmutex, heq]
      exact ⟨fun _ => rfl, fun _ => rfl⟩
    · -- nobody else held it
      refine ⟨fun hsome => absurd (Option.some.inj hsome).symm heq, fun hj => ?_⟩
      rw [hmutex] at hj
      rw [(h.held mutex j).mpr hj] at hfree
      contradiction
    · refine ⟨fun hsome => ?_, fun hsame => absurd (Option.some.inj hsame).symm hmutex⟩
      have hheld := (h.held mutex' j).mp hsome
      rw [heq, hpos] at hheld
      contradiction
    · exact h.held mutex' j

/-- A mutex is given back by the thread that has it. -/
theorem LockInv.unlock (h : LockInv s) {i : ι} {target : LogTarget} {mutex : LogMutex} {done : List Char}
    (hpos : s.thread i = .writing target mutex done []) :
    LockInv ((s.move i .idle).setHolder mutex none) := by
  have hheld : s.holder mutex = some i := (h.held mutex i).mpr (by rw [hpos]; rfl)
  refine ⟨fun j target' mutex' hj => ?_, fun mutex' j => ?_⟩
  · rw [setHolder_thread, move_thread] at hj
    split_ifs at hj with heq
    · contradiction
    · exact h.uses j target' mutex' hj
  · rw [setHolder_holder, setHolder_thread, move_thread, move_holder]
    split_ifs with hmutex heq heq
    · exact ⟨fun hnone => by contradiction, fun hnone => by contradiction⟩
    · refine ⟨fun hnone => by contradiction, fun hj => ?_⟩
      rw [hmutex] at hj
      rw [(h.held mutex j).mpr hj] at hheld
      exact absurd (Option.some.inj hheld) heq
    · refine ⟨fun hsome => ?_, fun hnone => by contradiction⟩
      have hholds := (h.held mutex' j).mp hsome
      rw [heq, hpos] at hholds
      exact absurd (Option.some.inj hholds).symm hmutex
    · exact h.held mutex' j

/-- Every step keeps the mutexes in order. -/
theorem LockInv.step (h : LockInv s) (hstep : LogStep s s' e) : LockInv s' := by
  cases hstep with
  | threw => exact h.getMutex _
  | @construct i target mutex hpos hmutex =>
    refine (h.getMutex target).move (fun target' mutex' hpair => ?_) ?_
    · cases hpair
      exact hmutex
    · rw [(getMutex_frame s target).1, hpos]
      rfl
  | put hpos | destroy hpos =>
    refine h.move (fun target' mutex' hpair => ?_) (by rw [hpos]; rfl)
    exact h.uses _ target' mutex' (by rw [hpos]; exact hpair)
  | lock hpos hfree => exact h.lock hpos hfree
  | @write i target mutex done rest count hpos =>
    have hmove : LockInv (s.move i (.writing target mutex (done ++ rest.take count) (rest.drop count))) := by
      refine h.move (fun target' mutex' hpair => ?_) (by rw [hpos]; rfl)
      exact h.uses i target' mutex' (by rw [hpos]; exact hpair)
    exact ⟨hmove.uses, hmove.held⟩
  | unlock hpos => exact h.unlock hpos
  | raw => exact ⟨h.uses, h.held⟩

omit [DecidableEq ι] in
/-- At most one thread writes to a target. -/
theorem LockInv.writer_unique (h : LockInv s) {i j : ι} {target : LogTarget} {mutex mutex' : LogMutex}
    {done done' rest rest' : List Char} (hi : s.thread i = .writing target mutex done rest)
    (hj : s.thread j = .writing target mutex' done' rest') : i = j := by
  have hmutex := h.uses i target mutex (by rw [hi]; rfl)
  have hmutex' := h.uses j target mutex' (by rw [hj]; rfl)
  have hsame : mutex' = mutex := Option.some.inj (hmutex'.symm.trans hmutex)
  have hholder := (h.held mutex i).mpr (by rw [hi]; rfl)
  have hholder' := (h.held mutex j).mpr (by rw [hj, hsame]; rfl)
  exact Option.some.inj (hholder.symm.trans hholder')

/-! ## What the targets get -/

/-- The messages that were passed on to a target, one behind the other. -/
def passed (es : List (LogEvent ι)) (target : LogTarget) : List Char :=
  (es.filterMap (LogEvent.textTo? target)).flatten

omit [DecidableEq ι] in
/-- More messages come behind. -/
theorem passed_append (es e : List (LogEvent ι)) (target : LogTarget) :
    passed (es ++ e) target = passed es target ++ passed e target := by
  rw [passed, List.filterMap_append, List.flatten_append]
  rfl

/-- No thread writes to the target. -/
def Untaken (s : LogState ι) (target : LogTarget) : Prop :=
  ∀ i mutex done rest, s.thread i ≠ .writing target mutex done rest

/-- A target has got the messages that were passed on, and what its writer has given it. -/
structure OutputInv (es : List (LogEvent ι)) (s : LogState ι) : Prop where
  busy : ∀ {i target mutex done rest}, s.thread i = .writing target mutex done rest → Reserved es target →
    s.output target = passed es target ++ done
  free : ∀ {target}, Untaken s target → Reserved es target → s.output target = passed es target
  order : ∀ i, es.filterMap (LogEvent.composedBy? i) =
    es.filterMap (LogEvent.writtenBy? i) ++ (s.thread i).unfinished

omit [DecidableEq ι] in
/-- What is reserved was so before. -/
theorem reserved_before {target : LogTarget} (h : Reserved (es ++ e) target) : Reserved es target :=
  fun hcerr piece hmem => h hcerr piece (List.mem_append_left e hmem)

/-- A step that neither writes nor takes or gives a mutex. -/
theorem OutputInv.quiet (h : OutputInv es s) (houtput : s'.output = s.output)
    (hwriting : ∀ i target mutex done rest, s'.thread i = .writing target mutex done rest ↔
      s.thread i = .writing target mutex done rest)
    (hpassed : ∀ target, passed e target = [])
    (horder : ∀ i, (s.thread i).unfinished ++ e.filterMap (LogEvent.composedBy? i) =
      e.filterMap (LogEvent.writtenBy? i) ++ (s'.thread i).unfinished) : OutputInv (es ++ e) s' := by
  refine ⟨fun {i target mutex done rest} hpos hreserved => ?_, fun {target} hfree hreserved => ?_, fun i => ?_⟩
  · rw [houtput, passed_append, hpassed, List.append_nil]
    exact h.busy ((hwriting i target mutex done rest).mp hpos) (reserved_before hreserved)
  · rw [houtput, passed_append, hpassed, List.append_nil]
    refine h.free (fun i mutex done rest hpos => ?_) (reserved_before hreserved)
    exact hfree i mutex done rest ((hwriting i target mutex done rest).mpr hpos)
  · rw [List.filterMap_append, List.filterMap_append, h.order i, List.append_assoc, horder i, List.append_assoc]

/-- A thread that moves between places outside of the mutex. -/
theorem OutputInv.move (h : OutputInv es s) {i : ι} {pos : StreamPos} (hbefore : (s.thread i).holds? = none)
    (hafter : pos.holds? = none) (hpassed : ∀ target, passed e target = [])
    (hothers : ∀ j, j ≠ i → e.filterMap (LogEvent.composedBy? j) = [] ∧ e.filterMap (LogEvent.writtenBy? j) = [])
    (horder : (s.thread i).unfinished ++ e.filterMap (LogEvent.composedBy? i) =
      e.filterMap (LogEvent.writtenBy? i) ++ pos.unfinished) : OutputInv (es ++ e) (s.move i pos) := by
  refine h.quiet rfl (fun j target mutex done rest => ?_) hpassed fun j => ?_
  · rw [move_thread]
    split_ifs with heq
    · refine ⟨fun hwriting => ?_, fun hwriting => ?_⟩
      · rw [hwriting] at hafter
        contradiction
      · rw [← heq, hwriting] at hbefore
        contradiction
    · exact Iff.rfl
  · rw [move_thread]
    split_ifs with heq
    · rw [heq, horder]
    · rw [(hothers j heq).1, (hothers j heq).2, List.append_nil, List.nil_append]

omit [DecidableEq ι] in
/-- A thread that takes the mutex finds nobody writing to its target. -/
theorem LockInv.untaken (h : LockInv s) {i : ι} {target : LogTarget} {mutex : LogMutex} {text : List Char}
    (hpos : s.thread i = .waiting target mutex text) (hfree : s.holder mutex = none) : Untaken s target := by
  intro j mutex' done rest hj
  have hmutex := h.uses i target mutex (by rw [hpos]; rfl)
  have hmutex' := h.uses j target mutex' (by rw [hj]; rfl)
  have hsame : mutex' = mutex := Option.some.inj (hmutex'.symm.trans hmutex)
  rw [(h.held mutex j).mpr (by rw [hj, hsame]; rfl)] at hfree
  contradiction

/-- The first characters of a message follow what was passed on before. -/
theorem OutputInv.lock (h : OutputInv es s) (hlock : LockInv s) {i : ι} {target : LogTarget} {mutex : LogMutex}
    {text : List Char} (hpos : s.thread i = .waiting target mutex text) (hfree : s.holder mutex = none) :
    OutputInv (es ++ []) ((s.move i (.writing target mutex [] text)).setHolder mutex (some i)) := by
  have huntaken := hlock.untaken hpos hfree
  rw [List.append_nil]
  refine ⟨fun {j target' mutex' done rest} hj hreserved => ?_, fun {target'} hnone hreserved => ?_, fun j => ?_⟩
  · rw [setHolder_thread, move_thread] at hj
    split_ifs at hj with heq
    · cases hj
      rw [List.append_nil]
      exact h.free huntaken hreserved
    · exact h.busy hj hreserved
  · refine h.free (fun j mutex' done rest hj => hnone j mutex' done rest ?_) hreserved
    rw [setHolder_thread, move_thread]
    split_ifs with heq
    · rw [heq, hpos] at hj
      contradiction
    · exact hj
  · have horder := h.order j
    rw [setHolder_thread, move_thread]
    split_ifs with heq
    · rw [heq, hpos] at horder
      rw [heq]
      exact horder
    · exact horder

/-- Characters of the writer are added behind its own. -/
theorem OutputInv.write (h : OutputInv es s) (hlock : LockInv s) {i : ι} {target : LogTarget} {mutex : LogMutex}
    {done rest : List Char} (count : ℕ) (hpos : s.thread i = .writing target mutex done rest) :
    OutputInv (es ++ []) ((s.move i (.writing target mutex (done ++ rest.take count) (rest.drop count))).append
      target (rest.take count)) := by
  rw [List.append_nil]
  refine ⟨fun {j target' mutex' done' rest'} hj hreserved => ?_, fun {target'} hnone hreserved => ?_, fun j => ?_⟩
  · rw [append_thread, move_thread] at hj
    rw [append_output, move_output]
    split_ifs at hj with heq
    · cases hj
      rw [if_pos rfl, h.busy hpos hreserved, List.append_assoc]
    · -- the other thread writes elsewhere
      have hother : target' ≠ target := fun hsame => heq (hlock.writer_unique (hsame ▸ hj) hpos)
      rw [if_neg hother]
      exact h.busy hj hreserved
  · have hother : target' ≠ target := by
      intro hsame
      apply hnone i mutex (done ++ rest.take count) (rest.drop count)
      rw [append_thread, move_thread, if_pos rfl, hsame]
    rw [append_output, move_output, if_neg hother]
    refine h.free (fun j mutex' done' rest' hj => hnone j mutex' done' rest' ?_) hreserved
    rw [append_thread, move_thread]
    split_ifs with heq
    · rw [heq, hpos] at hj
      cases hj
      exact absurd rfl hother
    · exact hj
  · have horder := h.order j
    rw [append_thread, move_thread]
    split_ifs with heq
    · rw [heq, hpos] at horder
      rw [heq, StreamPos.unfinished, List.append_assoc, List.take_append_drop]
      exact horder
    · exact horder

/-- Behind its last character a message is a whole one. -/
theorem OutputInv.unlock (h : OutputInv es s) (hlock : LockInv s) {i : ι} {target : LogTarget} {mutex : LogMutex}
    {done : List Char} (hpos : s.thread i = .writing target mutex done []) :
    OutputInv (es ++ [.written i target done]) ((s.move i .idle).setHolder mutex none) := by
  have hpassed (target' : LogTarget) : passed (es ++ [.written i target done]) target' =
      if target' = target then passed es target' ++ done else passed es target' := by
    rw [passed_append]
    split_ifs with hsame
    · simp [passed, LogEvent.textTo?, hsame]
    · simp [passed, LogEvent.textTo?, Ne.symm hsame]
  refine ⟨fun {j target' mutex' done' rest'} hj hreserved => ?_, fun {target'} hnone hreserved => ?_, fun j => ?_⟩
  · rw [setHolder_thread, move_thread] at hj
    split_ifs at hj with heq
    have hother : target' ≠ target := fun hsame => heq (hlock.writer_unique (hsame ▸ hj) hpos)
    rw [hpassed, if_neg hother]
    exact h.busy hj (reserved_before hreserved)
  · rw [hpassed]
    split_ifs with hsame
    · rw [hsame]
      exact h.busy hpos (reserved_before (hsame ▸ hreserved))
    · refine h.free (fun j mutex' done' rest' hj => hnone j mutex' done' rest' ?_) (reserved_before hreserved)
      rw [setHolder_thread, move_thread]
      split_ifs with heq
      · rw [heq, hpos] at hj
        cases hj
        exact absurd rfl hsame
      · exact hj
  · have horder := h.order j
    rw [setHolder_thread, move_thread, List.filterMap_append, List.filterMap_append]
    split_ifs with heq
    · rw [heq, hpos] at horder
      rw [heq, horder]
      simp [LogEvent.composedBy?, LogEvent.writtenBy?, StreamPos.unfinished]
    · rw [horder]
      simp [LogEvent.composedBy?, LogEvent.writtenBy?, Ne.symm heq]

/-- What comes by another way reaches `std::cerr` only. -/
theorem OutputInv.raw (h : OutputInv es s) (piece : List Char) :
    OutputInv (es ++ [.raw piece]) (s.append .cerr piece) := by
  have houtput {target : LogTarget} (hreserved : Reserved (es ++ [.raw piece]) target) :
      (s.append .cerr piece).output target = s.output target := by
    rw [append_output, if_neg fun hcerr => hreserved hcerr piece (by simp)]
  have hpassed (target : LogTarget) : passed (es ++ [.raw piece]) target = passed es target := by
    rw [passed_append]
    simp [passed, LogEvent.textTo?]
  refine ⟨fun {j target mutex done rest} hj hreserved => ?_, fun {target} hnone hreserved => ?_, fun j => ?_⟩
  · rw [houtput hreserved, hpassed]
    exact h.busy hj (reserved_before hreserved)
  · rw [houtput hreserved, hpassed]
    exact h.free hnone (reserved_before hreserved)
  · rw [List.filterMap_append, List.filterMap_append, h.order j, append_thread]
    simp only [List.filterMap_cons, LogEvent.composedBy?, LogEvent.writtenBy?, List.filterMap_nil, List.append_nil]

/-- Every step keeps the targets in order. -/
theorem OutputInv.step (h : OutputInv es s) (hlock : LockInv s) (hstep : LogStep s s' e) :
    OutputInv (es ++ e) s' := by
  cases hstep with
  | @threw i target =>
    obtain ⟨hthread, -, houtput⟩ := getMutex_frame s target
    refine h.quiet houtput (fun j target' mutex done rest => by rw [hthread]) (fun _ => rfl) fun j => ?_
    rw [hthread]
    simp only [List.filterMap_cons, LogEvent.composedBy?, LogEvent.writtenBy?, List.filterMap_nil, List.append_nil,
      List.nil_append]
  | @construct i target mutex hpos _ =>
    obtain ⟨hthread, -, houtput⟩ := getMutex_frame s target
    have hquiet : OutputInv (es ++ []) (s.getMutex target) := by
      refine h.quiet houtput (fun j target' mutex done rest => by rw [hthread]) (fun _ => rfl) fun j => ?_
      rw [hthread, List.filterMap_nil, List.filterMap_nil, List.append_nil, List.nil_append]
    rw [List.append_nil] at hquiet
    have hidle : (s.getMutex target).thread i = .idle := by rw [hthread, hpos]
    exact hquiet.move (by rw [hidle]; rfl) rfl (fun _ => rfl) (fun _ _ => ⟨rfl, rfl⟩) (by rw [hidle]; rfl)
  | put hpos =>
    exact h.move (by rw [hpos]; rfl) rfl (fun _ => rfl) (fun _ _ => ⟨rfl, rfl⟩) (by rw [hpos]; rfl)
  | @destroy i target mutex text hpos =>
    refine h.move (by rw [hpos]; rfl) rfl (fun _ => rfl) (fun j hne => ⟨?_, rfl⟩) ?_
    · simp [LogEvent.composedBy?, hne.symm]
    · rw [hpos]
      simp [LogEvent.composedBy?, LogEvent.writtenBy?, StreamPos.unfinished]
  | lock hpos hfree => exact h.lock hlock hpos hfree
  | write count hpos => exact h.write hlock count hpos
  | unlock hpos => exact h.unlock hlock hpos
  | raw piece => exact h.raw piece

/-- The state of the mutexes and of the targets after any run. -/
theorem trace_inv (h : (logMachine ι).Trace es s) : LockInv s ∧ OutputInv es s := by
  refine h.invariant (I := fun es s => LockInv s ∧ OutputInv es s) (fun s hinit => ?_) fun _ hinv hstep => ?_
  · obtain ⟨hthread, hholder, -, houtput⟩ := hinit
    have hidle (i : ι) : s.thread i = .idle := hthread i
    refine ⟨⟨fun i target mutex hi => ?_, fun mutex i => ?_⟩,
      ⟨fun {i target mutex done rest} hi => ?_, fun {target} _ _ => ?_, fun i => ?_⟩⟩
    · rw [hidle] at hi
      contradiction
    · rw [hidle, hholder]
      exact ⟨fun hnone => by contradiction, fun hnone => by contradiction⟩
    · rw [hidle] at hi
      contradiction
    · exact houtput target
    · rw [hidle]
      rfl
  · have hcases := step_cases hstep
    exact ⟨hinv.1.step hcases, hinv.2.step hinv.1 hcases⟩

/-! ## Messages go through -/

/-- A thread that has its mutex can pass its message on and leave. -/
theorem exec_writing {i : ι} {target : LogTarget} {mutex : LogMutex} {done rest : List Char}
    (hpos : s.thread i = .writing target mutex done rest) :
    ∃ s', (logMachine ι).exec s [.write i rest.length, .unlock i] =
        some (s', [.written i target (done ++ rest)]) ∧
      s'.holder mutex = none ∧ ∀ j, j ≠ i → s'.thread j = s.thread j := by
  refine ⟨((((s.move i (.writing target mutex (done ++ rest) [])).append target rest).move i .idle).setHolder
    mutex none), ?_, ?_, fun j hne => ?_⟩
  · simp [Lib.EventMachine.exec, logMachine, step, hpos, move_thread]
  · rw [setHolder_holder, if_pos rfl]
  · rw [setHolder_thread, move_thread, if_neg hne, append_thread, move_thread, if_neg hne]

/-- A thread that finds its mutex free can take it and pass its message on. -/
theorem exec_waiting {i : ι} {target : LogTarget} {mutex : LogMutex} {text : List Char}
    (hpos : s.thread i = .waiting target mutex text) (hfree : s.holder mutex = none) :
    ∃ s', (logMachine ι).exec s ([.lock i] ++ [.write i text.length, .unlock i]) =
      some (s', [.written i target text]) := by
  have hlock : (logMachine ι).exec s [.lock i] =
      some ((s.move i (.writing target mutex [] text)).setHolder mutex (some i), []) := by
    simp [Lib.EventMachine.exec, logMachine, step, hpos, hfree]
  obtain ⟨s', hexec, -, -⟩ := exec_writing
    (s := (s.move i (.writing target mutex [] text)).setHolder mutex (some i)) (i := i)
    (by rw [setHolder_thread, move_thread, if_pos rfl])
  refine ⟨s', ?_⟩
  rw [Lib.EventMachine.exec_append, hlock, Option.bind_some, hexec]
  rfl

/-- A message that is completed can be passed on within five steps, whatever the other threads are at. -/
theorem LockInv.exec_written (h : LockInv s) {i : ι} {target : LogTarget} {text : List Char}
    (hunfinished : (s.thread i).unfinished = [(target, text)]) :
    ∃ as s' e, as.length ≤ 5 ∧ (logMachine ι).exec s as = some (s', e) ∧ .written i target text ∈ e := by
  cases hpos : s.thread i with
  | idle | composing _ _ _ =>
    rw [hpos] at hunfinished
    contradiction
  | writing target' mutex done rest =>
    rw [hpos] at hunfinished
    cases hunfinished
    obtain ⟨s', hexec, -, -⟩ := exec_writing hpos
    exact ⟨_, s', _, by simp, hexec, by simp⟩
  | waiting target' mutex text' =>
    rw [hpos] at hunfinished
    cases hunfinished
    cases hholder : s.holder mutex with
    | none =>
      obtain ⟨s', hexec⟩ := exec_waiting hpos hholder
      exact ⟨_, s', _, by simp, hexec, by simp⟩
    | some j =>
      -- the holder goes first
      have hheld := (h.held mutex j).mp hholder
      cases hj : s.thread j with
      | idle | composing _ _ _ | waiting _ _ _ =>
        rw [hj] at hheld
        contradiction
      | writing target' mutex' done rest =>
        rw [hj] at hheld
        cases hheld
        have hne : i ≠ j := by
          intro hsame
          rw [hsame, hj] at hpos
          contradiction
        obtain ⟨s₁, hexec₁, hfree, hothers⟩ := exec_writing hj
        obtain ⟨s₂, hexec₂⟩ := exec_waiting ((hothers i hne).trans hpos) hfree
        refine ⟨[.write j rest.length, .unlock j] ++ ([.lock i] ++ [.write i text.length, .unlock i]), s₂,
          [.written j target' (done ++ rest)] ++ [.written i target text], by simp, ?_, by simp⟩
        rw [Lib.EventMachine.exec_append, hexec₁, Option.bind_some, hexec₂]
        rfl

end LogState

/-- Log messages of different threads never mix: a target that is written to by `ThreadStream` only has got whole
messages, one behind the other, and at most the beginning of the one that is being written. Each thread's
messages come once each and in its order, and a message that is completed always gets through. -/
theorem log_messages_whole {ι : Type*} [DecidableEq ι] {es : List (LogEvent ι)} {s : LogState ι}
    (h : (logMachine ι).Trace es s) :
    (∀ target, Reserved es target → ∃ begun, s.output target = LogState.passed es target ++ begun ∧
      (begun ≠ [] → ∃ i mutex rest, s.thread i = .writing target mutex begun rest)) ∧
    (∀ i, es.filterMap (LogEvent.composedBy? i) =
      es.filterMap (LogEvent.writtenBy? i) ++ (s.thread i).unfinished) ∧
    (∀ i target text, (s.thread i).unfinished = [(target, text)] →
      ∃ as s' e, as.length ≤ 5 ∧ (logMachine ι).exec s as = some (s', e) ∧ .written i target text ∈ e) := by
  obtain ⟨hlock, houtput⟩ := LogState.trace_inv h
  refine ⟨fun target hreserved => ?_, houtput.order, fun i target text => hlock.exec_written⟩
  by_cases hwriter : ∃ i mutex done rest, s.thread i = .writing target mutex done rest
  · obtain ⟨i, mutex, done, rest, hi⟩ := hwriter
    exact ⟨done, houtput.busy hi hreserved, fun _ => ⟨i, mutex, rest, hi⟩⟩
  · refine ⟨[], ?_, fun hne => absurd rfl hne⟩
    rw [List.append_nil]
    exact houtput.free (fun i mutex done rest hi => hwriter ⟨i, mutex, done, rest, hi⟩) hreserved

/-- Before any message. -/
def LogState.start (ι : Type*) : LogState ι :=
  { thread := fun _ => .idle, holder := fun _ => none, fileMutexes := [], output := fun _ => [] }

/-- Two threads complete a message for `std::cout` each; one is in the middle of writing when the other asks
for the mutex. -/
def twoMessages : List (LogAction Bool) :=
  [.construct false .cout true, .construct true .cout true, .put true ['s', 'e'], .put false ['r', 'e', 'c', 'v'],
    .put true ['n', 'd'], .destroy true, .destroy false, .lock false, .write false 2]

theorem log_messages_whole_twoThreads : ∃ es s, (logMachine Bool).exec (.start Bool) twoMessages = some (s, es) ∧
    s.thread true = .waiting .cout .coutMutex ['s', 'e', 'n', 'd'] ∧ s.output .cout = ['r', 'e'] ∧
    (∀ target, Reserved es target → ∃ begun, s.output target = LogState.passed es target ++ begun ∧
      (begun ≠ [] → ∃ i mutex rest, s.thread i = .writing target mutex begun rest)) ∧
    (∀ i, es.filterMap (LogEvent.composedBy? i) =
      es.filterMap (LogEvent.writtenBy? i) ++ (s.thread i).unfinished) ∧
    (∀ i target text, (s.thread i).unfinished = [(target, text)] →
      ∃ as s' e, as.length ≤ 5 ∧ (logMachine Bool).exec s as = some (s', e) ∧ .written i target text ∈ e) := by
  have hinit : (logMachine Bool).initial (.start Bool) := ⟨fun _ => rfl, fun _ => rfl, rfl, fun _ => rfl⟩
  have hexec : (logMachine Bool).exec (.start Bool) twoMessages = some (_, _) := rfl
  exact ⟨_, _, hexec, rfl, rfl, log_messages_whole (Lib.EventMachine.exec_trace hinit hexec)⟩

end Trftp
