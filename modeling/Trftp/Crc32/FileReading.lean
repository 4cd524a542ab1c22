import Trftp.Crc32
import Trftp.Lib.Chunks
import Trftp.Lib.EventMachine
import Mathlib.Tactic.SplitIfs

/-!
# Reading a file for its checksum

The loop of `CalculateFileCrc32` as a machine over the stream: each step is an iteration, and what it
shows is the part of the buffer that it passes to `CalculateCrc32`. The last read of a file fails,
and still delivers what was left; the loop goes on once more in that case, and ends with a read that
delivers nothing.

The `k`th buffer is the `k`th chunk of the file, whether the last chunk is full or not. The
complements at the end of one call and at the beginning of the next cancel.
-/

namespace Trftp

open Lib (EventMachine chunk chunkCount firstChunks)

/-- The loop on a file that can be opened. -/
def fileReading (file : List UInt8) : EventMachine FileReading Unit (List UInt8) where
  initial s := s = .start file
  step s _ := s.step

/-- The variables when the first `count` chunks have been read. -/
def FileReading.after (file : List UInt8) (count : ℕ) : FileReading where
  ifs := ⟨file.drop (count * readBufSize), decide (file.length < count * readBufSize)⟩
  crc32 := calculateCrc32 (firstChunks readBufSize file count) 0
  totalReadSize := (firstChunks readBufSize file count).length

namespace FileReading

variable {file : List UInt8} {count : ℕ}

/-- No checksum is computed over nothing. -/
theorem calculateCrc32_nil (crc32 : UInt32) : calculateCrc32 [] crc32 = crc32 := by
  simp [calculateCrc32, crc32Loop]

/-- Before the loop nothing has been read. -/
theorem after_zero (file : List UInt8) : after file 0 = start file := by
  simp [after, start, calculateCrc32_nil]

/-- As long as a chunk is left, an iteration passes it on. -/
theorem step_of_lt (hlt : count < chunkCount readBufSize file.length) :
    (after file count).step = some (after file (count + 1), [chunk readBufSize file count]) := by
  have hstart : count * readBufSize < file.length := (Lib.lt_chunkCount_iff (by decide)).mp hlt
  have hend : (count + 1) * readBufSize = count * readBufSize + readBufSize := Nat.succ_mul _ _
  have hgood : decide (file.length < count * readBufSize) = false := decide_eq_false (by omega)
  have hnext : firstChunks readBufSize file (count + 1) =
      firstChunks readBufSize file count ++ chunk readBufSize file count :=
    (Lib.firstChunks_append_chunk _ _ _).symm
  have hsize : 0 < readBufSize := by decide
  have hlength : (file.drop (count * readBufSize)).length = file.length - count * readBufSize := List.length_drop
  have hread : (after file count).ifs.read readBufSize =
      ((after file (count + 1)).ifs, chunk readBufSize file count) := by
    simp only [after, InStream.read, hgood, Bool.false_eq_true, if_false, hlength, hend]
    split_ifs with hfull
    · rw [decide_eq_false (by omega), List.drop_drop]
      rfl
    · have hnone : file.drop (count * readBufSize + readBufSize) = [] := List.drop_of_length_le (by omega)
      have hrest : chunk readBufSize file count = file.drop (count * readBufSize) :=
        List.take_of_length_le (by omega)
      rw [decide_eq_true (by omega), hnone, hrest]
  have hbytes : 0 < (chunk readBufSize file count).length := by
    rw [Lib.length_chunk]
    omega
  simp only [step, hread, hbytes, or_true, if_true]
  simp only [after, hnext, calculateCrc32_append, List.length_append]

/-- When no chunk is left, the loop ends. -/
theorem step_of_ge (hge : chunkCount readBufSize file.length ≤ count) : (after file count).step = none := by
  have hcover : file.length ≤ count * readBufSize :=
    Nat.le_of_not_lt fun hlt => Nat.not_lt.mpr hge ((Lib.lt_chunkCount_iff (by decide)).mpr hlt)
  have hempty : file.drop (count * readBufSize) = [] := List.drop_of_length_le hcover
  have hread : (after file count).ifs.read readBufSize = (⟨[], true⟩, []) := by
    simp only [after, InStream.read, hempty]
    by_cases hfailed : file.length < count * readBufSize
    · simp [hfailed]
    · simp [hfailed, show ¬readBufSize ≤ 0 by decide]
  simp [step, hread]

/-- The iterations pass on the chunks, one after the other. -/
theorem exec_start (hle : count ≤ chunkCount readBufSize file.length) :
    (fileReading file).exec (start file) (List.replicate count ()) =
      some (after file count, (List.range count).map (chunk readBufSize file)) := by
  induction count with
  | zero => rw [after_zero]; rfl
  | succ count ih =>
    rw [List.replicate_succ', EventMachine.exec_append, ih (by omega), List.range_succ, List.map_append]
    simp [EventMachine.exec, fileReading, step_of_lt hle]

end FileReading

/-- With enough iterations the read loop passes on all chunks. -/
theorem readLoop_after {file : List UInt8} {fuel count : ℕ}
    (henough : chunkCount readBufSize file.length ≤ count + fuel)
    (hle : count ≤ chunkCount readBufSize file.length) :
    readLoop fuel (.after file count) = .after file (chunkCount readBufSize file.length) := by
  induction fuel generalizing count with
  | zero => rw [readLoop, Nat.le_antisymm hle henough]
  | succ fuel ih =>
    rw [readLoop]
    rcases Nat.lt_or_ge count (chunkCount readBufSize file.length) with hlt | hge
    · rw [FileReading.step_of_lt hlt]
      exact ih (by omega) hlt
    · rw [FileReading.step_of_ge hge, Nat.le_antisymm hle hge]

/-- A file has at least as many bytes as chunks. -/
theorem chunkCount_le_length (file : List UInt8) : chunkCount readBufSize file.length ≤ file.length := by
  unfold chunkCount readBufSize
  omega

/-- The checksum of a file is that of its bytes.

For every file: the loop of `CalculateFileCrc32` ends behind as many iterations as the file has chunks;
the bytes that it passes to `CalculateCrc32` are those of the file, each once and in order; and what it
has computed, which `CalculateFileCrc32` returns because the sizes agree, is the checksum of the
whole file. -/
theorem calculateFileCrc32_eq (file : List UInt8) :
    ∃ s bufs, (fileReading file).exec (.start file) (List.replicate (chunkCount readBufSize file.length) ()) =
        some (s, bufs) ∧
      s.step = none ∧ bufs.flatten = file ∧ s.totalReadSize = file.length ∧
      s.crc32 = calculateCrc32 file 0 ∧ calculateFileCrc32 (some file) = calculateCrc32 file 0 := by
  have hcover : file.length ≤ chunkCount readBufSize file.length * readBufSize :=
    Lib.le_chunkCount_mul (by decide)
  have hall : firstChunks readBufSize file (chunkCount readBufSize file.length) = file :=
    Lib.firstChunks_of_covered hcover
  refine ⟨_, _, FileReading.exec_start le_rfl, FileReading.step_of_ge le_rfl, ?_, ?_, ?_, ?_⟩
  · rw [Lib.flatten_chunks, hall]
  · simp only [FileReading.after, hall]
  · simp only [FileReading.after, hall]
  · have hresult : readLoop (file.length + 1) (.start file) =
        .after file (chunkCount readBufSize file.length) := by
      have hcount := chunkCount_le_length file
      rw [← FileReading.after_zero]
      exact readLoop_after (by omega) (Nat.zero_le _)
    simp [calculateFileCrc32, hresult, FileReading.after, hall]

end Trftp
