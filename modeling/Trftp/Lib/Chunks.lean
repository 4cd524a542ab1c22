import Mathlib.Data.List.Basic
import Mathlib.Tactic.Ring

/-!
# Cutting a list into chunks of a fixed size

Chunk `k` of a list holds its elements from position `k * size` on, at most `size` of
them. Reassembling the chunks in order grows a prefix of the list, and the number of
chunks is the length divided by the size, rounded up.
-/

namespace Lib

variable {α : Type*}

/-- The chunk with the given index. -/
def chunk (size : ℕ) (source : List α) (index : ℕ) : List α :=
  (source.drop (index * size)).take size

/-- The prefix made of the first chunks. -/
def firstChunks (size : ℕ) (source : List α) (count : ℕ) : List α :=
  source.take (count * size)

/-- How many chunks a list of the given length has. -/
def chunkCount (size length : ℕ) : ℕ := (length + size - 1) / size

/-- Nothing has been reassembled from no chunk. -/
@[simp] theorem firstChunks_zero (size : ℕ) (source : List α) : firstChunks size source 0 = [] := by
  simp [firstChunks]

/-- A chunk is full unless the list ends inside it. -/
theorem length_chunk (size : ℕ) (source : List α) (index : ℕ) :
    (chunk size source index).length = min size (source.length - index * size) := by
  simp [chunk]

/-- The next chunk extends the reassembled prefix by itself. -/
theorem firstChunks_append_chunk (size : ℕ) (source : List α) (count : ℕ) :
    firstChunks size source count ++ chunk size source count = firstChunks size source (count + 1) := by
  rw [firstChunks, chunk, firstChunks, Nat.succ_mul, List.take_add]

/-- Chunks one behind the other are the prefix that they make up. -/
theorem flatten_chunks (size : ℕ) (source : List α) (count : ℕ) :
    ((List.range count).map (chunk size source)).flatten = firstChunks size source count := by
  induction count with
  | zero => simp
  | succ count ih =>
    rw [List.range_succ, List.map_append, List.flatten_append, ih, List.map_singleton, List.flatten_singleton,
      firstChunks_append_chunk]

/-- Once the chunks cover the list, the prefix is the list. -/
theorem firstChunks_of_covered {size : ℕ} {source : List α} {count : ℕ}
    (h : source.length ≤ count * size) : firstChunks size source count = source :=
  List.take_of_length_le h

/-- Indices of chunks are those that start before the end. -/
theorem lt_chunkCount_iff {size length index : ℕ} (hsize : 0 < size) :
    index < chunkCount size length ↔ index * size < length := by
  rw [chunkCount, ← Nat.succ_le_iff, Nat.le_div_iff_mul_le hsize, Nat.succ_mul]
  omega

/-- All chunks together cover the list. -/
theorem le_chunkCount_mul {size length : ℕ} (hsize : 0 < size) :
    length ≤ chunkCount size length * size :=
  Nat.le_of_not_lt fun h => Nat.lt_irrefl _ ((lt_chunkCount_iff hsize).mpr h)

/-- All chunks but the last end before the list does. -/
theorem succ_mul_lt_of_succ_lt_chunkCount {size length index : ℕ} (hsize : 0 < size)
    (h : index + 1 < chunkCount size length) : (index + 1) * size < length :=
  (lt_chunkCount_iff hsize).mp h

/-- A chunk that is not the last one is full. -/
theorem length_chunk_of_succ_lt {size : ℕ} {source : List α} {index : ℕ} (hsize : 0 < size)
    (h : index + 1 < chunkCount size source.length) : (chunk size source index).length = size := by
  have hend := succ_mul_lt_of_succ_lt_chunkCount hsize h
  rw [length_chunk, Nat.min_eq_left]
  rw [Nat.succ_mul] at hend
  omega

/-- The last chunk holds what is left of the list. -/
theorem length_chunk_last {size : ℕ} {source : List α} {index : ℕ} (hsize : 0 < size)
    (h : index + 1 = chunkCount size source.length) :
    (chunk size source index).length = source.length - index * size := by
  have hcover : source.length ≤ chunkCount size source.length * size := le_chunkCount_mul hsize
  rw [length_chunk, Nat.min_eq_right]
  rw [← h, Nat.succ_mul] at hcover
  omega

end Lib
