import Mathlib.Tactic.Ring

/-!
# Fixed-width words in little-endian byte order

A word of width `w` occupies `w` bytes, least significant first. Writing keeps the
value modulo `256 ^ w`; reading is total, and the two are inverse at matching widths.
-/

namespace Lib.LittleEndian

/-- Write a natural number into the given number of bytes. -/
def write : ℕ → ℕ → List UInt8
  | 0, _ => []
  | width + 1, value => UInt8.ofNat value :: write width (value / 256)

/-- Read all the given bytes as one number. -/
def read : List UInt8 → ℕ
  | [] => 0
  | byte :: rest => byte.toNat + 256 * read rest

/-- A word fills its width. -/
@[simp] theorem length_write (width value : ℕ) : (write width value).length = width := by
  induction width generalizing value with
  | zero => rfl
  | succ width ih => simp [write, ih]

/-- Reading a written word reduces it to its width. -/
theorem read_write (width value : ℕ) : read (write width value) = value % 256 ^ width := by
  induction width generalizing value with
  | zero => simp [write, read, Nat.mod_one]
  | succ width ih =>
    have hsplit : value % 256 ^ (width + 1) = value % 256 + 256 * (value / 256 % 256 ^ width) := by
      rw [pow_succ', Nat.mod_mul]
    rw [write, read, ih, UInt8.toNat_ofNat', hsplit]

/-- A word that fits its width is read back unchanged. -/
theorem read_write_of_lt {width value : ℕ} (h : value < 256 ^ width) :
    read (write width value) = value := by
  rw [read_write, Nat.mod_eq_of_lt h]

/-- Bytes read as a number below the bound of their width. -/
theorem read_lt (bytes : List UInt8) : read bytes < 256 ^ bytes.length := by
  induction bytes with
  | nil => simp [read]
  | cons byte rest ih =>
    have hbyte := byte.toNat_lt
    rw [read, List.length_cons, pow_succ]
    omega

/-- Writing what was read restores the bytes. -/
theorem write_read (bytes : List UInt8) : write bytes.length (read bytes) = bytes := by
  induction bytes with
  | nil => rfl
  | cons byte rest ih =>
    have hbyte := byte.toNat_lt
    have hlow : UInt8.ofNat (byte.toNat + 256 * read rest) = byte := by
      apply UInt8.toNat_inj.mp
      rw [UInt8.toNat_ofNat']
      omega
    have hhigh : (byte.toNat + 256 * read rest) / 256 = read rest := by omega
    rw [List.length_cons, read, write, hlow, hhigh, ih]

end Lib.LittleEndian
