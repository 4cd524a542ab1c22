import Trftp.UdpSocket
import Mathlib.Data.List.Basic
import Mathlib.Data.List.TakeWhile

/-!
# Addresses as text

`inet_addr` reads an IPv4 address in the numbers-and-dots notation: one to four parts, each
decimal, octal (`0` in front) or hexadecimal (`0x` in front), the last of which fills the
bytes that are left. `inet_ntoa` prints four decimal octets. Printing and reading again gives
the address back; reading and printing again gives the canonical spelling.

A `std::string` is the list of its characters.
-/

namespace Trftp

/-- `std::string`. -/
abbrev Text := List Char

/-- `c_str()` as C functions read it, up to the first zero. -/
def cStr (text : Text) : Text := text.takeWhile (·.toNat ≠ 0)

/-! ## Numbers -/

/-- The value of a digit, in bases up to sixteen. -/
def digitValue (c : Char) : Option ℕ :=
  if c.isDigit then some (c.toNat - 48)
  else if 97 ≤ c.toNat ∧ c.toNat ≤ 102 then some (c.toNat - 87)
  else if 65 ≤ c.toNat ∧ c.toNat ≤ 70 then some (c.toNat - 55)
  else none

/-- A character is a digit of the base. -/
def isDigitOf (base : ℕ) (c : Char) : Bool :=
  match digitValue c with
  | some value => value < base
  | none => false

/-- The value of a row of digits. -/
def digitsValue (base : ℕ) (digits : Text) : ℕ :=
  digits.foldl (fun value c => base * value + (digitValue c).getD 0) 0

/-- `strtol` with base 10, as `std::stoi` calls it: blanks, a sign, and as many digits as there are. It
throws if there is no digit or if the value is no `int`. -/
def stoi (text : Text) : Option ℤ :=
  let text := text.dropWhile fun c => c.toNat = 32 ∨ (9 ≤ c.toNat ∧ c.toNat ≤ 13)
  let negative := text.head? = some '-'
  let text := if negative ∨ text.head? = some '+' then text.tail else text
  let digits := text.takeWhile (isDigitOf 10)
  let value : ℤ := if negative then -(digitsValue 10 digits : ℤ) else digitsValue 10 digits
  if digits = [] ∨ value < -2147483648 ∨ 2147483647 < value then none else some value

/-! ## Addresses -/

/-- `INADDR_NONE`, which `inet_addr` returns for a text that is no address. -/
def inaddrNone : UInt32 := 0xFFFFFFFF

/-- `INET_ADDRSTRLEN`. -/
def inetAddrStrLen : ℕ := 16

/-- One part of the numbers-and-dots notation. -/
def inetPart (part : Text) : Option ℕ :=
  let (base, digits) :=
    match part with
    | '0' :: 'x' :: digits | '0' :: 'X' :: digits => (16, digits)
    | '0' :: digits => (8, if digits = [] then part else digits)
    | digits => (10, digits)
  if digits = [] ∨ ¬digits.all (isDigitOf base) ∨ 0xFFFFFFFF < digitsValue base digits then none
  else some (digitsValue base digits)

/-- The address that the values of the parts stand for. -/
def inetParts : List ℕ → Option UInt32
  | [a] => some (UInt32.ofNat a)
  | [a, b] => if a < 2 ^ 8 ∧ b < 2 ^ 24 then some (UInt32.ofNat (a * 2 ^ 24 + b)) else none
  | [a, b, c] =>
    if a < 2 ^ 8 ∧ b < 2 ^ 8 ∧ c < 2 ^ 16 then some (UInt32.ofNat (a * 2 ^ 24 + b * 2 ^ 16 + c)) else none
  | [a, b, c, d] =>
    if a < 2 ^ 8 ∧ b < 2 ^ 8 ∧ c < 2 ^ 8 ∧ d < 2 ^ 8 then
      some (UInt32.ofNat (a * 2 ^ 24 + b * 2 ^ 16 + c * 2 ^ 8 + d))
    else none
  | _ => none

/-- `inet_addr`. -/
def inetAddr (text : Text) : UInt32 :=
  (((text.splitOn '.').mapM inetPart).bind inetParts).getD inaddrNone

/-- The octets of an address, the first one first. -/
def octets (addr : UInt32) : List ℕ :=
  [addr.toNat / 2 ^ 24, addr.toNat / 2 ^ 16 % 2 ^ 8, addr.toNat / 2 ^ 8 % 2 ^ 8, addr.toNat % 2 ^ 8]

/-- `inet_ntoa`. -/
def inetNtoa (addr : UInt32) : Text := ['.'].intercalate ((octets addr).map (Nat.toDigits 10))

/-- An octet fits a byte. -/
theorem lt_of_mem_octets {addr : UInt32} {octet : ℕ} (h : octet ∈ octets addr) : octet < 2 ^ 8 := by
  have hlt := addr.toNat_lt
  simp only [octets, List.mem_cons, List.not_mem_nil, or_false] at h
  omega

/-- A printed octet is read back. -/
theorem inetPart_toDigits {octet : ℕ} (h : octet < 2 ^ 8) : inetPart (Nat.toDigits 10 octet) = some octet := by
  have hall : ∀ octet < 2 ^ 8, inetPart (Nat.toDigits 10 octet) = some octet := by decide +kernel
  exact hall octet h

/-- The dots of a printed address are between its octets. -/
theorem splitOn_inetNtoa (addr : UInt32) :
    (inetNtoa addr).splitOn '.' = (octets addr).map (Nat.toDigits 10) := by
  refine List.splitOn_intercalate '.' (fun digits hdigits hdot => ?_) (by simp [octets])
  obtain ⟨octet, -, rfl⟩ := List.mem_map.mp hdigits
  have hdigit := Nat.isDigit_of_mem_toDigits (by decide) (by decide) hdot
  exact absurd hdigit (by decide)

/-- The octets make up the address. -/
theorem inetParts_octets (addr : UInt32) : inetParts (octets addr) = some addr := by
  have hlt := addr.toNat_lt
  have hoctets := @lt_of_mem_octets addr
  simp only [octets, List.mem_cons, List.not_mem_nil, or_false, forall_eq_or_imp, forall_eq] at hoctets
  rw [octets, inetParts, if_pos hoctets, Option.some.injEq, ← UInt32.toNat_inj, UInt32.toNat_ofNat']
  omega

/-- A printed address is read back. -/
@[simp] theorem inetAddr_inetNtoa (addr : UInt32) : inetAddr (inetNtoa addr) = addr := by
  have hparts : ((octets addr).map (Nat.toDigits 10)).mapM inetPart = some (octets addr) := by
    have hall : ∀ octet ∈ octets addr, inetPart (Nat.toDigits 10 octet) = some octet := fun octet h =>
      inetPart_toDigits (lt_of_mem_octets h)
    generalize octets addr = parts at hall ⊢
    induction parts with
    | nil => rfl
    | cons octet parts ih =>
      have hrest := ih fun octet h => hall octet (List.mem_cons_of_mem _ h)
      simp [List.mapM_cons, hall octet List.mem_cons_self, hrest]
  rw [inetAddr, splitOn_inetNtoa, hparts, Option.bind_some, inetParts_octets, Option.getD_some]

example : inetAddr ['1', '2', '7', '.', '1'] = inetAddr ['1', '2', '7', '.', '0', '.', '0', '.', '1'] := by
  decide

example : inetAddr ['0', 'x', '7', 'f', '.', '0', '1'] =
    inetAddr ['2', '1', '3', '0', '7', '0', '6', '4', '3', '3'] := by
  decide

/-- A printed address has no zero in it. -/
@[simp] theorem cStr_inetNtoa (addr : UInt32) : cStr (inetNtoa addr) = inetNtoa addr := by
  have hdigits : ∀ {octet : ℕ} {c : Char}, c ∈ Nat.toDigits 10 octet → c.toNat ≠ 0 := by
    intro octet c hc hzero
    have hdigit := Nat.isDigit_of_mem_toDigits (by decide) (by decide) hc
    have hnull : c = Char.ofNat 0 := Char.toNat_inj.mp hzero
    rw [hnull] at hdigit
    exact absurd hdigit (by decide)
  rw [cStr, List.takeWhile_eq_self_iff]
  intro c hc
  simp only [inetNtoa, octets, List.map_cons, List.map_nil, List.intercalate_cons_cons,
    List.intercalate_singleton, List.mem_append, List.mem_singleton, or_assoc] at hc
  rw [decide_eq_true_eq]
  rcases hc with hc | rfl | hc | rfl | hc | rfl | hc
  · exact hdigits hc
  · decide
  · exact hdigits hc
  · decide
  · exact hdigits hc
  · decide
  · exact hdigits hc

/-- Different addresses are printed differently. -/
theorem inetNtoa_injective : Function.Injective inetNtoa :=
  Function.LeftInverse.injective inetAddr_inetNtoa

/-- The spelling of an address that `inet_ntoa` prints. -/
def Canonical (text : Text) : Prop := inetNtoa (inetAddr text) = text

instance (text : Text) : Decidable (Canonical text) := inferInstanceAs (Decidable (_ = _))

/-- A printed address is canonical. -/
theorem canonical_inetNtoa (addr : UInt32) : Canonical (inetNtoa addr) := by
  rw [Canonical, inetAddr_inetNtoa]

/-- Whether a text is canonical can be told from its C string. -/
theorem canonical_iff_cStr (text : Text) : Canonical text ↔ inetNtoa (inetAddr (cStr text)) = text := by
  constructor
  · intro h
    have hstr : cStr text = text := by
      rw [← h, cStr_inetNtoa]
    rw [hstr]
    exact h
  · intro h
    rw [← h]
    exact canonical_inetNtoa _

end Trftp
