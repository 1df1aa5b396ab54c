import Mathlib.Algebra.Group.Int.Defs
import Mathlib.Data.List.Basic
import Mathlib.Data.List.Lex

/-!
# Byte strings

`std::string` and `std::string_view` are lists of bytes. `text` spells a string literal of the
source, `toText` is `std::to_string`, and `stoll` is `std::stoll` in base ten with its two
exceptions (no digits, out of range) as `none`.

PostgreSQL compares the texts of the schema in the collation of the database. The database modules
take any linear order; `bytewise` is the order of the C collation.
-/

set_option autoImplicit false
set_option relaxedAutoImplicit false

namespace ChatServer

/-- `std::string`: a list of bytes. -/
abbrev Bytes := List UInt8

/-- A string literal of the source. -/
def text (literal : String) : Bytes :=
  literal.toUTF8.data.toList

/-- `'\n'`. -/
def newline : UInt8 := 10

/-- `'\r'`. -/
def carriageReturn : UInt8 := 13

/-- `std::to_string` on an integer. -/
def toText (number : Int) : Bytes :=
  text (toString number)

/-! ### `std::stoll` -/

/-- `std::isspace` in the C locale. -/
def isSpace (byte : UInt8) : Bool :=
  byte == 32 || (9 ≤ byte && byte ≤ 13)

/-- `std::isdigit`. -/
def isDigit (byte : UInt8) : Bool :=
  48 ≤ byte && byte ≤ 57

/-- The value of a run of decimal digits. -/
def digitsValue (digits : Bytes) : Int :=
  digits.foldl (fun value digit ↦ value * 10 + ((digit.toNat : Int) - 48)) 0

/-- `std::stoll(value, &pos)`: the number and the count of bytes it took, or `none` where the call
throws. -/
def stoll (value : Bytes) : Option (Int × Nat) :=
  let spaces := value.takeWhile isSpace
  let unspaced := value.drop spaces.length
  let signed := unspaced.head? = some 43 ∨ unspaced.head? = some 45
  let negative := unspaced.head? = some 45
  let unsigned := if signed then unspaced.tail else unspaced
  let digits := unsigned.takeWhile isDigit
  let number := if negative then -digitsValue digits else digitsValue digits
  if digits = [] then none
  else if number < -2 ^ 63 ∨ 2 ^ 63 ≤ number then none
  else some (number, spaces.length + (if signed then 1 else 0) + digits.length)

example : stoll (text " +42x") = some (42, 4) := by decide

/-! ### What `std::to_string` writes -/

theorem mem_text {literal : String} {byte : UInt8} :
    byte ∈ text literal ↔ ∃ char ∈ literal.toList, byte ∈ String.utf8EncodeChar char := by
  unfold text
  show byte ∈ literal.toByteArray.data.toList ↔ _
  rw [← String.utf8Encode_toList, List.utf8Encode]
  simp

/-- A digit is one byte, and this is a digit. -/
theorem isDigit_of_char {char : Char} {byte : UInt8} (hchar : char.isDigit = true)
    (hbyte : byte ∈ String.utf8EncodeChar char) : isDigit byte = true := by
  obtain ⟨hlow, hhigh⟩ := Char.isDigit_iff_toNat.mp hchar
  rw [show '0'.toNat = 48 from rfl] at hlow
  rw [show '9'.toNat = 57 from rfl] at hhigh
  have hascii : char.val.toNat ≤ 127 := by
    show char.toNat ≤ 127
    omega
  rw [String.utf8EncodeChar, if_pos hascii, List.mem_singleton] at hbyte
  rw [hbyte]
  unfold isDigit
  rw [Bool.and_eq_true, decide_eq_true_iff, decide_eq_true_iff, UInt8.le_iff_toNat_le,
    UInt8.le_iff_toNat_le]
  show 48 ≤ (Nat.toUInt8 char.toNat).toNat ∧ (Nat.toUInt8 char.toNat).toNat ≤ 57
  rw [Nat.toUInt8, UInt8.toNat_ofNat']
  omega

/-- `std::to_string` writes digits, after a minus sign or none. -/
theorem mem_toText {number : Int} {byte : UInt8} (hbyte : byte ∈ toText number) :
    byte = 45 ∨ isDigit byte = true := by
  have hnat : ∀ {n : Nat}, byte ∈ text n.repr → isDigit byte = true := by
    intro n hmem
    obtain ⟨char, hchar, hbyte⟩ := mem_text.mp hmem
    rw [Nat.toList_repr] at hchar
    exact isDigit_of_char (Nat.isDigit_of_mem_toDigits (by decide) (by decide) hchar) hbyte
  cases number with
  | ofNat n => exact Or.inr (hnat hbyte)
  | negSucc n =>
    obtain ⟨char, hchar, hbyte⟩ := mem_text.mp hbyte
    change char ∈ ("-" ++ n.succ.repr).toList at hchar
    rw [String.toList_append, List.mem_append] at hchar
    rcases hchar with hminus | hdigit
    · have hchar : char = '-' := List.mem_singleton.mp hminus
      rw [hchar] at hbyte
      exact Or.inl (List.mem_singleton.mp hbyte)
    · exact Or.inr (hnat (mem_text.mpr ⟨char, hdigit, hbyte⟩))

theorem toText_ne_nil (number : Int) : toText number ≠ [] := by
  have hchars : (toString number).toList ≠ [] := by
    cases number with
    | ofNat n =>
      show (Nat.repr n).toList ≠ []
      rw [Nat.toList_repr]
      exact Nat.toDigits_ne_nil
    | negSucc n =>
      show ("-" ++ n.succ.repr).toList ≠ []
      rw [String.toList_append]
      exact List.cons_ne_nil _ _
  obtain ⟨char, hchar⟩ := List.exists_mem_of_ne_nil _ hchars
  obtain ⟨byte, hbyte⟩ := List.exists_mem_of_ne_nil _ (@String.utf8EncodeChar_ne_nil char)
  exact List.ne_nil_of_mem (mem_text.mpr ⟨char, hchar, hbyte⟩)

/-! ### Collations -/

/-- The order of the C collation: bytes compared as numbers, first difference first. -/
@[reducible] def bytewise : LinearOrder Bytes :=
  LinearOrder.lift' (fun value : Bytes ↦ value.map UInt8.toNat)
    (List.map_injective_iff.mpr fun _ _ hnat ↦ UInt8.toNat_inj.mp hnat)

end ChatServer
