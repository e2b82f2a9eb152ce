/-!
# Numerals

How numbers are written: in base 16 with lower or upper case digits, padded with zeros, with the sign
counted in the width, and bytes as pairs of digits.

* `length_byte`, `length_bytes` — a byte takes two characters, so a block of bytes takes twice its length.
* `readBytes?_bytes` — reading the digits of a block of bytes gives the block back.
-/

set_option autoImplicit false

namespace Chip8.Numeral

/-- The base 16 digits of a number, in lower case, most significant first, without leading zeros. -/
def lower (n : Nat) : List Char := Nat.toDigits 16 n

/-- The base 16 digits of a number, in upper case, most significant first, without leading zeros. -/
def upper (n : Nat) : List Char := (Nat.toDigits 16 n).map Char.toUpper

/-- Upper case base 16 with at least `width` characters: zeros fill up, and a minus sign stands first
and takes one of the places. -/
def padded (width : Nat) : Int → List Char
  | .ofNat n => (upper n).leftpad width '0'
  | .negSucc n => '-' :: (upper (n + 1)).leftpad (width - 1) '0'

/-- A padded base 16 numeral after the mark `0x`, which stands before the sign. -/
def marked (width : Nat) (value : Int) : String := String.ofList ('0' :: 'x' :: padded width value)

/-! ## Bytes -/

/-- A byte as two lower case digits. -/
def byte (b : UInt8) : List Char := [Nat.digitChar (b.toNat / 16), Nat.digitChar (b.toNat % 16)]

/-- A block of bytes, two digits each, without separators. -/
def bytes (bs : List UInt8) : List Char := bs.flatMap byte

@[simp] theorem length_byte (b : UInt8) : (byte b).length = 2 := rfl

@[simp] theorem bytes_cons (b : UInt8) (bs : List UInt8) : bytes (b :: bs) = byte b ++ bytes bs := rfl

@[simp] theorem length_bytes (bs : List UInt8) : (bytes bs).length = 2 * bs.length := by
  induction bs with
  | nil => rfl
  | cons b bs ih =>
    rw [bytes_cons, List.length_append, length_byte, ih, List.length_cons]
    omega

/-- The value of a base 16 digit of either case. -/
def digitValue? (c : Char) : Option Nat :=
  if '0' ≤ c ∧ c ≤ '9' then some (c.toNat - '0'.toNat)
  else if 'a' ≤ c ∧ c ≤ 'f' then some (c.toNat - 'a'.toNat + 10)
  else if 'A' ≤ c ∧ c ≤ 'F' then some (c.toNat - 'A'.toNat + 10)
  else none

/-- The block of bytes written as pairs of digits; nothing if a digit is missing or is none. -/
def readBytes? : List Char → Option (List UInt8)
  | [] => some []
  | [_] => none
  | hi :: lo :: rest =>
    match digitValue? hi, digitValue? lo, readBytes? rest with
    | some h, some l, some bs => some (UInt8.ofNat (16 * h + l) :: bs)
    | _, _, _ => none

theorem digitValue?_digitChar {d : Nat} (h : d < 16) : digitValue? (Nat.digitChar d) = some d := by
  have all : ∀ i : Fin 16, digitValue? (Nat.digitChar i) = some i.val := by decide
  exact all ⟨d, h⟩

theorem readBytes?_bytes (bs : List UInt8) : readBytes? (bytes bs) = some bs := by
  induction bs with
  | nil => rfl
  | cons b bs ih =>
    have hb := b.toNat_lt
    simp only [bytes_cons, byte, List.cons_append, List.nil_append, readBytes?,
      digitValue?_digitChar (show b.toNat / 16 < 16 by omega),
      digitValue?_digitChar (show b.toNat % 16 < 16 by omega), ih]
    rw [show 16 * (b.toNat / 16) + b.toNat % 16 = b.toNat by omega]
    simp

/-! ## Lists of words -/

/-- Words as lower case numerals of at least two digits, joined by bars. -/
def barred (words : List Nat) : String :=
  "|".intercalate (words.map fun w => String.ofList ((lower w).leftpad 2 '0'))

end Chip8.Numeral
