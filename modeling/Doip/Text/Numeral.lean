/-! # Unsigned numerals

Reading a numeral of a given radix into a bounded number. A numeral is an
optional plus sign and one or more digits; leading zeros are allowed. Of two
faults the one that stands further left is reported. -/
namespace Doip.Text

/-- Why a text is no numeral within its bound. -/
inductive NumeralError where
  | noDigits
  | badDigit
  | tooLarge
deriving DecidableEq, Repr

/-- The usual wording of the error. -/
def NumeralError.message : NumeralError → String
  | .noDigits => "cannot parse integer from empty string"
  | .badDigit => "invalid digit found in string"
  | .tooLarge => "number too large to fit in target type"

/-- The value of a digit in the largest radix used, sixteen, in either case. -/
def digitValue? (c : Char) : Option Nat :=
  if '0' ≤ c ∧ c ≤ '9' then some (c.toNat - 48)
  else if 'a' ≤ c ∧ c ≤ 'f' then some (c.toNat - 87)
  else if 'A' ≤ c ∧ c ≤ 'F' then some (c.toNat - 55)
  else none

/-- The value of a digit in `radix`, at most sixteen. -/
def digitIn? (radix : Nat) (c : Char) : Option Nat :=
  (digitValue? c).filter (· < radix)

/-- Reads digits on top of the value read so far; the value stays at most `max`. -/
def readDigits (radix max : Nat) : Nat → List Char → Except NumeralError Nat
  | value, [] => .ok value
  | value, c :: rest =>
    match digitIn? radix c with
    | none => .error .badDigit
    | some d =>
      if value * radix + d ≤ max then readDigits radix max (value * radix + d) rest
      else .error .tooLarge

/-- Reads a whole text as a numeral of at most `max`. A sign alone is a bad digit. -/
def readNumeral (radix max : Nat) : List Char → Except NumeralError Nat
  | [] => .error .noDigits
  | '+' :: c :: rest => readDigits radix max 0 (c :: rest)
  | cs => readDigits radix max 0 cs

/-- The digit of a value below sixteen, in upper case. -/
def upperDigit (n : Nat) : Char := if n < 10 then Char.ofNat (48 + n) else Char.ofNat (55 + n)

/-- The digit of a value below sixteen, in lower case. -/
def lowerDigit (n : Nat) : Char := if n < 10 then Char.ofNat (48 + n) else Char.ofNat (87 + n)

/-- Two upper-case hexadecimal digits. -/
def hex2 (v : UInt8) : String :=
  String.ofList [upperDigit (v.toNat / 16), upperDigit (v.toNat % 16)]

/-- Four upper-case hexadecimal digits. -/
def hex4 (v : UInt16) : String :=
  String.ofList [upperDigit (v.toNat / 4096), upperDigit (v.toNat / 256 % 16),
    upperDigit (v.toNat / 16 % 16), upperDigit (v.toNat % 16)]

end Doip.Text
