import Doip.Text.Numeral
import Doip.Toml.Lexical

/-! # Numbers

Integers are decimal with an optional sign, or hexadecimal, octal or binary without
one, and fit into 64 bits. Floats have a fraction or an exponent and must not exceed
what a double can hold. Single underscores may stand between digits. -/
namespace Doip.Toml
open Text

def isDigit (c : Char) : Bool := decide ('0' ≤ c ∧ c ≤ '9')

/-- Further digits; an underscore must have a digit after it. -/
def digitTail (digit : Char → Bool) : Reader (List Char)
  | [] => some ([], [])
  | ['_'] => none
  | '_' :: c :: rest =>
    if digit c then (digitTail digit rest).map fun (cs, after) => (c :: cs, after) else none
  | c :: rest =>
    if digit c then (digitTail digit rest).map fun (cs, after) => (c :: cs, after)
    else some ([], c :: rest)

/-- One or more digits with single underscores between them, the underscores left out. -/
def digitRun (digit : Char → Bool) : Reader (List Char)
  | [] => none
  | c :: rest =>
    if digit c then (digitTail digit rest).map fun (cs, after) => (c :: cs, after) else none

/-- The value of digits in a radix. -/
def digitsValue (radix : Nat) (digits : List Char) : Nat :=
  digits.foldl (fun n c => n * radix + (digitValue? c).getD 0) 0

/-- Whether a minus sign was read, and the rest; a plus sign may stand in its place. -/
def readSign : List Char → Bool × List Char
  | '-' :: rest => (true, rest)
  | '+' :: rest => (false, rest)
  | cs => (false, cs)

/-- Decimal digits without leading zeros. -/
def decimalDigits : Reader (List Char)
  | '0' :: rest => some (['0'], rest)
  | cs => digitRun isDigit cs

/-- The greatest integer there is. -/
def maxInteger : Nat := 9223372036854775807

/-- The integer of a sign and a magnitude, if 64 bits hold it. -/
def integerOf? (negative : Bool) (magnitude : Nat) : Option Int :=
  if negative then
    if magnitude ≤ maxInteger + 1 then some (-(magnitude : Int)) else none
  else if magnitude ≤ maxInteger then some (magnitude : Int) else none

/-- Digits of a radix after its mark. -/
def readRadix (radix : Nat) (cs : List Char) : Option (Int × List Char) := do
  let (digits, rest) ← digitRun (fun c => (digitIn? radix c).isSome) cs
  let n ← integerOf? false (digitsValue radix digits)
  return (n, rest)

def readDecimal (cs : List Char) : Option (Int × List Char) := do
  let (negative, unsigned) := readSign cs
  let (digits, rest) ← decimalDigits unsigned
  let n ← integerOf? negative (digitsValue 10 digits)
  return (n, rest)

def readInteger : Reader Int
  | '0' :: 'x' :: rest => readRadix 16 rest
  | '0' :: 'o' :: rest => readRadix 8 rest
  | '0' :: 'b' :: rest => readRadix 2 rest
  | cs => readDecimal cs

/-- The digits of a fraction, if a point stands here; none is read otherwise. -/
def readFraction : Reader (Option (List Char))
  | '.' :: rest => (digitRun isDigit rest).map fun (digits, after) => (some digits, after)
  | cs => some (none, cs)

/-- The exponent, if a mark for it stands here; none is read otherwise. -/
def readExponent : Reader (Option Int)
  | c :: rest =>
    if c = 'e' ∨ c = 'E' then
      let (negative, unsigned) := readSign rest
      (digitRun isDigit unsigned).map fun (digits, after) =>
        let n : Int := digitsValue 10 digits
        (some (if negative then -n else n), after)
    else some (none, c :: rest)
  | [] => some (none, [])

/-- The least magnitude that rounds to infinity as a double: 2^1024 - 2^970. -/
def overflowBound : Nat := Nat.pow 2 1024 - Nat.pow 2 970

/-- Whether `digits * 10 ^ exponent` is too large for a double. Exponents far out are decided by
the number of digits alone. -/
def overflows (digits : Nat) (exponent : Int) : Bool :=
  let scale : Int := (Nat.toDigits 10 digits).length + exponent
  if digits = 0 then false
  else if 400 < scale then true
  else if scale < 0 then false
  else if 0 ≤ exponent then decide (overflowBound ≤ digits * Nat.pow 10 exponent.toNat)
  else decide (overflowBound * Nat.pow 10 (-exponent).toNat ≤ digits)

/-- A float with a fraction or an exponent. Only upward overflow is refused. -/
def readDecimalFloat (cs : List Char) : Option (Unit × List Char) := do
  let (negative, unsigned) := readSign cs
  let (whole, rest) ← decimalDigits unsigned
  let (fraction, rest) ← readFraction rest
  let (exponent, rest) ← readExponent rest
  if fraction.isNone ∧ exponent.isNone then none
  else
    let places := fraction.getD []
    let value := digitsValue 10 (whole ++ places)
    if !negative && overflows value (exponent.getD 0 - places.length) then none
    else some ((), rest)

/-- Infinity and not-a-number, with an optional sign. -/
def readSpecialFloat (cs : List Char) : Option (Unit × List Char) :=
  match (readSign cs).2 with
  | 'i' :: 'n' :: 'f' :: rest => some ((), rest)
  | 'n' :: 'a' :: 'n' :: rest => some ((), rest)
  | _ => none

def readFloat (cs : List Char) : Option (Unit × List Char) :=
  (readDecimalFloat cs).orElse fun _ => readSpecialFloat cs

end Doip.Toml
