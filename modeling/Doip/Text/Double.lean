import Doip.Rounding

/-! # Decimal numerals as doubles

A number written with digits, a point and an exponent is read as the double nearest to
it, of two equally near ones the one with an even last bit (IEEE 754). Doubles are
given by their bits. -/
namespace Doip.Text

inductive DoubleError where
  | noText
  | badText
deriving DecidableEq, Repr

/-- The usual wording of the error. -/
def DoubleError.message : DoubleError → String
  | .noText => "cannot parse float from empty string"
  | .badText => "invalid float literal"

/-- The greatest power of two that is at most `num / den`, as its exponent. -/
def floorLog (num den : Nat) : Int :=
  let guess : Int := (num.log2 : Int) - (den.log2 : Int)
  if num * Nat.pow 2 (-guess).toNat < den * Nat.pow 2 guess.toNat then guess - 1 else guess

def infinityBits : Nat := 0x7FF0000000000000

/-- The bits of the double nearest to the positive quotient `num / den`. -/
def nearestDouble (num den : Nat) : Nat :=
  let e : Int := max (floorLog num den - 52) (-1074)
  let m := roundHalfEven (num * Nat.pow 2 (-e).toNat) (den * Nat.pow 2 e.toNat)
  min ((e + 1074).toNat * Nat.pow 2 52 + m) infinityBits

/-- The bits of the double nearest to `digits * 10 ^ exponent`. What is far out of range is
settled without computing the power. -/
def decimalDouble (digits : Nat) (exponent : Int) : Nat :=
  if digits = 0 then 0
  else
    let magnitude : Int := (Nat.toDigits 10 digits).length + exponent
    if 400 < magnitude then infinityBits
    else if magnitude < -400 then 0
    else nearestDouble (digits * Nat.pow 10 exponent.toNat) (Nat.pow 10 (-exponent).toNat)

/-- The digits at the front of a text, and the rest. -/
def spanDigits (cs : List Char) : List Char × List Char :=
  (cs.takeWhile Char.isDigit, cs.dropWhile Char.isDigit)

def digitsValue (digits : List Char) : Nat :=
  digits.foldl (fun n c => n * 10 + (c.toNat - 48)) 0

/-- The exponent at the end of a numeral; zero if there is none. -/
def readExponent? : List Char → Option Int
  | [] => some 0
  | c :: rest =>
    if c = 'e' ∨ c = 'E' then
      let (sign, digits) : Int × List Char := match rest with
        | '-' :: digits => (-1, digits)
        | '+' :: digits => (1, digits)
        | digits => (1, digits)
      if digits = [] ∨ !digits.all Char.isDigit then none else some (sign * digitsValue digits)
    else none

/-- Reads a numeral without a sign. -/
def readUnsignedDouble? (cs : List Char) : Option Nat :=
  let word := cs.map Char.toLower
  if word = "inf".toList ∨ word = "infinity".toList then some infinityBits
  else if word = "nan".toList then some (infinityBits + Nat.pow 2 51)
  else
    let (whole, rest) := spanDigits cs
    let (fraction, rest) := match rest with
      | '.' :: rest => spanDigits rest
      | rest => ([], rest)
    if whole = [] ∧ fraction = [] then none
    else (readExponent? rest).map fun exponent =>
      decimalDouble (digitsValue (whole ++ fraction)) (exponent - fraction.length)

/-- Reads a whole text as the bits of a double. -/
def readDouble (s : String) : Except DoubleError UInt64 :=
  let negate (bits : Nat) : Nat := bits + Nat.pow 2 63
  let result := match s.toList with
    | '-' :: cs => (readUnsignedDouble? cs).map negate
    | '+' :: cs => readUnsignedDouble? cs
    | cs => readUnsignedDouble? cs
  match result with
  | some bits => .ok (UInt64.ofNat bits)
  | none => .error (if s = "" then .noText else .badText)

end Doip.Text
