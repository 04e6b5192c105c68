import Doip.Rounding
import Doip.Time

/-! # Seconds as a binary fraction

A timeout given as a double-precision number of seconds. The number is read from
its bits exactly and rounded to the nearest nanosecond, a tie to the even one. -/
namespace Doip.Seconds

/-- The parts of a finite double: its value is `mantissa * 2 ^ (exponent - 1074)`, negated
when `negative`. -/
structure Parts where
  negative : Bool
  mantissa : Nat
  exponent : Nat
deriving DecidableEq, Repr

/-- The parts of the double with these bits; none for an infinity or what is no number. -/
def Parts.ofBits? (bits : UInt64) : Option Parts :=
  let n := bits.toNat
  let negative := decide (9223372036854775808 ≤ n)
  let biased := n / 4503599627370496 % 2048
  let fraction := n % 4503599627370496
  if biased = 2047 then none
  else if biased = 0 then some ⟨negative, fraction, 0⟩
  else some ⟨negative, 4503599627370496 + fraction, biased - 1⟩

/-- The duration of a number of seconds, given by its bits. None for what is not finite, for
a number below zero, and for 2^64 seconds and more. -/
def toDuration? (bits : UInt64) : Option Duration :=
  match Parts.ofBits? bits with
  | none => none
  | some p =>
    if p.mantissa = 0 then some Duration.zero
    else if p.negative then none
    else Duration.ofNanos?
        (roundHalfEven (p.mantissa * Nat.pow 2 p.exponent * nanosPerSecond) (Nat.pow 2 1074))

end Doip.Seconds
