import Doip.Octets
import Doip.Text.Numeral
import Doip.Text.Quoted

/-! # Octets as hexadecimal text

Two digits an octet, the upper four bits first. Writing uses one case
throughout; reading takes either case and is undone by writing up to case.
Lengths and positions count the octets of the text in UTF-8. -/
namespace Doip.Hex
open Text

/-- Why a text is not the hexadecimal form of octets. -/
inductive ReadError where
  | oddLength
  /-- The first character that is no digit, by its first octet, and where it stands. -/
  | badDigit (shown : Char) (position : Nat)
deriving DecidableEq, Repr

def ReadError.message : ReadError → String
  | .oddLength => "Odd number of digits"
  | .badDigit c position => "Invalid character " ++ quoteChar c ++ " at position " ++ toString position

/-- The first octet of the UTF-8 form of `c`, as the character of that number. -/
def leadOctet (c : Char) : Char :=
  let n := c.toNat
  if n < 0x80 then c
  else if n < 0x800 then Char.ofNat (0xC0 + n / 0x40)
  else if n < 0x10000 then Char.ofNat (0xE0 + n / 0x1000)
  else Char.ofNat (0xF0 + n / 0x40000)

/-- How many octets the text takes in UTF-8. -/
def utf8Length (cs : List Char) : Nat := cs.foldl (fun n c => n + c.utf8Size) 0

/-- Reads pairs of digits; `position` is how many digits were read before. -/
def readPairs : Nat → List Char → Except ReadError Octets
  | _, [] => .ok []
  | position, [c] =>
    match digitValue? c with
    | none => .error (.badDigit (leadOctet c) position)
    | some _ => .error .oddLength
  | position, a :: b :: rest =>
    match digitValue? a with
    | none => .error (.badDigit (leadOctet a) position)
    | some x =>
      match digitValue? b with
      | none => .error (.badDigit (leadOctet b) (position + 1))
      | some y =>
        match readPairs (position + 2) rest with
        | .error e => .error e
        | .ok octets => .ok (UInt8.ofNat (x * 16 + y) :: octets)

/-- Reads a whole text; an odd length wins over a bad digit. -/
def readChars (cs : List Char) : Except ReadError Octets :=
  if utf8Length cs % 2 = 1 then .error .oddLength else readPairs 0 cs

def read (s : String) : Except ReadError Octets := readChars s.toList

/-- The digits of the octets, each digit by `digit`. -/
def writeChars (digit : Nat → Char) (octets : Octets) : List Char :=
  octets.flatMap fun b => [digit (b.toNat / 16), digit (b.toNat % 16)]

/-- Lower-case hexadecimal text. -/
def writeLower (octets : Octets) : String := String.ofList (writeChars lowerDigit octets)

/-- Upper-case hexadecimal text. -/
def writeUpper (octets : Octets) : String := String.ofList (writeChars upperDigit octets)

end Doip.Hex
