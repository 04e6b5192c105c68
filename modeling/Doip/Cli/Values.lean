import Doip.Message
import Doip.Octets.Hex
import Doip.Text.Blank

/-! # Values on the command line

How addresses, levels and payloads are read from text, and how a text that is none is
reported. -/
namespace Doip.Cli
open Text

/-- What is left after all of the leading `pair`s. -/
def dropPairs (a b : Char) : List Char → List Char
  | x :: y :: rest => if x = a ∧ y = b then dropPairs a b rest else x :: y :: rest
  | cs => cs

/-- The digits of an address: blanks around it and any number of leading `0x`, then `0X`, do not
count. -/
def addressDigits (cs : List Char) : List Char :=
  dropPairs '0' 'X' (dropPairs '0' 'x' (trimChars cs))

/-- Reads a logical address or data identifier in hexadecimal. -/
def parseAddress (s : String) : Except String UInt16 :=
  match readNumeral 16 65535 (addressDigits s.toList) with
  | .ok n => .ok (.ofNat n)
  | .error e => .error ("invalid hex address '" ++ s ++ "': " ++ e.message)

/-- The value of a level: hexadecimal after `0x` or `0X`, decimal otherwise. -/
def readLevel : List Char → Except NumeralError Nat
  | '0' :: 'x' :: digits => readNumeral 16 255 digits
  | '0' :: 'X' :: digits => readNumeral 16 255 digits
  | digits => readNumeral 10 255 digits

/-- Reads a service level; blanks around it do not count. -/
def parseLevel (s : String) : Except String UInt8 :=
  match readLevel (trimChars s.toList) with
  | .ok n => .ok (.ofNat n)
  | .error e => .error ("invalid security level '" ++ trim s ++ "': " ++ e.message)

/-- Why a text is no payload. -/
inductive PayloadError where
  | notHex (text : String) (cause : Hex.ReadError)
  | empty
deriving DecidableEq, Repr

/-- Reads octets in hexadecimal, one at least; blanks do not count wherever they stand. -/
def parseHex (s : String) : Except PayloadError Octets :=
  match Hex.readChars (s.toList.filter fun c => !isBlank c) with
  | .error cause => .error (.notHex s cause)
  | .ok [] => .error .empty
  | .ok octets => .ok octets

end Doip.Cli
