import Doip.Text.Numeral

/-! # What can be wrong with octets from the wire

A fault in a generic header leaves the byte stream out of step; a fault in a
payload concerns the one message only. -/
namespace Doip
open Text

inductive WireError where
  /-- The version octet and the one after it do not complement each other. -/
  | invalidVersion (version inverse : UInt8)
  | payloadTooLarge (length limit : UInt32)
  | truncated (payloadType : UInt16) (expected actual : Nat)
  | unknownActivationType (value : UInt8)
deriving DecidableEq, Repr

namespace WireError

def message : WireError → String
  | invalidVersion version inverse =>
    "Invalid protocol version pattern: 0x" ++ hex2 version ++ "/0x" ++ hex2 inverse
  | payloadTooLarge length limit =>
    "Payload length " ++ toString length.toNat ++ " exceeds limit of " ++ toString limit.toNat ++
      " bytes"
  | truncated payloadType expected actual =>
    "Payload type 0x" ++ hex4 payloadType ++ " needs at least " ++ toString expected ++
      " bytes, got " ++ toString actual
  | unknownActivationType value => "Unknown activation type 0x" ++ hex2 value

/-- Whether the fault is in a generic header. -/
def isHeaderError : WireError → Bool
  | invalidVersion .. | payloadTooLarge .. => true
  | truncated .. | unknownActivationType .. => false

end WireError
end Doip
