import Doip.Octets
import Doip.WireError

/-! # The generic header

Eight octets in front of every payload: the protocol version, its complement,
the payload type and the payload length. -/
namespace Doip

structure Header where
  version : UInt8
  payloadType : UInt16
  payloadLength : UInt32
deriving DecidableEq, Repr

namespace Header

/-- How many octets a header takes. -/
def size : Nat := 8

def encode (h : Header) : Octets :=
  h.version :: ~~~h.version :: octets16 h.payloadType ++ octets32 h.payloadLength

@[simp] theorem length_encode (h : Header) : h.encode.length = size := rfl

/-- Reads the header at the front of `octets`; `none` when it is not complete. -/
def parse? : Octets → Option (Except WireError Header)
  | version :: inverse :: t1 :: t0 :: l3 :: l2 :: l1 :: l0 :: _ =>
    if inverse = ~~~version then
      some (.ok ⟨version, word16 t1 t0, word32 l3 l2 l1 l0⟩)
    else some (.error (.invalidVersion version inverse))
  | _ => none

theorem parse?_encode (h : Header) (rest : Octets) :
    parse? (h.encode ++ rest) = some (.ok h) := by
  simp [encode, octets16, octets32, parse?, word16_octets16, word32_octets32]

end Header

/-- ISO 13400-2:2012. -/
def defaultProtocolVersion : UInt8 := 0x02

/-- The longest payload accepted unless set otherwise. -/
def defaultPayloadLimit : UInt32 := 0x00400000

end Doip
