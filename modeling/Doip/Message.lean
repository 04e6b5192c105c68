import Doip.Octets
import Doip.Message.Codes

/-! # Messages

The payloads a tester and a gateway exchange, each with its payload type and its
octets (ISO 13400-2, table 17). Reading what was written gives the message back,
and a payload that is too short for its type is refused with the length needed. -/
namespace Doip

/-- A logical address of a tester, a gateway or an ECU. -/
abbrev Address := UInt16

/-- User data from one logical address to another. -/
structure Diagnostic where
  source : Address
  target : Address
  data : Octets
deriving DecidableEq, Repr

/-- The acknowledgement of a diagnostic message, positive or negative. -/
structure Acknowledgement where
  source : Address
  target : Address
  code : UInt8
  /-- An echo of the acknowledged message, possibly empty. -/
  previous : Octets
deriving DecidableEq, Repr

structure ActivationRequest where
  source : Address
  type : ActivationType
deriving DecidableEq, Repr

structure ActivationResponse where
  /-- The tester's address as the gateway understood it. -/
  tester : Address
  entity : Address
  code : ActivationCode
  oem : Option UInt32
deriving DecidableEq, Repr

inductive Message where
  | genericNack (code : UInt8)
  | activationRequest (request : ActivationRequest)
  | activationResponse (response : ActivationResponse)
  | aliveCheckRequest
  | aliveCheckResponse (source : Address)
  | diagnostic (message : Diagnostic)
  | positiveAck (ack : Acknowledgement)
  | negativeAck (ack : Acknowledgement)
  /-- A payload of a type that has no meaning here. -/
  | unsupported (payloadType : UInt16) (data : Octets)
deriving DecidableEq, Repr

/-- The payload types that have a meaning here, and the rest. -/
inductive PayloadKind where
  | genericNack
  | activationRequest
  | activationResponse
  | aliveCheckRequest
  | aliveCheckResponse
  | diagnostic
  | positiveAck
  | negativeAck
  | unsupported
deriving DecidableEq, Repr

namespace PayloadKind

def ofCode (t : UInt16) : PayloadKind :=
  if t = 0x0000 then genericNack
  else if t = 0x0005 then activationRequest
  else if t = 0x0006 then activationResponse
  else if t = 0x0007 then aliveCheckRequest
  else if t = 0x0008 then aliveCheckResponse
  else if t = 0x8001 then diagnostic
  else if t = 0x8002 then positiveAck
  else if t = 0x8003 then negativeAck
  else unsupported

/-- The fewest octets that a payload of this kind can have. -/
def minLength : PayloadKind → Nat
  | genericNack => 1
  | activationRequest => 7
  | activationResponse => 9
  | aliveCheckRequest => 0
  | aliveCheckResponse => 2
  | diagnostic => 4
  | positiveAck | negativeAck => 5
  | unsupported => 0

end PayloadKind

namespace Message

def payloadType : Message → UInt16
  | genericNack _ => 0x0000
  | activationRequest _ => 0x0005
  | activationResponse _ => 0x0006
  | aliveCheckRequest => 0x0007
  | aliveCheckResponse _ => 0x0008
  | diagnostic _ => 0x8001
  | positiveAck _ => 0x8002
  | negativeAck _ => 0x8003
  | unsupported t _ => t

/-- The payload octets. Reserved fields are written as zeros. -/
def encode : Message → Octets
  | genericNack code => [code]
  | activationRequest r => octets16 r.source ++ r.type.code :: octets32 0
  | activationResponse r =>
    octets16 r.tester ++ octets16 r.entity ++ r.code.value :: octets32 0 ++
      (r.oem.map octets32).getD []
  | aliveCheckRequest => []
  | aliveCheckResponse source => octets16 source
  | diagnostic m => octets16 m.source ++ octets16 m.target ++ m.data
  | positiveAck a | negativeAck a =>
    octets16 a.source ++ octets16 a.target ++ a.code :: a.previous
  | unsupported _ data => data

/-- The refusal of a payload that is shorter than its type requires. -/
def tooShort (t : UInt16) (data : Octets) : WireError :=
  .truncated t (PayloadKind.ofCode t).minLength data.length

/-- The optional word that ends an activation response; up to three octets are no word. -/
def oemField : Octets → Option UInt32
  | a :: b :: c :: d :: _ => some (word32 a b c d)
  | _ => none

/-- The fields that both kinds of acknowledgement share. -/
def acknowledgementOf (t : UInt16) : Octets → Except WireError Acknowledgement
  | s1 :: s0 :: t1 :: t0 :: code :: previous =>
    .ok ⟨word16 s1 s0, word16 t1 t0, code, previous⟩
  | short => .error (tooShort t short)

/-- Reads the payload of type `t`. Octets after the last field are ignored, except
where the last field is the rest of the payload. -/
def decode (t : UInt16) (data : Octets) : Except WireError Message :=
  match PayloadKind.ofCode t with
  | .genericNack =>
    match data with
    | code :: _ => .ok (genericNack code)
    | short => .error (tooShort t short)
  | .activationRequest =>
    match data with
    | s1 :: s0 :: type :: _ :: _ :: _ :: _ :: _ =>
      match ActivationType.ofCode type with
      | .ok type => .ok (activationRequest ⟨word16 s1 s0, type⟩)
      | .error e => .error e
    | short => .error (tooShort t short)
  | .activationResponse =>
    match data with
    | t1 :: t0 :: e1 :: e0 :: code :: _ :: _ :: _ :: _ :: rest =>
      .ok (activationResponse ⟨word16 t1 t0, word16 e1 e0, ⟨code⟩, oemField rest⟩)
    | short => .error (tooShort t short)
  | .aliveCheckRequest => .ok aliveCheckRequest
  | .aliveCheckResponse =>
    match data with
    | s1 :: s0 :: _ => .ok (aliveCheckResponse (word16 s1 s0))
    | short => .error (tooShort t short)
  | .diagnostic =>
    match data with
    | s1 :: s0 :: t1 :: t0 :: rest => .ok (diagnostic ⟨word16 s1 s0, word16 t1 t0, rest⟩)
    | short => .error (tooShort t short)
  | .positiveAck => (acknowledgementOf t data).map positiveAck
  | .negativeAck => (acknowledgementOf t data).map negativeAck
  | .unsupported => .ok (unsupported t data)

end Message
end Doip
