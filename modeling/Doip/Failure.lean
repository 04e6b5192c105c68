import Doip.Message

/-! # How an operation of the client fails

Each failure has a number that callers in other processes compare with, and a
message. The failures that end a session are told apart from the ones that
concern a single exchange. -/
namespace Doip
open Text

/-- The stable numbers of failures; success and two reserved causes have one too. -/
inductive FailureCode where
  | ok
  | invalidArgument
  | connectFailed
  | unexpectedResponse
  | io
  | convertError
  | invalidClientLogicalAddr
  | internalError
  | parseError
  | diagnosticMessageNegativeAck
  | routingActivationDenied
  | routingActivationWithDifferentClientAddress
  | eof
  | timeout
  | nullPointerPassed
deriving DecidableEq, Repr

namespace FailureCode

/-- All codes in the order of their numbers, which start at zero. -/
def all : List FailureCode :=
  [ok, invalidArgument, connectFailed, unexpectedResponse, io, convertError,
    invalidClientLogicalAddr, internalError, parseError, diagnosticMessageNegativeAck,
    routingActivationDenied, routingActivationWithDifferentClientAddress, eof, timeout,
    nullPointerPassed]

def number : FailureCode → UInt8
  | ok => 0
  | invalidArgument => 1
  | connectFailed => 2
  | unexpectedResponse => 3
  | io => 4
  | convertError => 5
  | invalidClientLogicalAddr => 6
  | internalError => 7
  | parseError => 8
  | diagnosticMessageNegativeAck => 9
  | routingActivationDenied => 10
  | routingActivationWithDifferentClientAddress => 11
  | eof => 12
  | timeout => 13
  | nullPointerPassed => 14

def name : FailureCode → String
  | ok => "Ok"
  | invalidArgument => "InvalidArgument"
  | connectFailed => "ConnectFailed"
  | unexpectedResponse => "UnexpectedResponse"
  | io => "Io"
  | convertError => "ConvertError"
  | invalidClientLogicalAddr => "InvalidClientLogicalAddr"
  | internalError => "InternalError"
  | parseError => "ParseError"
  | diagnosticMessageNegativeAck => "DiagnosticMessageNegativeAck"
  | routingActivationDenied => "RoutingActivationDenied"
  | routingActivationWithDifferentClientAddress => "RoutingActivationWithDifferentClientAddress"
  | eof => "Eof"
  | timeout => "Timeout"
  | nullPointerPassed => "NullPointerPassed"

def text (c : FailureCode) : String := c.name ++ " (" ++ toString c.number.toNat ++ ")"

end FailureCode

inductive Failure where
  /-- Refused before anything was sent. -/
  | invalidArgument (reason : String)
  /-- No connection, or none any more. -/
  | connectFailed (reason : String)
  | unexpectedResponse (reason : String)
  | io (reason : String)
  | convert (reason : String)
  | internal (reason : String)
  /-- The gateway sent octets that cannot be read. -/
  | parse (reason : String)
  | negativeAck (code : NackCode)
  | activationDenied (code : ActivationCode)
  /-- Routing was activated for another tester. -/
  | activationMismatch (expected actual : Address)
  /-- The gateway closed the connection. -/
  | endOfStream
  | timeout
deriving DecidableEq, Repr

namespace Failure

def code : Failure → FailureCode
  | invalidArgument _ => .invalidArgument
  | connectFailed _ => .connectFailed
  | unexpectedResponse _ => .unexpectedResponse
  | io _ => .io
  | convert _ => .convertError
  | internal _ => .internalError
  | parse _ => .parseError
  | negativeAck _ => .diagnosticMessageNegativeAck
  | activationDenied _ => .routingActivationDenied
  | activationMismatch .. => .routingActivationWithDifferentClientAddress
  | endOfStream => .eof
  | timeout => .timeout

def message : Failure → String
  | invalidArgument reason => "Invalid argument: " ++ reason
  | connectFailed reason => "Connect failed: " ++ reason
  | unexpectedResponse reason => "Unexpected response: " ++ reason
  | io reason => "I/O error: " ++ reason
  | convert reason => "Conversion error: " ++ reason
  | internal reason => "Internal error: " ++ reason
  | parse reason => "Parse error: " ++ reason
  | negativeAck code => "Diagnostic message negative acknowledge: " ++ code.text
  | activationDenied code => "Routing activation denied: " ++ code.text
  | activationMismatch expected actual =>
    "Routing activation answered for client 0x" ++ hex4 actual ++ ", expected 0x" ++ hex4 expected
  | endOfStream => "Connection closed by peer"
  | timeout => "Operation timed out"

/-- Whether the session is of no more use after this failure. -/
def isTerminal : Failure → Bool
  | io _ | endOfStream | connectFailed _ => true
  | _ => false

/-- A request that comes after the engine has stopped. -/
def engineStopped : Failure := connectFailed "background engine is not running"

/-- The failure behind a fault on the wire. -/
def ofWireError (e : WireError) : Failure := parse e.message

end Failure

/-- What a socket reports when it fails. -/
structure SocketError where
  /-- Whether the stream ended where more was due. -/
  endedEarly : Bool
  text : String
deriving DecidableEq, Repr

def Failure.ofSocketError (e : SocketError) : Failure :=
  if e.endedEarly then .endOfStream else .io e.text

/-- Reads a failure number. -/
def FailureCode.ofNumber (value : UInt8) : Except Failure FailureCode :=
  match all[value.toNat]? with
  | some code => .ok code
  | none => .error (.convert ("no error code with value " ++ toString value.toNat))

end Doip
