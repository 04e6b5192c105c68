import Doip.Octets
import Doip.Text.Numeral

/-! # Negative responses of diagnostic services

The data of a diagnostic message is a request to a service or its answer
(ISO 14229-1). Of answers only the negative ones matter here, and of those the
one that announces a later answer. -/
namespace Doip
open Text

/-- The reasons for a negative response that have a name. -/
inductive ResponseCode where
  | generalReject
  | serviceNotSupported
  | subFunctionNotSupported
  | incorrectMessageLengthOrFormat
  | busyRepeatRequest
  | conditionsNotCorrect
  | requestSequenceError
  | requestOutOfRange
  | securityAccessDenied
  | invalidKey
  | exceededNumberOfAttempts
  | requiredTimeDelayNotExpired
  | responsePending
  | subFunctionNotSupportedInActiveSession
  | serviceNotSupportedInActiveSession
  | unknown (value : UInt8)
deriving DecidableEq, Repr

namespace ResponseCode

def ofValue (value : UInt8) : ResponseCode :=
  match value with
  | 0x10 => generalReject
  | 0x11 => serviceNotSupported
  | 0x12 => subFunctionNotSupported
  | 0x13 => incorrectMessageLengthOrFormat
  | 0x21 => busyRepeatRequest
  | 0x22 => conditionsNotCorrect
  | 0x24 => requestSequenceError
  | 0x31 => requestOutOfRange
  | 0x33 => securityAccessDenied
  | 0x35 => invalidKey
  | 0x36 => exceededNumberOfAttempts
  | 0x37 => requiredTimeDelayNotExpired
  | 0x78 => responsePending
  | 0x7E => subFunctionNotSupportedInActiveSession
  | 0x7F => serviceNotSupportedInActiveSession
  | other => unknown other

def value : ResponseCode → UInt8
  | generalReject => 0x10
  | serviceNotSupported => 0x11
  | subFunctionNotSupported => 0x12
  | incorrectMessageLengthOrFormat => 0x13
  | busyRepeatRequest => 0x21
  | conditionsNotCorrect => 0x22
  | requestSequenceError => 0x24
  | requestOutOfRange => 0x31
  | securityAccessDenied => 0x33
  | invalidKey => 0x35
  | exceededNumberOfAttempts => 0x36
  | requiredTimeDelayNotExpired => 0x37
  | responsePending => 0x78
  | subFunctionNotSupportedInActiveSession => 0x7E
  | serviceNotSupportedInActiveSession => 0x7F
  | unknown v => v

/-- The name of the code; all codes without one share a name. -/
def name : ResponseCode → String
  | generalReject => "GeneralReject"
  | serviceNotSupported => "ServiceNotSupported"
  | subFunctionNotSupported => "SubFunctionNotSupported"
  | incorrectMessageLengthOrFormat => "IncorrectMessageLengthOrFormat"
  | busyRepeatRequest => "BusyRepeatRequest"
  | conditionsNotCorrect => "ConditionsNotCorrect"
  | requestSequenceError => "RequestSequenceError"
  | requestOutOfRange => "RequestOutOfRange"
  | securityAccessDenied => "SecurityAccessDenied"
  | invalidKey => "InvalidKey"
  | exceededNumberOfAttempts => "ExceededNumberOfAttempts"
  | requiredTimeDelayNotExpired => "RequiredTimeDelayNotExpired"
  | responsePending => "ResponsePending"
  | subFunctionNotSupportedInActiveSession => "SubFunctionNotSupportedInActiveSession"
  | serviceNotSupportedInActiveSession => "ServiceNotSupportedInActiveSession"
  | unknown _ => "Unknown"

def text : ResponseCode → String
  | generalReject => "General reject"
  | serviceNotSupported => "Service not supported"
  | subFunctionNotSupported => "Sub-function not supported"
  | incorrectMessageLengthOrFormat => "Incorrect message length or format"
  | busyRepeatRequest => "Busy, repeat request"
  | conditionsNotCorrect => "Conditions not correct"
  | requestSequenceError => "Request sequence error"
  | requestOutOfRange => "Request out of range"
  | securityAccessDenied => "Security access denied"
  | invalidKey => "Invalid key"
  | exceededNumberOfAttempts => "Exceeded number of attempts"
  | requiredTimeDelayNotExpired => "Required time delay not expired"
  | responsePending => "Response pending"
  | subFunctionNotSupportedInActiveSession => "Sub-function not supported in active session"
  | serviceNotSupportedInActiveSession => "Service not supported in active session"
  | unknown v => "Unknown NRC 0x" ++ hex2 v

end ResponseCode

/-- A service's refusal of a request. -/
structure NegativeResponse where
  service : UInt8
  code : ResponseCode
deriving DecidableEq, Repr

/-- A negative response is 7F, the service refused and the reason; more may follow. -/
def NegativeResponse.parse? : Octets → Option NegativeResponse
  | sid :: service :: code :: _ =>
    if sid = 0x7F then some ⟨service, ResponseCode.ofValue code⟩ else none
  | _ => none

/-- Whether the data only says that the answer is still to come. -/
def isResponsePending (data : Octets) : Bool :=
  match NegativeResponse.parse? data with
  | some r => r.code == .responsePending
  | none => false

/-- The user data of a diagnostic message's frame: what follows header and addresses. -/
def userData (frame : Octets) : Octets := frame.drop 12

/-- The source address in a diagnostic message's frame. -/
def frameSource? (frame : Octets) : Option UInt16 :=
  match frame.drop 8 with
  | hi :: lo :: _ => some (word16 hi lo)
  | _ => none

end Doip
