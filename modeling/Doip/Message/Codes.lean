import Doip.WireError

/-! # The codes inside messages: activation types, activation verdicts, refusals -/
namespace Doip
open Text

/-- What a tester asks routing for (ISO 13400-2, table 47). -/
inductive ActivationType where
  | default
  | diagnosticRequiredByRegulation
  | centralSecurity
  | otaMode
deriving DecidableEq, Repr, Inhabited

namespace ActivationType

def code : ActivationType → UInt8
  | default => 0x00
  | diagnosticRequiredByRegulation => 0x01
  | centralSecurity => 0xE0
  | otaMode => 0xE1

def name : ActivationType → String
  | default => "Default"
  | diagnosticRequiredByRegulation => "DiagnosticRequiredByRegulation"
  | centralSecurity => "CentralSecurity"
  | otaMode => "OtaMode"

def ofCode (value : UInt8) : Except WireError ActivationType :=
  if value = 0x00 then .ok default
  else if value = 0x01 then .ok diagnosticRequiredByRegulation
  else if value = 0xE0 then .ok centralSecurity
  else if value = 0xE1 then .ok otaMode
  else .error (.unknownActivationType value)

@[simp] theorem ofCode_code (t : ActivationType) : ofCode t.code = .ok t := by
  cases t <;> rfl

theorem code_of_ofCode {value : UInt8} {t : ActivationType} (h : ofCode value = .ok t) :
    t.code = value := by
  unfold ofCode at h
  repeat' split at h
  all_goals cases h
  all_goals simp_all [code]

theorem ofCode_eq_error_iff {value : UInt8} {e : WireError} :
    ofCode value = .error e ↔
      e = .unknownActivationType value ∧
        value ≠ 0x00 ∧ value ≠ 0x01 ∧ value ≠ 0xE0 ∧ value ≠ 0xE1 := by
  unfold ofCode
  repeat' split
  all_goals simp_all [eq_comm]

end ActivationType

/-- The gateway's verdict on a routing activation (ISO 13400-2, table 48). -/
structure ActivationCode where
  value : UInt8
deriving DecidableEq, Repr

namespace ActivationCode

/-- Routing is active, or will be once it has been confirmed. -/
def isSuccess (c : ActivationCode) : Bool := c.value == 0x10 || c.value == 0x11

def description (c : ActivationCode) : String :=
  match c.value with
  | 0x00 => "unknown source address"
  | 0x01 => "all TCP sockets registered and active"
  | 0x02 => "source address differs from the one registered on this socket"
  | 0x03 => "source address already registered on a different socket"
  | 0x04 => "missing authentication"
  | 0x05 => "rejected confirmation"
  | 0x06 => "unsupported routing activation type"
  | 0x07 => "encrypted TLS connection required"
  | 0x10 => "routing successfully activated"
  | 0x11 => "routing will be activated, confirmation required"
  | _ => "reserved"

def text (c : ActivationCode) : String := "0x" ++ hex2 c.value ++ " (" ++ c.description ++ ")"

end ActivationCode

/-- Why a diagnostic message was refused (ISO 13400-2, table 29). -/
structure NackCode where
  value : UInt8
deriving DecidableEq, Repr

namespace NackCode

def description (c : NackCode) : String :=
  match c.value with
  | 0x02 => "invalid source address"
  | 0x03 => "unknown target address"
  | 0x04 => "diagnostic message too large"
  | 0x05 => "out of memory"
  | 0x06 => "target unreachable"
  | 0x07 => "unknown network"
  | 0x08 => "transport protocol error"
  | _ => "reserved"

def text (c : NackCode) : String := "0x" ++ hex2 c.value ++ " (" ++ c.description ++ ")"

end NackCode
end Doip
