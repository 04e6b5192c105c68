import Doip.Failure
import Doip.Security.Model

/-! # How the derivation of a key fails -/
namespace Doip
open Text

inductive SeedKeyError where
  | invalidSeedLength (expected actual : Nat)
  | unknownModel (text : String)
  | invalidLevel (level : UInt8)
  | noAlgorithm (model : EcuModel) (level : UInt8)
  | invalidSecret (reason : String)
deriving DecidableEq, Repr

namespace SeedKeyError

def message : SeedKeyError → String
  | invalidSeedLength expected actual =>
    "Seed must be " ++ toString expected ++ " bytes, got " ++ toString actual
  | unknownModel text => "Unknown ECU model " ++ text
  | invalidLevel level => "Security level 0x" ++ hex2 level ++ " is not a requestSeed level"
  | noAlgorithm model level =>
    "No seed-key algorithm registered for " ++ model.shortName ++ " level 0x" ++ hex2 level
  | invalidSecret reason => "Invalid secret: " ++ reason

/-- The same error as the client reports it. -/
def failure (e : SeedKeyError) : Failure := .invalidArgument e.message

end SeedKeyError

namespace EcuModel

def ofNumber (value : UInt8) : Except SeedKeyError EcuModel :=
  match ofNumber? value with
  | some model => .ok model
  | none => .error (.unknownModel (toString value.toNat))

/-- Reads a model's name; the error quotes the text as it was given. -/
def parse (text : String) : Except SeedKeyError EcuModel :=
  match ofName? text.toList with
  | some model => .ok model
  | none => .error (.unknownModel text)

end EcuModel
end Doip
