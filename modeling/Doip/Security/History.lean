import Doip.Security.Registry

/-! # A process and its registries

A process works on a registry of its own and may install a copy for everyone, once.
Each step either takes effect as a whole or leaves everything as it was. -/
namespace Doip

inductive RegistryStep where
  /-- Register a transform under the name of a model. -/
  | register (model : String) (level : UInt8) (algorithm : Algorithm) (secret : Octets)
  /-- Start over with the entries of a configuration. -/
  | configure (entries : List SecretEntry)
  | answer (level model : UInt8) (seed : Octets)
  /-- Install a copy of the registry for the whole process. -/
  | install
  | answerInstalled (level model : UInt8) (seed : Octets)
deriving DecidableEq, Repr

/-- What a step brings. -/
inductive RegistryOutcome where
  | done
  | key (octets : Octets)
  | installed (tookEffect : Bool)
  | refused (error : SeedKeyError)
  | failed (failure : Failure)
deriving DecidableEq, Repr

structure Registries where
  own : Registry
  installed : Option Registry
deriving DecidableEq, Repr

namespace Registries

def initial : Registries := ⟨.empty, none⟩

/-- Takes over a changed registry, unless the change was refused. -/
def change (r : Registries) (result : Except SeedKeyError Registry) :
    Registries × RegistryOutcome :=
  match result with
  | .ok own => ({ r with own }, .done)
  | .error e => (r, .refused e)

def step (r : Registries) (s : RegistryStep) : Registries × RegistryOutcome :=
  match s with
  | .register model level algorithm secret =>
    r.change (r.own.registerNamed model level algorithm secret)
  | .configure entries => r.change (Registry.ofEntries entries)
  | .answer level model seed =>
    match r.own.answer level model seed with
    | .ok key => (r, .key key)
    | .error e => (r, .refused e)
  | .install =>
    let (installed, tookEffect) := installOnce r.installed r.own
    ({ r with installed }, .installed tookEffect)
  | .answerInstalled level model seed =>
    match Doip.answerInstalled r.installed level model seed with
    | .ok key => (r, .key key)
    | .error failure => (r, .failed failure)

/-- The registries and outcomes after each of several steps. -/
def run (r : Registries) : List RegistryStep → List (Registries × RegistryOutcome)
  | [] => []
  | s :: steps =>
    let result := r.step s
    result :: run result.1 steps

end Registries
end Doip
