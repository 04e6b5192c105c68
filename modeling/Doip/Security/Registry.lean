import Doip.Octets.Hex
import Doip.Security.Transform

/-! # Which transform answers which seed

A registry maps pairs of model and level to transforms; what is registered last
for a pair counts. Levels are the odd numbers up to 0x41. -/
namespace Doip
open Text

/-- Whether a service level asks for a seed (ISO 14229-1). -/
def isSeedLevel (level : UInt8) : Bool := level.toNat % 2 == 1 && level.toNat ≤ 0x41

structure RegistryEntry where
  model : EcuModel
  level : UInt8
  transform : Transform
deriving DecidableEq, Repr

/-- The order of entries in a listing: by name of the model, then level, then algorithm. -/
def RegistryEntry.le (a b : RegistryEntry) : Bool :=
  if a.model.shortName ≠ b.model.shortName then decide (a.model.shortName < b.model.shortName)
  else if a.level ≠ b.level then decide (a.level < b.level)
  else decide (a.transform.algorithm.name ≤ b.transform.algorithm.name)

/-- The entry as it is listed. -/
def RegistryEntry.text (e : RegistryEntry) : String :=
  "(\"" ++ e.model.shortName ++ "\", " ++ toString e.level.toNat ++ ", \"" ++
    e.transform.algorithm.name ++ "\")"

/-- Transforms by model and level, each pair at most once. -/
structure Registry where
  entries : List RegistryEntry
deriving DecidableEq, Repr

/-- A secret as it stands in a configuration. -/
structure SecretEntry where
  model : String
  level : UInt8
  algorithm : Algorithm
  secret : String
deriving DecidableEq, Repr

namespace Registry

def empty : Registry := ⟨[]⟩

def get? (r : Registry) (model : EcuModel) (level : UInt8) : Option Transform :=
  (r.entries.find? fun e => e.model = model ∧ e.level = level).map (·.transform)

/-- Puts a transform in place of the pair's former one. -/
def insert (r : Registry) (model : EcuModel) (level : UInt8) (t : Transform) : Registry :=
  ⟨⟨model, level, t⟩ :: r.entries.filter fun e => ¬(e.model = model ∧ e.level = level)⟩

def size (r : Registry) : Nat := r.entries.length

def register (r : Registry) (model : EcuModel) (level : UInt8) (t : Transform) :
    Except SeedKeyError Registry :=
  if isSeedLevel level then .ok (r.insert model level t) else .error (.invalidLevel level)

/-- Registers a transform of `algorithm` under the name of a model. -/
def registerNamed (r : Registry) (model : String) (level : UInt8) (algorithm : Algorithm)
    (secret : Octets) : Except SeedKeyError Registry := do
  let model ← EcuModel.parse model
  let transform ← Transform.ofSecret algorithm secret
  r.register model level transform

/-- The transform that an entry of a configuration describes, with its model. -/
def readEntry (e : SecretEntry) : Except SeedKeyError (EcuModel × Transform) := do
  let model ← EcuModel.parse e.model
  let secret ← (Hex.read (trim e.secret)).mapError fun fault =>
    .invalidSecret (e.model ++ ": " ++ fault.message)
  let transform ← Transform.ofSecret e.algorithm secret
  return (model, transform)

def addEntry (r : Registry) (e : SecretEntry) : Except SeedKeyError Registry := do
  let (model, transform) ← readEntry e
  r.register model e.level transform

/-- The registry of a configuration's entries; the first bad entry fails it as a whole. -/
def ofEntries (entries : List SecretEntry) : Except SeedKeyError Registry :=
  entries.foldlM addEntry empty

/-- The key that answers `seed`. Of several faults the seed's length wins, then the model,
then the level. -/
def answer (r : Registry) (level model : UInt8) (seed : Octets) : Except SeedKeyError Octets := do
  if seed.length ≠ seedLength then throw (.invalidSeedLength seedLength seed.length)
  let model ← EcuModel.ofNumber model
  if ¬isSeedLevel level then throw (.invalidLevel level)
  match r.get? model level with
  | some t => return t.key level seed
  | none => throw (.noAlgorithm model level)

/-- A listing of the registered pairs with their algorithms, in order; secrets stay hidden. -/
def text (r : Registry) : String :=
  "SeedKeyRegistry \x7b algorithms: [" ++
    ", ".intercalate ((r.entries.mergeSort RegistryEntry.le).map RegistryEntry.text) ++ "] \x7d"

end Registry

/-- A process keeps one registry, and the first one installed stays. -/
def installOnce (installed : Option Registry) (r : Registry) : Option Registry × Bool :=
  match installed with
  | some first => (some first, false)
  | none => (some r, true)

/-- The key that answers `seed` by the installed registry. -/
def answerInstalled (installed : Option Registry) (level model : UInt8) (seed : Octets) :
    Except Failure Octets :=
  match installed with
  | none => .error (.invalidArgument "no seed-key registry installed")
  | some r => (r.answer level model seed).mapError SeedKeyError.failure

end Doip
