import Doip.Settings
import Doip.Toml.Document

/-! # Settings from a document

Keys without a meaning are ignored wherever they stand, a missing setting has its
default, and a value of another type or out of its range refuses the document. A
group of settings may also be given as an array, its values in the order of the
fields. -/
namespace Doip.Settings
open Toml

/-- Named or listed values: a group of settings. -/
inductive Fields where
  | named (entries : List (String × Node))
  | listed (items : List Node)

/-- A value read as a group of settings. A date has no setting that is known. -/
def Fields.ofNode : Node → Option Fields
  | .table t => some (.named t.entries)
  | .inlineTable entries => some (.named entries)
  | .array items => some (.listed items)
  | .tables elements => some (.listed (elements.map .table))
  | .dateTime => some (.named [])
  | _ => none

/-- The field called `name`, which is the one at `index` of a list. -/
def Fields.get? (fields : Fields) (index : Nat) (name : String) : Option Node :=
  match fields with
  | .named entries => entries.lookup name
  | .listed items => items[index]?

/-- An integer from zero to `max`. -/
def natOf (max : Nat) : Node → Option Nat
  | .integer n => if 0 ≤ n ∧ n ≤ max then some n.toNat else none
  | _ => none

def stringOf : Node → Option String
  | .string text => some text
  | _ => none

/-- Nothing inside: what may stand for a choice that has no parts. -/
def isEmptyGroup : Node → Bool
  | .array items => items.isEmpty
  | .tables elements => elements.isEmpty
  | .table t => t.entries.isEmpty
  | .inlineTable entries => entries.isEmpty
  | _ => false

def algorithmNamed (name : String) : Option Algorithm := Algorithm.all.find? (·.name = name)

/-- An algorithm by its name, or as a table with just that name and nothing under it. -/
def algorithmOf : Node → Option Algorithm
  | .string name => algorithmNamed name
  | .table ⟨_, [(name, node)]⟩ => if isEmptyGroup node then algorithmNamed name else none
  | .inlineTable [(name, node)] => if isEmptyGroup node then algorithmNamed name else none
  | _ => none

def secretOf (node : Node) : Option SecretEntry := do
  let fields ← Fields.ofNode node
  let model ← (fields.get? 0 "model").bind stringOf
  let level ← (fields.get? 1 "level").bind (natOf 255)
  let algorithm ← match fields.get? 2 "algorithm" with
    | none => some .xor
    | some node => algorithmOf node
  let secret ← (fields.get? 3 "secret").bind stringOf
  return ⟨model, UInt8.ofNat level, algorithm, secret⟩

/-- The entries of a list of secrets. -/
def secretsOf : Node → Option (List SecretEntry)
  | .array items => items.mapM secretOf
  | .tables elements => elements.mapM fun t => secretOf (.table t)
  | _ => none

def securityOf (node : Node) : Option (List SecretEntry) := do
  let fields ← Fields.ofNode node
  match fields.get? 0 "keys" with
  | none => some []
  | some node => secretsOf node

/-- An integer setting with its default. -/
def natField (root : Table) (name : String) (max default : Nat) : Option Nat :=
  match root.find? name with
  | none => some default
  | some node => natOf max node

def ofTable (root : Table) : Option Settings := do
  let d : Settings := {}
  let millis (name : String) (default : UInt64) : Option UInt64 :=
    (natField root name 18446744073709551615 default.toNat).map UInt64.ofNat
  let port ← natField root "gateway_port" 65535 d.gatewayPort.toNat
  let version ← natField root "protocol_version" 255 d.protocolVersion.toNat
  let connect ← millis "connect_timeout_ms" d.connectTimeoutMs
  let activation ← millis "activation_timeout_ms" d.activationTimeoutMs
  let p2Star ← millis "p2_star_ms" d.p2StarMs
  let grace ← millis "multi_response_grace_ms" d.multiResponseGraceMs
  let margin ← millis "caller_margin_ms" d.callerMarginMs
  let close ← millis "close_timeout_ms" d.closeTimeoutMs
  let payload ← natField root "max_payload_len" 4294967295 d.maxPayloadLength.toNat
  let inbox ← millis "rx_queue_capacity" d.inboxCapacity
  let secrets ← match root.find? "security" with
    | none => some []
    | some node => securityOf node
  return {
    gatewayPort := UInt16.ofNat port
    protocolVersion := UInt8.ofNat version
    connectTimeoutMs := connect
    activationTimeoutMs := activation
    p2StarMs := p2Star
    multiResponseGraceMs := grace
    callerMarginMs := margin
    closeTimeoutMs := close
    maxPayloadLength := UInt32.ofNat payload
    inboxCapacity := inbox
    secrets }

/-- The settings that a document describes. -/
def parse? (text : String) : Option Settings := (readDocument text).bind ofTable

end Doip.Settings
