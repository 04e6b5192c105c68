import Doip.Engine
import Doip.Proofs.Toml.Lines
import Doip.Settings.Document
import Mathlib.Data.List.Nodup

/-! # What a document sets

Each integer setting has a key, a default and a range of its own (`IntegerField`). A table comes to
the settings that agree with it field by field (`ofTable_eq_some_iff`). A document with a line for
some of the fields, in whatever order, sets just these and leaves the others alone
(`parse?_eq_some_iff`). -/
namespace Doip.Settings
open Toml

/-- The settings that are integers. -/
inductive IntegerField where
  | gatewayPort
  | protocolVersion
  | connectTimeoutMs
  | activationTimeoutMs
  | p2StarMs
  | multiResponseGraceMs
  | callerMarginMs
  | closeTimeoutMs
  | maxPayloadLength
  | inboxCapacity
deriving DecidableEq, Repr

namespace IntegerField

def all : List IntegerField :=
  [gatewayPort, protocolVersion, connectTimeoutMs, activationTimeoutMs, p2StarMs,
    multiResponseGraceMs, callerMarginMs, closeTimeoutMs, maxPayloadLength, inboxCapacity]

/-- The key of the setting in a document. -/
def name : IntegerField → String
  | gatewayPort => "gateway_port"
  | protocolVersion => "protocol_version"
  | connectTimeoutMs => "connect_timeout_ms"
  | activationTimeoutMs => "activation_timeout_ms"
  | p2StarMs => "p2_star_ms"
  | multiResponseGraceMs => "multi_response_grace_ms"
  | callerMarginMs => "caller_margin_ms"
  | closeTimeoutMs => "close_timeout_ms"
  | maxPayloadLength => "max_payload_len"
  | inboxCapacity => "rx_queue_capacity"

/-- The default as it is documented. -/
def default : IntegerField → Nat
  | gatewayPort => 13400
  | protocolVersion => 0x02
  | connectTimeoutMs => 5000
  | activationTimeoutMs => 2000
  | p2StarMs => 5000
  | multiResponseGraceMs => 250
  | callerMarginMs => 2000
  | closeTimeoutMs => 2000
  | maxPayloadLength => 0x400000
  | inboxCapacity => 64

/-- The greatest value that the setting holds. -/
def capacity : IntegerField → Nat
  | gatewayPort => 65535
  | protocolVersion => 255
  | maxPayloadLength => 4294967295
  | _ => 18446744073709551615

/-- The greatest value that a document can give to the setting; its integers have a sign. -/
def greatest (f : IntegerField) : Nat := min f.capacity 9223372036854775807

def value (s : Settings) : IntegerField → Nat
  | gatewayPort => s.gatewayPort.toNat
  | protocolVersion => s.protocolVersion.toNat
  | connectTimeoutMs => s.connectTimeoutMs.toNat
  | activationTimeoutMs => s.activationTimeoutMs.toNat
  | p2StarMs => s.p2StarMs.toNat
  | multiResponseGraceMs => s.multiResponseGraceMs.toNat
  | callerMarginMs => s.callerMarginMs.toNat
  | closeTimeoutMs => s.closeTimeoutMs.toNat
  | maxPayloadLength => s.maxPayloadLength.toNat
  | inboxCapacity => s.inboxCapacity.toNat

/-- Whether a document can give the value to the setting. -/
def InRange (f : IntegerField) (v : Int) : Prop := 0 ≤ v ∧ v ≤ f.greatest

theorem mem_all (f : IntegerField) : f ∈ all := by
  cases f <;> decide

theorem name_injective {f g : IntegerField} (h : f.name = g.name) : f = g := by
  have hnames : (all.map name).Nodup := by decide
  exact List.inj_on_of_nodup_map hnames (mem_all f) (mem_all g) h

theorem isBareKey_name (f : IntegerField) : IsBareKey f.name where
  ne_empty := by cases f <;> decide
  bare := List.all_eq_true.mp (by cases f <;> rfl)

theorem default_le_capacity (f : IntegerField) : f.default ≤ f.capacity := by
  cases f <;> decide

/-- The integers that 64 bits and the setting hold are those in its range. -/
theorem inRange_iff {f : IntegerField} {v : Int} :
    f.InRange v ↔ Fits v ∧ 0 ≤ v ∧ v ≤ f.capacity := by
  unfold InRange Fits greatest
  omega

end IntegerField

variable {root : Table} {s : Settings} {f : IntegerField} {n : Nat}

/-! ## Tables -/

theorem natOf_eq_some_iff {max : Nat} {v : Int} :
    natOf max (.integer v) = some n ↔ (0 ≤ v ∧ v ≤ max) ∧ v = n := by
  unfold natOf
  dsimp only
  split
  · rename_i hrange
    rw [Option.some.injEq, and_iff_right hrange]
    omega
  · rename_i hrange
    exact iff_of_false nofun fun h => hrange h.1

theorem natField_le {name : String} {max default : Nat} (hdefault : default ≤ max)
    (h : natField root name max default = some n) : n ≤ max := by
  unfold natField at h
  split at h
  · cases h
    exact hdefault
  · rename_i node _
    unfold natOf at h
    split at h
    · split at h
      · cases h
        omega
      · cases h
    · cases h

/-- The secrets of a document. -/
def secretsIn (root : Table) : Option (List SecretEntry) :=
  match root.find? "security" with
  | none => some []
  | some node => securityOf node

/-- A setting as a table has it. -/
def fieldIn (root : Table) (f : IntegerField) : Option Nat :=
  natField root f.name f.capacity f.default

/-- The settings of these values, each cut down to what its setting holds. -/
def ofValues (value : IntegerField → Nat) (secrets : List SecretEntry) : Settings where
  gatewayPort := UInt16.ofNat (value .gatewayPort)
  protocolVersion := UInt8.ofNat (value .protocolVersion)
  connectTimeoutMs := UInt64.ofNat (value .connectTimeoutMs)
  activationTimeoutMs := UInt64.ofNat (value .activationTimeoutMs)
  p2StarMs := UInt64.ofNat (value .p2StarMs)
  multiResponseGraceMs := UInt64.ofNat (value .multiResponseGraceMs)
  callerMarginMs := UInt64.ofNat (value .callerMarginMs)
  closeTimeoutMs := UInt64.ofNat (value .closeTimeoutMs)
  maxPayloadLength := UInt32.ofNat (value .maxPayloadLength)
  inboxCapacity := UInt64.ofNat (value .inboxCapacity)
  secrets

theorem value_ofValues {value : IntegerField → Nat} (h : value f ≤ f.capacity)
    (secrets : List SecretEntry) : f.value (ofValues value secrets) = value f := by
  cases f with
  | gatewayPort => exact UInt16.toNat_ofNat_of_lt' (Nat.lt_succ_of_le h)
  | protocolVersion => exact UInt8.toNat_ofNat_of_lt' (Nat.lt_succ_of_le h)
  | maxPayloadLength => exact UInt32.toNat_ofNat_of_lt' (Nat.lt_succ_of_le h)
  | _ => exact UInt64.toNat_ofNat_of_lt' (Nat.lt_succ_of_le h)

theorem ofValues_value (s : Settings) : ofValues (IntegerField.value s) s.secrets = s := by
  simp only [ofValues, IntegerField.value, UInt16.ofNat_toNat, UInt8.ofNat_toNat,
    UInt32.ofNat_toNat, UInt64.ofNat_toNat]

theorem ofTable_eq (root : Table) : ofTable root =
    (fieldIn root .gatewayPort).bind fun port =>
    (fieldIn root .protocolVersion).bind fun version =>
    ((fieldIn root .connectTimeoutMs).map UInt64.ofNat).bind fun connect =>
    ((fieldIn root .activationTimeoutMs).map UInt64.ofNat).bind fun activation =>
    ((fieldIn root .p2StarMs).map UInt64.ofNat).bind fun p2Star =>
    ((fieldIn root .multiResponseGraceMs).map UInt64.ofNat).bind fun grace =>
    ((fieldIn root .callerMarginMs).map UInt64.ofNat).bind fun margin =>
    ((fieldIn root .closeTimeoutMs).map UInt64.ofNat).bind fun close =>
    (fieldIn root .maxPayloadLength).bind fun payload =>
    ((fieldIn root .inboxCapacity).map UInt64.ofNat).bind fun inbox =>
    (secretsIn root).bind fun secrets => some
      { gatewayPort := UInt16.ofNat port
        protocolVersion := UInt8.ofNat version
        connectTimeoutMs := connect
        activationTimeoutMs := activation
        p2StarMs := p2Star
        multiResponseGraceMs := grace
        callerMarginMs := margin
        closeTimeoutMs := close
        maxPayloadLength := UInt32.ofNat payload
        inboxCapacity := inbox
        secrets } := by
  unfold ofTable secretsIn
  cases root.find? "security" <;> rfl

theorem ofTable_of_fields {value : IntegerField → Nat} {secrets : List SecretEntry}
    (hfields : ∀ f, fieldIn root f = some (value f)) (hsecrets : secretsIn root = some secrets) :
    ofTable root = some (ofValues value secrets) := by
  simp only [ofTable_eq, hfields, hsecrets, Option.map_some, Option.bind_some]
  rfl

/-- One bad field, or bad secrets, are enough to refuse a table. -/
theorem exists_fields_of_ofTable (h : ofTable root = some s) :
    (∀ f, ∃ n, fieldIn root f = some n) ∧ ∃ secrets, secretsIn root = some secrets := by
  simp only [ofTable_eq, Option.bind_eq_some_iff, Option.map_eq_some_iff] at h
  obtain ⟨port, hport, version, hversion, _, ⟨connect, hconnect, -⟩,
    _, ⟨activation, hactivation, -⟩, _, ⟨p2Star, hp2Star, -⟩, _, ⟨grace, hgrace, -⟩,
    _, ⟨margin, hmargin, -⟩, _, ⟨close, hclose, -⟩, payload, hpayload,
    _, ⟨inbox, hinbox, -⟩, secrets, hsecrets, -⟩ := h
  refine ⟨fun f => ?_, secrets, hsecrets⟩
  cases f with
  | gatewayPort => exact ⟨port, hport⟩
  | protocolVersion => exact ⟨version, hversion⟩
  | connectTimeoutMs => exact ⟨connect, hconnect⟩
  | activationTimeoutMs => exact ⟨activation, hactivation⟩
  | p2StarMs => exact ⟨p2Star, hp2Star⟩
  | multiResponseGraceMs => exact ⟨grace, hgrace⟩
  | callerMarginMs => exact ⟨margin, hmargin⟩
  | closeTimeoutMs => exact ⟨close, hclose⟩
  | maxPayloadLength => exact ⟨payload, hpayload⟩
  | inboxCapacity => exact ⟨inbox, hinbox⟩

/-- A table comes to the settings that agree with it field by field. -/
theorem ofTable_eq_some_iff : ofTable root = some s ↔
    (∀ f, fieldIn root f = some (f.value s)) ∧ secretsIn root = some s.secrets := by
  constructor
  · intro h
    obtain ⟨hfields, secrets, hsecrets⟩ := exists_fields_of_ofTable h
    choose value hvalue using hfields
    rw [ofTable_of_fields hvalue hsecrets, Option.some.injEq] at h
    subst h
    refine ⟨fun f => ?_, hsecrets⟩
    rw [hvalue, value_ofValues (natField_le f.default_le_capacity (hvalue f))]
  · rintro ⟨hfields, hsecrets⟩
    rw [ofTable_of_fields hfields hsecrets, ofValues_value]

/-! ## Lines of integers -/

/-- The lines of some of the fields, under their keys. -/
def keyed (given : List (IntegerField × Int)) : List (String × Int) :=
  given.map fun e => (e.1.name, e.2)

/-- A text with a line for each of the fields, in this order, and nothing else. -/
def Written (given : List (IntegerField × Int)) (text : String) : Prop :=
  Lines (keyed given) text.toList

variable {given given' : List (IntegerField × Int)} {v : Int} {text text' : String}

theorem map_fst_keyed (given : List (IntegerField × Int)) :
    (keyed given).map (·.1) = (given.map (·.1)).map IntegerField.name := by
  rw [keyed, List.map_map, List.map_map]
  rfl

theorem nodup_keyed (distinct : (given.map (·.1)).Nodup) : ((keyed given).map (·.1)).Nodup := by
  rw [map_fst_keyed]
  exact distinct.map fun _ _ => IntegerField.name_injective

theorem fieldIn_of_mem (distinct : (given.map (·.1)).Nodup) (h : (f, v) ∈ given) :
    fieldIn (tableOf (keyed given)) f = natOf f.capacity (.integer v) := by
  have hfind : (tableOf (keyed given)).find? f.name = some (.integer v) :=
    find?_tableOf_of_mem (nodup_keyed distinct) (List.mem_map.mpr ⟨(f, v), h, rfl⟩)
  rw [fieldIn, natField, hfind]

theorem fieldIn_of_not_mem (h : f ∉ given.map (·.1)) :
    fieldIn (tableOf (keyed given)) f = some f.default := by
  have hfind : (tableOf (keyed given)).find? f.name = none := by
    refine find?_tableOf_of_not_mem fun hname => h ?_
    rw [map_fst_keyed] at hname
    obtain ⟨g, hg, hsame⟩ := List.mem_map.mp hname
    exact IntegerField.name_injective hsame ▸ hg
  rw [fieldIn, natField, hfind]

theorem secretsIn_tableOf (given : List (IntegerField × Int)) :
    secretsIn (tableOf (keyed given)) = some [] := by
  have hother (f : IntegerField) : f.name ≠ "security" := by cases f <;> decide
  have hfind : (tableOf (keyed given)).find? "security" = none := by
    refine find?_tableOf_of_not_mem fun hname => ?_
    rw [map_fst_keyed] at hname
    obtain ⟨f, -, hsame⟩ := List.mem_map.mp hname
    exact hother f hsame
  rw [secretsIn, hfind]

/-- The settings with these values in their fields, the documented defaults in all others and no
secrets. -/
structure Overridden (given : List (IntegerField × Int)) (s : Settings) : Prop where
  values : ∀ (f : IntegerField) (v : Int), (f, v) ∈ given → (f.value s : Int) = v
  others : ∀ f : IntegerField, f ∉ given.map (·.1) → f.value s = f.default
  secrets : s.secrets = []

/-- Every field is given a value in its range. -/
def AllInRange (given : List (IntegerField × Int)) : Prop :=
  ∀ (f : IntegerField) (v : Int), (f, v) ∈ given → f.InRange v

theorem fieldIn_tableOf_iff (distinct : (given.map (·.1)).Nodup) :
    (∀ f, fieldIn (tableOf (keyed given)) f = some (f.value s)) ↔
      (∀ (f : IntegerField) (v : Int), (f, v) ∈ given →
        (0 ≤ v ∧ v ≤ f.capacity) ∧ v = f.value s) ∧
      ∀ f : IntegerField, f ∉ given.map (·.1) → f.value s = f.default := by
  constructor
  · intro hfields
    refine ⟨fun f v hmem => ?_, fun f hnot => ?_⟩
    · have hfield := hfields f
      rw [fieldIn_of_mem distinct hmem] at hfield
      exact natOf_eq_some_iff.mp hfield
    · have hfield := hfields f
      rw [fieldIn_of_not_mem hnot] at hfield
      exact (Option.some.inj hfield).symm
  · rintro ⟨hgiven, hothers⟩ f
    by_cases hf : f ∈ given.map (·.1)
    · obtain ⟨⟨f, v⟩, hmem, rfl⟩ := List.mem_map.mp hf
      rw [fieldIn_of_mem distinct hmem]
      exact natOf_eq_some_iff.mpr (hgiven f v hmem)
    · rw [fieldIn_of_not_mem hf, hothers f hf]

/-- What the lines set, and nothing else, is what the document comes to. -/
theorem parse?_eq_some_iff (distinct : (given.map (·.1)).Nodup) (written : Written given text) :
    parse? text = some s ↔ AllInRange given ∧ Overridden given s := by
  have hdocument (root : Table) : readDocument text = some root ↔
      (∀ f v, (f, v) ∈ given → Fits v) ∧ tableOf (keyed given) = root := by
    rw [readDocument_eq_some_iff written (nodup_keyed distinct), keyed, List.forall_mem_map,
      Prod.forall]
  have htable : parse? text = some s ↔ (∀ f v, (f, v) ∈ given → Fits v) ∧
      ofTable (tableOf (keyed given)) = some s := by
    simp only [parse?, Option.bind_eq_some_iff, hdocument, and_assoc, exists_and_left,
      exists_eq_left']
  rw [htable, ofTable_eq_some_iff, fieldIn_tableOf_iff distinct, secretsIn_tableOf,
    Option.some.injEq]
  constructor
  · rintro ⟨hfits, ⟨hgiven, hothers⟩, hsecrets⟩
    exact ⟨fun f v hmem => IntegerField.inRange_iff.mpr ⟨hfits f v hmem, (hgiven f v hmem).1⟩,
      fun f v hmem => (hgiven f v hmem).2.symm, hothers, hsecrets.symm⟩
  · rintro ⟨hrange, hvalues, hothers, hsecrets⟩
    have hin (f : IntegerField) (v : Int) (hmem : (f, v) ∈ given) :=
      IntegerField.inRange_iff.mp (hrange f v hmem)
    exact ⟨fun f v hmem => (hin f v hmem).1,
      ⟨fun f v hmem => ⟨(hin f v hmem).2, (hvalues f v hmem).symm⟩, hothers⟩, hsecrets.symm⟩

/-- Values in their ranges make settings. -/
theorem exists_overridden (distinct : (given.map (·.1)).Nodup) (hrange : AllInRange given) :
    ∃ s, Overridden given s := by
  have hvalue : ∀ f : IntegerField, ∃ n ≤ f.capacity,
      (∀ v, (f, v) ∈ given → (n : Int) = v) ∧ (f ∉ given.map (·.1) → n = f.default) := by
    intro f
    by_cases hf : f ∈ given.map (·.1)
    · obtain ⟨⟨f, v⟩, hmem, rfl⟩ := List.mem_map.mp hf
      obtain ⟨-, hlow, hhigh⟩ := IntegerField.inRange_iff.mp (hrange f v hmem)
      have hcapacity : v.toNat ≤ f.capacity := Int.toNat_le.mpr hhigh
      refine ⟨v.toNat, hcapacity, fun w hw => ?_, fun hnot => absurd hf hnot⟩
      have hsame := List.inj_on_of_nodup_map distinct hw hmem rfl
      cases hsame
      omega
    · refine ⟨f.default, f.default_le_capacity, fun v hmem => ?_, fun _ => rfl⟩
      exact absurd (List.mem_map_of_mem hmem) hf
  choose value hcapacity hgiven hothers using hvalue
  refine ⟨ofValues value [], fun f v hmem => ?_, fun f hnot => ?_, rfl⟩
  · rw [value_ofValues (hcapacity f)]
    exact hgiven f v hmem
  · rw [value_ofValues (hcapacity f)]
    exact hothers f hnot

/-- Durations are exact to the nanosecond, and at least one response is kept. -/
structure InForce (s : Settings) (t : Tuning) : Prop where
  connectTimeout : s.connectTimeout.nanos = s.connectTimeoutMs.toNat * 1000000
  callerMargin : s.callerMargin.nanos = s.callerMarginMs.toNat * 1000000
  closeTimeout : s.closeTimeout.nanos = s.closeTimeoutMs.toNat * 1000000
  activationTimeout : t.activationTimeout.nanos = s.activationTimeoutMs.toNat * 1000000
  p2Star : t.p2Star.nanos = s.p2StarMs.toNat * 1000000
  grace : t.grace.nanos = s.multiResponseGraceMs.toNat * 1000000
  version : t.version = s.protocolVersion
  maxPayload : t.maxPayload = s.maxPayloadLength
  inboxCapacity : t.inboxCapacity = max s.inboxCapacity.toNat 1
  one_le_inboxCapacity : 1 ≤ t.inboxCapacity

theorem inForce_ofSettings (source : Address) (s : Settings) :
    InForce s (Tuning.ofSettings source s) where
  connectTimeout := rfl
  callerMargin := rfl
  closeTimeout := rfl
  activationTimeout := rfl
  p2Star := rfl
  grace := rfl
  version := rfl
  maxPayload := rfl
  inboxCapacity := rfl
  one_le_inboxCapacity := Nat.le_max_right _ _

theorem Overridden.of_perm (h : Overridden given s) (hperm : given.Perm given') :
    Overridden given' s where
  values f v hmem := h.values f v (hperm.mem_iff.mpr hmem)
  others f hnot := h.others f fun hmem => hnot ((hperm.map (·.1)).mem_iff.mp hmem)
  secrets := h.secrets

/-- Each line of a document overrides its own field, wherever it stands, and one value out of range
refuses the document. The engine takes the settings as they are. -/
theorem overrides_fieldwise (distinct : (given.map (·.1)).Nodup) (written : Written given text) :
    (AllInRange given → ∃ s, parse? text = some s ∧ Overridden given s ∧
      ∀ source, InForce s (Tuning.ofSettings source s)) ∧
    (∀ (f : IntegerField) (v : Int), (f, v) ∈ given → ¬ f.InRange v → parse? text = none) ∧
    ∀ given' text', given.Perm given' → Written given' text' → parse? text' = parse? text := by
  refine ⟨fun hrange => ?_, fun f v hmem hout => ?_, fun given' text' hperm written' => ?_⟩
  · obtain ⟨s, hs⟩ := exists_overridden distinct hrange
    exact ⟨s, (parse?_eq_some_iff distinct written).mpr ⟨hrange, hs⟩, hs,
      fun source => inForce_ofSettings source s⟩
  · refine Option.eq_none_iff_forall_ne_some.mpr fun s hs => hout ?_
    exact ((parse?_eq_some_iff distinct written).mp hs).1 f v hmem
  · have distinct' : (given'.map (·.1)).Nodup := (hperm.map (·.1)).nodup_iff.mp distinct
    refine Option.ext fun s => ?_
    rw [parse?_eq_some_iff distinct written, parse?_eq_some_iff distinct' written']
    refine and_congr ⟨fun h f v hmem => h f v (hperm.mem_iff.mp hmem), fun h f v hmem =>
      h f v (hperm.mem_iff.mpr hmem)⟩ ⟨fun h => h.of_perm hperm.symm, fun h => h.of_perm hperm⟩

/-- Three settings at the ends of their ranges. -/
def extremes : List (IntegerField × Int) :=
  [(.inboxCapacity, 0), (.protocolVersion, 255), (.p2StarMs, 9223372036854775807)]

/-- The three in lines that end in three ways. -/
def extremesText : String :=
  "rx_queue_capacity = 0\nprotocol_version = 255\r\np2_star_ms = 9223372036854775807"

theorem written_extremes : Written extremes extremesText :=
  .cons (IntegerField.isBareKey_name .inboxCapacity) (.feed _)
    (.cons (IntegerField.isBareKey_name .protocolVersion) (.carriage _)
      (.cons (IntegerField.isBareKey_name .p2StarMs) .text .nil))

/-- One more than the last of them is refused. -/
theorem extremes_overridden :
    (extremes.map (·.1)).Nodup ∧ Written extremes extremesText ∧
      (∃ s, parse? extremesText = some s ∧ IntegerField.inboxCapacity.value s = 0 ∧
        IntegerField.protocolVersion.value s = 255 ∧
        IntegerField.p2StarMs.value s = 9223372036854775807 ∧
        IntegerField.gatewayPort.value s = 13400 ∧ s.secrets = [] ∧
        (Tuning.ofSettings 0x0E00 s).inboxCapacity = 1) ∧
      parse? "p2_star_ms = 9223372036854775808" = none := by
  have distinct : (extremes.map (·.1)).Nodup := by decide
  refine ⟨distinct, written_extremes, ?_, ?_⟩
  · have hrange : AllInRange extremes := by
      simp only [AllInRange, extremes, List.mem_cons, List.not_mem_nil, or_false]
      rintro f v (h | h | h) <;> cases h <;> exact ⟨by decide, by decide⟩
    obtain ⟨s, hparse, hs, hforce⟩ := (overrides_fieldwise distinct written_extremes).1 hrange
    have hinbox := hs.values .inboxCapacity 0 (by decide)
    have hversion := hs.values .protocolVersion 255 (by decide)
    have hp2Star := hs.values .p2StarMs 9223372036854775807 (by decide)
    have hcapacity : s.inboxCapacity.toNat = 0 := Int.natCast_eq_zero.mp hinbox
    refine ⟨s, hparse, hcapacity, by omega, by omega, hs.others .gatewayPort (by decide),
      hs.secrets, ?_⟩
    rw [(hforce 0x0E00).inboxCapacity, hcapacity]
    rfl
  · have written : Written [(.p2StarMs, 9223372036854775808)]
        "p2_star_ms = 9223372036854775808" :=
      .cons (IntegerField.isBareKey_name .p2StarMs) .text .nil
    refine (overrides_fieldwise (by decide) written).2.1 .p2StarMs _ List.mem_cons_self ?_
    exact fun hrange => absurd hrange.2 (by decide)

end Doip.Settings
