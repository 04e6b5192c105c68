import Doip.Security.Registry
import Mathlib.Data.Finset.Card

/-! # What a registry holds

The pairs of a registry are set one after the other, and a journal says in which order. The
registry `Holds` the last entry of the journal for each pair. What a registration sets is found
out before the registry is looked at (`registerNamed_eq`, `ofEntries_eq`), so that one that is
refused cannot have been half done. -/
namespace Doip
open Text

namespace RegistryEntry

/-- The pair that an entry sets. -/
def pair (e : RegistryEntry) : EcuModel × UInt8 := (e.model, e.level)

theorem pair_eq {e : RegistryEntry} {model : EcuModel} {level : UInt8} :
    e.pair = (model, level) ↔ e.model = model ∧ e.level = level :=
  Prod.mk_inj

end RegistryEntry

/-- The last entry of a journal for a pair. -/
def lastFor (journal : List RegistryEntry) (pair : EcuModel × UInt8) : Option RegistryEntry :=
  (journal.filter (·.pair = pair)).getLast?

section
variable {journal : List RegistryEntry} {pair : EcuModel × UInt8} {e : RegistryEntry}

theorem lastFor_concat (journal : List RegistryEntry) (e : RegistryEntry)
    (pair : EcuModel × UInt8) :
    lastFor (journal ++ [e]) pair = if e.pair = pair then some e else lastFor journal pair := by
  unfold lastFor
  by_cases hpair : e.pair = pair <;> simp [List.filter_append, hpair]

theorem of_lastFor (h : lastFor journal pair = some e) : e ∈ journal ∧ e.pair = pair := by
  simpa using List.mem_filter.mp (List.mem_of_getLast? h)

theorem isSome_lastFor : (lastFor journal pair).isSome ↔ pair ∈ journal.map (·.pair) := by
  rw [Option.isSome_iff_ne_none, Ne, lastFor, List.getLast?_eq_none_iff]
  simp

end

namespace Registry

/-- Sets the pair of an entry. -/
def put (r : Registry) (e : RegistryEntry) : Registry := r.insert e.model e.level e.transform

theorem get?_put (r : Registry) (e : RegistryEntry) (model : EcuModel) (level : UInt8) :
    (r.put e).get? model level =
      if e.pair = (model, level) then some e.transform else r.get? model level := by
  simp only [RegistryEntry.pair_eq]
  unfold put insert get?
  split
  next hpair => simp [hpair]
  next hpair =>
    rw [List.find?_cons_of_neg (by simpa using hpair), List.find?_filter]
    congr 2
    funext x
    -- an entry for this pair is none for the pair of `e`
    have hkept : x.model = model ∧ x.level = level → ¬(x.model = e.model ∧ x.level = e.level) := by
      rintro ⟨rfl, rfl⟩ ⟨hmodel, hlevel⟩
      exact hpair ⟨hmodel.symm, hlevel.symm⟩
    simp only [decide_eq_true_eq, decide_eq_decide]
    exact and_iff_right_of_imp hkept

theorem isSome_get? {r : Registry} {model : EcuModel} {level : UInt8} :
    (r.get? model level).isSome ↔ (model, level) ∈ r.entries.map (·.pair) := by
  simp [get?, RegistryEntry.pair]

/-- The registry holds the last entry of the journal for each pair, and nothing else. -/
structure Holds (r : Registry) (journal : List RegistryEntry) : Prop where
  distinct : (r.entries.map (·.pair)).Nodup
  last : ∀ model level, r.get? model level = (lastFor journal (model, level)).map (·.transform)

variable {r : Registry} {journal : List RegistryEntry}

theorem holds_empty : empty.Holds [] := ⟨List.nodup_nil, fun _ _ => rfl⟩

theorem Holds.put (h : r.Holds journal) (e : RegistryEntry) : (r.put e).Holds (journal ++ [e]) := by
  constructor
  · have hothers : ((r.entries.filter fun x => ¬(x.model = e.model ∧ x.level = e.level)).map
        (·.pair)).Nodup := h.distinct.sublist (List.filter_sublist.map _)
    refine List.nodup_cons.mpr ⟨fun hmem => ?_, hothers⟩
    obtain ⟨x, hx, hpair⟩ := List.mem_map.mp hmem
    exact of_decide_eq_true (List.mem_filter.mp hx).2 (RegistryEntry.pair_eq.mp hpair)
  · intro model level
    rw [get?_put, lastFor_concat, h.last]
    split <;> rfl

theorem Holds.putAll (h : r.Holds journal) (given : List RegistryEntry) :
    (given.foldl Registry.put r).Holds (journal ++ given) := by
  induction given generalizing r journal with
  | nil => simpa using h
  | cons e given ih => simpa using ih (h.put e)

/-- There is one entry for each pair that was ever set. -/
theorem Holds.size_eq (h : r.Holds journal) : r.size = (journal.map (·.pair)).toFinset.card := by
  have hpairs : (r.entries.map (·.pair)).toFinset = (journal.map (·.pair)).toFinset := by
    ext ⟨model, level⟩
    rw [List.mem_toFinset, List.mem_toFinset, ← isSome_get?, ← isSome_lastFor, h.last,
      Option.isSome_map]
  rw [← hpairs, List.toFinset_card_of_nodup h.distinct, List.length_map]
  rfl

end Registry

/-! ## Registrations -/

namespace RegistryEntry

/-- What is set for a pair; an empty secret wins over a bad level. -/
def ofSecret (model : EcuModel) (level : UInt8) (algorithm : Algorithm) (secret : Octets) :
    Except SeedKeyError RegistryEntry :=
  if h : secret = [] then .error (.invalidSecret "secret is empty")
  else if isSeedLevel level then .ok ⟨model, level, algorithm, secret, h⟩
  else .error (.invalidLevel level)

/-- What is set under the name of a model, which is looked at first. -/
def ofNamed (model : String) (level : UInt8) (algorithm : Algorithm) (secret : Octets) :
    Except SeedKeyError RegistryEntry :=
  (EcuModel.parse model).bind fun model => ofSecret model level algorithm secret

end RegistryEntry

/-- What an entry of a configuration sets. -/
def SecretEntry.setting (e : SecretEntry) : Except SeedKeyError RegistryEntry :=
  (EcuModel.parse e.model).bind fun model =>
    match Hex.read (trim e.secret) with
    | .ok secret => RegistryEntry.ofSecret model e.level e.algorithm secret
    | .error fault => .error (.invalidSecret (e.model ++ ": " ++ fault.message))

namespace Registry

theorem register_ofSecret (r : Registry) (model : EcuModel) (level : UInt8) (algorithm : Algorithm)
    (secret : Octets) :
    ((Transform.ofSecret algorithm secret).bind fun transform =>
      r.register model level transform) =
      (RegistryEntry.ofSecret model level algorithm secret).map r.put := by
  unfold Transform.ofSecret RegistryEntry.ofSecret
  split
  · rfl
  · unfold register Except.bind
    dsimp only
    split <;> rfl

theorem registerNamed_eq (r : Registry) (model : String) (level : UInt8) (algorithm : Algorithm)
    (secret : Octets) :
    r.registerNamed model level algorithm secret =
      (RegistryEntry.ofNamed model level algorithm secret).map r.put := by
  unfold registerNamed RegistryEntry.ofNamed
  cases EcuModel.parse model with
  | error e => rfl
  | ok model => exact register_ofSecret r model level algorithm secret

theorem addEntry_eq (r : Registry) (e : SecretEntry) : r.addEntry e = e.setting.map r.put := by
  unfold addEntry readEntry SecretEntry.setting
  cases EcuModel.parse e.model with
  | error e => rfl
  | ok model =>
    cases Hex.read (trim e.secret) with
    | error fault => rfl
    | ok secret =>
      refine Eq.trans ?_ (register_ofSecret r model e.level e.algorithm secret)
      change Except.bind (Except.bind (Transform.ofSecret e.algorithm secret) _) _ = _
      cases Transform.ofSecret e.algorithm secret <;> rfl

/-- A configuration is read as a whole before any of it is set. -/
theorem foldlM_addEntry (r : Registry) (entries : List SecretEntry) :
    entries.foldlM addEntry r =
      (entries.mapM SecretEntry.setting).map fun given => given.foldl put r := by
  induction entries generalizing r with
  | nil => rfl
  | cons e entries ih =>
    rw [List.foldlM_cons, List.mapM_cons, addEntry_eq]
    cases e.setting with
    | error e => rfl
    | ok first =>
      refine (ih (r.put first)).trans ?_
      change _ = Except.map _ ((entries.mapM SecretEntry.setting).bind fun given =>
        .ok (first :: given))
      cases entries.mapM SecretEntry.setting <;> rfl

theorem ofEntries_eq (entries : List SecretEntry) :
    ofEntries entries = (entries.mapM SecretEntry.setting).map fun given => given.foldl put empty :=
  foldlM_addEntry empty entries

end Registry
end Doip
