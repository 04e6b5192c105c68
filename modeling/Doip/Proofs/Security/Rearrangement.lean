import Doip.Proofs.Security.History
import Mathlib.Data.Prod.Lex
import Mathlib.Data.String.Basic

/-! # The order of a configuration's entries

Of the entries for one pair the last one counts, so that their order makes a difference. The order
of entries for different pairs does not (`Rearranged`): what is set last for a pair is the same
(`Rearranged.lastFor_eq`), and a registry is known by what it holds for each pair, but for the
order in which it keeps them. No answer depends on this order, and the listing is sorted
(`listed_eq_of_perm`). -/
namespace Doip

/-! ## Listings -/

theorem EcuModel.shortName_injective : Function.Injective shortName := by
  intro a b h
  cases a <;> cases b <;> simp_all [shortName]

namespace RegistryEntry

/-- What entries are sorted by: the name of the model, then the level, then the algorithm. -/
def rank (e : RegistryEntry) : String ×ₗ Nat ×ₗ String :=
  toLex (e.model.shortName, toLex (e.level.toNat, e.transform.algorithm.name))

variable {a b : RegistryEntry}

theorem le_iff : a.le b = true ↔ a.rank ≤ b.rank := by
  simp only [rank, Prod.Lex.toLex_le_toLex, ← UInt8.lt_iff_toNat_lt, UInt8.toNat_inj]
  unfold le
  by_cases hname : a.model.shortName = b.model.shortName
  · by_cases hlevel : a.level = b.level
    · simp [hname, hlevel]
    · simp [hname, hlevel]
  · simp [hname]

/-- Entries of one rank are for one pair. -/
theorem pair_eq_of_rank (h : a.rank = b.rank) : a.pair = b.pair := by
  obtain ⟨hname, hrest⟩ := Prod.mk_inj.mp (toLex_inj.mp h)
  obtain ⟨hlevel, -⟩ := Prod.mk_inj.mp (toLex_inj.mp hrest)
  exact pair_eq.mpr ⟨EcuModel.shortName_injective hname, UInt8.toNat_inj.mp hlevel⟩

end RegistryEntry

namespace Registry

/-- The entries in the order of the listing. -/
def listed (r : Registry) : List RegistryEntry := r.entries.mergeSort RegistryEntry.le

variable {r r' : Registry}

theorem listed_perm (r : Registry) : r.listed.Perm r.entries := List.mergeSort_perm _ _

theorem listed_sorted (r : Registry) : r.listed.Pairwise fun a b => a.rank ≤ b.rank := by
  refine (List.pairwise_mergeSort ?_ ?_ r.entries).imp RegistryEntry.le_iff.mp
  · intro a b c hab hbc
    rw [RegistryEntry.le_iff] at hab hbc ⊢
    exact hab.trans hbc
  · intro a b
    rw [Bool.or_eq_true, RegistryEntry.le_iff, RegistryEntry.le_iff]
    exact le_total a.rank b.rank

/-- The listing does not show in which order a registry keeps its entries. -/
theorem listed_eq_of_perm (distinct : (r.entries.map (·.pair)).Nodup)
    (h : r.entries.Perm r'.entries) : r.listed = r'.listed := by
  have hperm : r.listed.Perm r'.listed := (r.listed_perm.trans h).trans r'.listed_perm.symm
  refine hperm.eq_of_pairwise ?_ r.listed_sorted r'.listed_sorted
  intro a b ha hb hab hba
  have hmem : b ∈ r.entries := h.mem_iff.mpr (r'.listed_perm.mem_iff.mp hb)
  exact List.inj_on_of_nodup_map distinct (r.listed_perm.mem_iff.mp ha) hmem
    (RegistryEntry.pair_eq_of_rank (le_antisymm hab hba))

/-! ## What a registry holds for each pair -/

theorem mem_entries_iff (distinct : (r.entries.map (·.pair)).Nodup) {e : RegistryEntry} :
    e ∈ r.entries ↔ r.get? e.model e.level = some e.transform := by
  constructor
  · intro he
    have hsome : (r.get? e.model e.level).isSome :=
      isSome_get?.mpr (List.mem_map_of_mem he)
    unfold get? at hsome ⊢
    rw [Option.isSome_map] at hsome
    obtain ⟨x, hx⟩ := Option.isSome_iff_exists.mp hsome
    have hpair : x.pair = e.pair := by simpa [RegistryEntry.pair] using List.find?_some hx
    rw [hx, List.inj_on_of_nodup_map distinct (List.mem_of_find?_eq_some hx) he hpair]
    rfl
  · intro hget
    obtain ⟨⟨model, level, t⟩, hx, rfl⟩ := Option.map_eq_some_iff.mp hget
    obtain ⟨rfl, rfl⟩ : model = e.model ∧ level = e.level := by simpa using List.find?_some hx
    exact List.mem_of_find?_eq_some hx

theorem entries_perm (distinct : (r.entries.map (·.pair)).Nodup)
    (distinct' : (r'.entries.map (·.pair)).Nodup)
    (same : ∀ model level, r.get? model level = r'.get? model level) :
    r.entries.Perm r'.entries := by
  refine (List.perm_ext_iff_of_nodup (.of_map _ distinct) (.of_map _ distinct')).mpr fun e => ?_
  rw [mem_entries_iff distinct, mem_entries_iff distinct', same]

/-- The answers of a registry do not depend on anything else. -/
theorem answer_congr (same : ∀ model level, r.get? model level = r'.get? model level)
    (level number : UInt8) (seed : Octets) :
    r.answer level number seed = r'.answer level number seed := by
  simp only [answer_eq, same]

end Registry

/-! ## Entries in another order -/

theorem RegistryEntry.pair_of_ofSecret {model : EcuModel} {level : UInt8} {algorithm : Algorithm}
    {secret : Octets} {x : RegistryEntry} (h : ofSecret model level algorithm secret = .ok x) :
    x.pair = (model, level) := by
  unfold ofSecret at h
  split at h
  · cases h
  · split at h
    · cases h
      rfl
    · cases h

namespace SecretEntry

/-- Whether an entry is for this pair. -/
def isFor (model : EcuModel) (level : UInt8) (e : SecretEntry) : Bool :=
  EcuModel.ofName? e.model.toList = some model ∧ e.level = level

/-- The same entries in another order, but those for one pair in the same one. -/
structure Rearranged (entries others : List SecretEntry) : Prop where
  perm : entries.Perm others
  sameOrder : ∀ model level, entries.filter (isFor model level) = others.filter (isFor model level)

variable {entries others : List SecretEntry} {given given' : List RegistryEntry}
  {model : EcuModel} {level : UInt8}

/-- Neighbours that are for different pairs can change places. -/
theorem rearranged_swap {a b : SecretEntry} (rest : List SecretEntry)
    (differ : ∀ model level, a.isFor model level = true → b.isFor model level = false) :
    Rearranged (a :: b :: rest) (b :: a :: rest) := by
  refine ⟨.swap b a rest, fun model level => ?_⟩
  cases ha : a.isFor model level with
  | false => simp only [List.filter_cons, ha, Bool.false_eq_true, if_false]
  | true => simp [ha, differ model level ha]

/-- What an entry sets is for its pair. -/
theorem isFor_of_setting {e : SecretEntry} {x : RegistryEntry} (h : e.setting = .ok x) :
    e.isFor model level = decide (x.pair = (model, level)) := by
  unfold setting EcuModel.parse at h
  cases hname : EcuModel.ofName? e.model.toList with
  | none =>
    rw [hname] at h
    cases h
  | some named =>
    cases hread : Hex.read (Text.trim e.secret) with
    | error fault =>
      rw [hname, hread] at h
      cases h
    | ok secret =>
      rw [hname, hread] at h
      rw [RegistryEntry.pair_of_ofSecret h]
      simp [isFor, hname]

theorem map_setting_of_mapM (h : entries.mapM setting = .ok given) :
    entries.map setting = given.map .ok := by
  induction entries generalizing given with
  | nil =>
    cases h
    rfl
  | cons e entries ih =>
    rw [List.mapM_cons] at h
    cases he : e.setting with
    | error fault =>
      rw [he] at h
      cases h
    | ok first =>
      cases hall : entries.mapM setting with
      | error fault =>
        rw [he, hall] at h
        cases h
      | ok rest =>
        rw [he, hall] at h
        cases h
        rw [List.map_cons, List.map_cons, he, ih hall]

theorem filter_setting (h : entries.map setting = given.map .ok) (model : EcuModel)
    (level : UInt8) :
    (entries.filter (isFor model level)).map setting =
      (given.filter fun x => x.pair = (model, level)).map .ok := by
  induction entries generalizing given with
  | nil =>
    obtain rfl := List.map_eq_nil_iff.mp h.symm
    rfl
  | cons e entries ih =>
    obtain ⟨x, rest, rfl, he, hrest⟩ := List.map_eq_cons_iff.mp h.symm
    have hfor : e.isFor model level = decide (x.pair = (model, level)) := isFor_of_setting he.symm
    have hothers := ih hrest.symm
    rw [List.filter_cons, List.filter_cons, hfor]
    split
    · rw [List.map_cons, List.map_cons, hothers, he]
    · exact hothers

/-- What is set last for a pair does not depend on the order of entries for different pairs. -/
theorem Rearranged.lastFor_eq (h : Rearranged entries others)
    (hgiven : entries.mapM setting = .ok given) (hgiven' : others.mapM setting = .ok given')
    (model : EcuModel) (level : UInt8) :
    lastFor given (model, level) = lastFor given' (model, level) := by
  have hsame := filter_setting (map_setting_of_mapM hgiven) model level
  rw [h.sameOrder, filter_setting (map_setting_of_mapM hgiven')] at hsame
  have hinjective : Function.Injective (Except.ok : RegistryEntry → Except SeedKeyError _) :=
    fun _ _ => Except.ok.inj
  unfold lastFor
  rw [List.map_injective_iff.mpr hinjective hsame]

/-- Entries in another order are all in order, or some are not. -/
theorem Rearranged.exists_iff (h : Rearranged entries others) :
    (∃ given, entries.mapM setting = .ok given) ↔ ∃ given, others.mapM setting = .ok given := by
  simp only [exists_mapM_setting_iff, h.perm.mem_iff]

/-- The pairs that are set are those that the entries are for. -/
theorem mem_pairs_iff (h : entries.mapM setting = .ok given) :
    (model, level) ∈ given.map (·.pair) ↔ ∃ e ∈ entries, e.isFor model level = true := by
  have hnone : entries.filter (isFor model level) = [] ↔
      given.filter (fun x => x.pair = (model, level)) = [] := by
    rw [← List.map_eq_nil_iff (f := setting), filter_setting (map_setting_of_mapM h),
      List.map_eq_nil_iff]
  simpa [List.filter_eq_nil_iff] using (not_congr hnone).symm

end SecretEntry

namespace Registry

variable {r r' : Registry} {entries others : List SecretEntry}

theorem exists_ofEntries_iff :
    (∃ r, ofEntries entries = .ok r) ↔ ∃ given, entries.mapM SecretEntry.setting = .ok given := by
  rw [ofEntries_eq]
  cases entries.mapM SecretEntry.setting with
  | error fault => exact iff_of_false nofun nofun
  | ok given => exact iff_of_true ⟨_, rfl⟩ ⟨_, rfl⟩

/-- The registry of a configuration holds what its entries set. -/
theorem holds_of_ofEntries (h : ofEntries entries = .ok r) :
    ∃ given, entries.mapM SecretEntry.setting = .ok given ∧ r.Holds given := by
  rw [ofEntries_eq] at h
  cases hgiven : entries.mapM SecretEntry.setting with
  | error fault =>
    rw [hgiven] at h
    cases h
  | ok given =>
    rw [hgiven] at h
    cases h
    exact ⟨given, rfl, holds_empty.putAll given⟩

/-- The rows of a listing: each pair that is set by an entry, once and in order, with the transform
that answers for it. -/
structure Listing (entries : List SecretEntry) (r : Registry) (rows : List RegistryEntry) :
    Prop where
  text : r.text = "SeedKeyRegistry \x7b algorithms: [" ++
    ", ".intercalate (rows.map RegistryEntry.text) ++ "] \x7d"
  sorted : rows.Pairwise fun a b => a.rank ≤ b.rank
  once : (rows.map (·.pair)).Nodup
  complete : ∀ model level, (model, level) ∈ rows.map (·.pair) ↔
    ∃ e ∈ entries, e.isFor model level = true
  inForce : ∀ e ∈ rows, r.get? e.model e.level = some e.transform

theorem listing_of_ofEntries (h : ofEntries entries = .ok r) : Listing entries r r.listed := by
  obtain ⟨given, hgiven, holds⟩ := holds_of_ofEntries h
  have hpairs := r.listed_perm.map (·.pair)
  refine ⟨rfl, r.listed_sorted, hpairs.nodup_iff.mpr holds.distinct, fun model level => ?_,
    fun e he => ?_⟩
  · rw [hpairs.mem_iff, ← isSome_get?, holds.last, Option.isSome_map, isSome_lastFor]
    exact SecretEntry.mem_pairs_iff hgiven
  · exact (mem_entries_iff holds.distinct).mp (r.listed_perm.mem_iff.mp he)

/-- Of a configuration only the order of the entries for one pair makes a difference. In another
order of the others it is in order or not just as before, and the registry answers the same and
is listed the same. -/
theorem entry_order_immaterial (h : SecretEntry.Rearranged entries others) :
    ((∃ r, ofEntries entries = .ok r) ↔ ∃ r, ofEntries others = .ok r) ∧
      ∀ r r', ofEntries entries = .ok r → ofEntries others = .ok r' →
        (∀ level number seed, r.answer level number seed = r'.answer level number seed) ∧
          r.size = r'.size ∧ r.text = r'.text ∧
          ∃ rows, Listing entries r rows ∧ Listing others r' rows := by
  refine ⟨?_, fun r r' hr hr' => ?_⟩
  · rw [exists_ofEntries_iff, exists_ofEntries_iff]
    exact h.exists_iff
  obtain ⟨given, hgiven, holds⟩ := holds_of_ofEntries hr
  obtain ⟨given', hgiven', holds'⟩ := holds_of_ofEntries hr'
  have hsame : ∀ model level, r.get? model level = r'.get? model level := by
    intro model level
    rw [holds.last, holds'.last, h.lastFor_eq hgiven hgiven']
  have hperm : r.entries.Perm r'.entries := entries_perm holds.distinct holds'.distinct hsame
  have hlisted : r.listed = r'.listed := listed_eq_of_perm holds.distinct hperm
  have hlisting := listing_of_ofEntries hr
  have hlisting' := listing_of_ofEntries hr'
  refine ⟨answer_congr hsame, hperm.length_eq, ?_, r.listed, hlisting, ?_⟩
  · rw [hlisting.text, hlisting'.text, hlisted]
  · rw [hlisted]
    exact hlisting'

/-- Entries for three pairs, one of which is set twice. -/
def contested : List SecretEntry :=
  [⟨" d31l ", 1, .xor, "ff"⟩, ⟨"D31X", 3, .sha256, "c0ffee"⟩, ⟨"D31H", 5, .xor, "00"⟩,
    ⟨"d31h", 5, .sha256, "00"⟩]

/-- The first two have changed places. -/
def contestedOtherwise : List SecretEntry :=
  [⟨"D31X", 3, .sha256, "c0ffee"⟩, ⟨" d31l ", 1, .xor, "ff"⟩, ⟨"D31H", 5, .xor, "00"⟩,
    ⟨"d31h", 5, .sha256, "00"⟩]

theorem contested_rearranged : SecretEntry.Rearranged contested contestedOtherwise := by
  refine SecretEntry.rearranged_swap _ fun model level hfirst => ?_
  obtain ⟨hmodel, -⟩ : some EcuModel.d31l = some model ∧ _ := of_decide_eq_true hfirst
  cases hmodel
  rfl

/-- The two registries keep their entries in different orders, and are listed alike. -/
theorem contested_immaterial :
    ∃ r r', ofEntries contested = .ok r ∧ ofEntries contestedOtherwise = .ok r' ∧
      r.entries ≠ r'.entries ∧ r.size = r'.size ∧ r.text = r'.text ∧
      r'.text = "SeedKeyRegistry \x7b algorithms: [(\"D31H\", 5, \"sha256\"), " ++
        "(\"D31L\", 1, \"xor\"), (\"D31X\", 3, \"sha256\")] \x7d" := by
  obtain ⟨-, same⟩ := entry_order_immaterial contested_rearranged
  have hr : ofEntries contested = .ok ⟨[⟨.d31h, 5, .sha256, [0x00], by decide⟩,
      ⟨.d31x, 3, .sha256, [0xC0, 0xFF, 0xEE], by decide⟩, ⟨.d31l, 1, .xor, [0xFF], by decide⟩]⟩ :=
    rfl
  have hr' : ofEntries contestedOtherwise = .ok ⟨[⟨.d31h, 5, .sha256, [0x00], by decide⟩,
      ⟨.d31l, 1, .xor, [0xFF], by decide⟩, ⟨.d31x, 3, .sha256, [0xC0, 0xFF, 0xEE], by decide⟩]⟩ :=
    rfl
  obtain ⟨-, hsize, htext, -⟩ := same _ _ hr hr'
  refine ⟨_, _, hr, hr', by decide, hsize, htext, ?_⟩
  unfold text
  rw [List.mergeSort_of_pairwise (by decide)]
  rfl

end Registry
end Doip
