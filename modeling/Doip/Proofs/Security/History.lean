import Doip.Proofs.Security.Registry
import Doip.Proofs.Security.Transform
import Doip.Security.History

/-! # The last setting of a pair counts

The steps of a process are read as a journal of what they set. A step that is refused sets nothing,
and a configuration starts the journal over. The registry holds the journal after every history
(`holds_after`), and its answers can be told from the journal alone (`answer_eq_iff`). -/
namespace Doip
open Text

/-! ## Keys -/

namespace Transform

/-- What a key is computed from. With its length this leaves no choice. -/
inductive Makes (t : Transform) (level : UInt8) (seed key : Octets) : Prop where
  | combined (algorithm : t.algorithm = .xor) (octets : Combined t.secret seed key)
  | digested (algorithm : t.algorithm = .sha256)
    (start : key <+: Sha256.digest (t.secret ++ [level] ++ seed))

theorem makes_key (t : Transform) (level : UInt8) {seed : Octets} (h : seed.length = seedLength) :
    t.Makes level seed (t.key level seed) := by
  unfold key
  cases halgorithm : t.algorithm with
  | xor => exact .combined halgorithm (combined_xorKey t.secret_ne_nil h)
  | sha256 => exact .digested halgorithm (digestKey_prefix_digest t.secret level seed)

end Transform

/-! ## Answers -/

namespace EcuModel

theorem ofNumber?_eq_some {n : UInt8} {model : EcuModel} :
    ofNumber? n = some model ↔ model.number = n := by
  constructor
  · intro h
    simpa using List.find?_some h
  · rintro rfl
    cases model <;> rfl

theorem number_injective : Function.Injective number := by
  intro a b h
  exact Option.some.inj ((ofNumber?_eq_some.mpr h).symm.trans (ofNumber?_eq_some.mpr rfl))

theorem exists_number {n : UInt8} :
    (∃ model : EcuModel, model.number = n) ↔ 1 ≤ n.toNat ∧ n.toNat ≤ 6 := by
  constructor
  · rintro ⟨model, rfl⟩
    cases model <;> decide
  · rintro ⟨hleast, hmost⟩
    have hnumber : n.toNat = 1 ∨ n.toNat = 2 ∨ n.toNat = 3 ∨ n.toNat = 4 ∨ n.toNat = 5 ∨
        n.toNat = 6 := by omega
    simp only [← UInt8.toNat_inj]
    rcases hnumber with h | h | h | h | h | h <;> rw [h]
    exacts [⟨d31l, rfl⟩, ⟨d31f25, rfl⟩, ⟨d31l24, rfl⟩, ⟨d21l, rfl⟩, ⟨d31h, rfl⟩, ⟨d31x, rfl⟩]

end EcuModel

/-- The levels that ask for a seed. -/
def SeedLevel (level : UInt8) : Prop := level.toNat % 2 = 1 ∧ level.toNat ≤ 0x41

theorem isSeedLevel_iff {level : UInt8} : isSeedLevel level = true ↔ SeedLevel level := by
  simp [isSeedLevel, SeedLevel]

/-- What answers a seed when the pairs were set as the journal says. -/
inductive Answered (journal : List RegistryEntry) (level number : UInt8) (seed : Octets) :
    Except SeedKeyError Octets → Prop where
  | invalidSeedLength (length : seed.length ≠ 16) :
    Answered journal level number seed (.error (.invalidSeedLength 16 seed.length))
  | unknownModel (length : seed.length = 16) (unknown : ∀ model : EcuModel, model.number ≠ number) :
    Answered journal level number seed (.error (.unknownModel (toString number.toNat)))
  | invalidLevel {model : EcuModel} (length : seed.length = 16) (known : model.number = number)
      (invalid : ¬SeedLevel level) :
    Answered journal level number seed (.error (.invalidLevel level))
  | noAlgorithm {model : EcuModel} (length : seed.length = 16) (known : model.number = number)
      (valid : SeedLevel level) (unset : lastFor journal (model, level) = none) :
    Answered journal level number seed (.error (.noAlgorithm model level))
  | key {model : EcuModel} {e : RegistryEntry} (length : seed.length = 16)
      (known : model.number = number) (valid : SeedLevel level)
      (set : lastFor journal (model, level) = some e) :
    Answered journal level number seed (.ok (e.transform.key level seed))

section
variable {r : Registry} {journal : List RegistryEntry} {level number : UInt8} {seed : Octets}
  {result : Except SeedKeyError Octets}

theorem Registry.answer_eq (r : Registry) (level number : UInt8) (seed : Octets) :
    r.answer level number seed =
      if seed.length = 16 then
        match EcuModel.ofNumber? number with
        | some model =>
          if isSeedLevel level then
            match r.get? model level with
            | some t => .ok (t.key level seed)
            | none => .error (.noAlgorithm model level)
          else .error (.invalidLevel level)
        | none => .error (.unknownModel (toString number.toNat))
      else .error (.invalidSeedLength 16 seed.length) := by
  unfold Registry.answer EcuModel.ofNumber
  by_cases length : seed.length = 16
  · simp only [length, seedLength, ne_eq, not_true_eq_false, if_false, if_true]
    cases EcuModel.ofNumber? number with
    | none => rfl
    | some model =>
      simp only [bind, Except.bind]
      cases isSeedLevel level with
      | false => rfl
      | true => cases r.get? model level <;> rfl
  · simp only [length, seedLength, ne_eq, not_false_eq_true, if_true, if_false]
    rfl

theorem Answered.answer_eq (holds : r.Holds journal)
    (h : Answered journal level number seed result) : r.answer level number seed = result := by
  rw [Registry.answer_eq]
  have hlast := holds.last
  cases h with
  | invalidSeedLength length => exact if_neg length
  | unknownModel length unknown =>
    have hnone : EcuModel.ofNumber? number = none :=
      Option.eq_none_iff_forall_ne_some.mpr fun model hmodel =>
        unknown model (EcuModel.ofNumber?_eq_some.mp hmodel)
    rw [if_pos length, hnone]
  | invalidLevel length known invalid =>
    rw [if_pos length, EcuModel.ofNumber?_eq_some.mpr known]
    exact if_neg (isSeedLevel_iff.not.mpr invalid)
  | noAlgorithm length known valid unset =>
    rw [if_pos length, EcuModel.ofNumber?_eq_some.mpr known]
    dsimp only
    rw [if_pos (isSeedLevel_iff.mpr valid), hlast, unset]
    rfl
  | key length known valid set =>
    rw [if_pos length, EcuModel.ofNumber?_eq_some.mpr known]
    dsimp only
    rw [if_pos (isSeedLevel_iff.mpr valid), hlast, set]
    rfl

theorem exists_answered (journal : List RegistryEntry) (level number : UInt8) (seed : Octets) :
    ∃ result, Answered journal level number seed result := by
  by_cases length : seed.length = 16
  · by_cases known : ∃ model : EcuModel, model.number = number
    · obtain ⟨model, known⟩ := known
      by_cases valid : SeedLevel level
      · cases set : lastFor journal (model, level) with
        | none => exact ⟨_, .noAlgorithm length known valid set⟩
        | some e => exact ⟨_, .key length known valid set⟩
      · exact ⟨_, .invalidLevel length known valid⟩
    · exact ⟨_, .unknownModel length (not_exists.mp known)⟩
  · exact ⟨_, .invalidSeedLength length⟩

theorem answer_eq_iff (holds : r.Holds journal) :
    r.answer level number seed = result ↔ Answered journal level number seed result := by
  constructor
  · rintro rfl
    obtain ⟨result, h⟩ := exists_answered journal level number seed
    rwa [h.answer_eq holds]
  · exact Answered.answer_eq holds

/-- There is a key for the pairs that were ever set. -/
theorem exists_key_iff :
    (∃ key, Answered journal level number seed (.ok key)) ↔
      seed.length = 16 ∧ (1 ≤ number.toNat ∧ number.toNat ≤ 6) ∧ SeedLevel level ∧
        ∃ e ∈ journal, e.model.number = number ∧ e.level = level := by
  constructor
  · rintro ⟨key, h⟩
    cases h with
    | key length known valid set =>
      obtain ⟨hmem, hpair⟩ := of_lastFor set
      obtain ⟨rfl, rfl⟩ := RegistryEntry.pair_eq.mp hpair
      exact ⟨length, EcuModel.exists_number.mp ⟨_, known⟩, valid, _, hmem, known, rfl⟩
  · rintro ⟨length, -, valid, e, hmem, known, rfl⟩
    have hset : (lastFor journal e.pair).isSome := isSome_lastFor.mpr (List.mem_map_of_mem hmem)
    obtain ⟨last, set⟩ := Option.isSome_iff_exists.mp hset
    exact ⟨_, .key length known valid set⟩

/-- Other pairs make no difference. -/
theorem Answered.of_same {others : List RegistryEntry} {model : EcuModel}
    (h : Answered journal level model.number seed result)
    (same : lastFor journal (model, level) = lastFor others (model, level)) :
    Answered others level model.number seed result := by
  cases h with
  | invalidSeedLength length => exact .invalidSeedLength length
  | unknownModel length unknown => exact .unknownModel length unknown
  | invalidLevel length known invalid => exact .invalidLevel length known invalid
  | noAlgorithm length known valid unset =>
    cases EcuModel.number_injective known
    exact .noAlgorithm length known valid (same.symm.trans unset)
  | key length known valid set =>
    cases EcuModel.number_injective known
    exact .key length known valid (same.symm.trans set)

theorem Answered.length_key {key : Octets} (h : Answered journal level number seed (.ok key)) :
    key.length = 16 := by
  cases h with
  | key length => exact Transform.length_key _ _ length

/-- A key is computed from what was set last for the pair. -/
theorem Answered.exists_makes {model : EcuModel} {key : Octets}
    (h : Answered journal level model.number seed (.ok key)) :
    ∃ e, lastFor journal (model, level) = some e ∧ e.transform.Makes level seed key := by
  cases h with
  | key length known valid set =>
    cases EcuModel.number_injective known
    exact ⟨_, set, Transform.makes_key _ level length⟩

end

/-! ## Settings -/

namespace RegistryEntry

theorem exists_ofSecret_iff {model : EcuModel} {level : UInt8} {algorithm : Algorithm}
    {secret : Octets} :
    (∃ e, ofSecret model level algorithm secret = .ok e) ↔ secret ≠ [] ∧ SeedLevel level := by
  rw [← isSeedLevel_iff]
  unfold ofSecret
  split
  next hempty => simp [hempty]
  next hsome =>
    split
    next hlevel => simp [hsome, hlevel]
    next hlevel => simp [hlevel]

end RegistryEntry

/-- Everything about a setting is in order. -/
structure SoundSetting (model : String) (level : UInt8) (secret : Octets) : Prop where
  known : (EcuModel.ofName? model.toList).isSome
  nonempty : secret ≠ []
  level : SeedLevel level

theorem exists_ofNamed_iff {model : String} {level : UInt8} {algorithm : Algorithm}
    {secret : Octets} :
    (∃ e, RegistryEntry.ofNamed model level algorithm secret = .ok e) ↔
      SoundSetting model level secret := by
  unfold RegistryEntry.ofNamed EcuModel.parse
  cases hmodel : EcuModel.ofName? model.toList with
  | none =>
    refine iff_of_false nofun fun sound => ?_
    have hknown := sound.known
    rw [hmodel] at hknown
    cases hknown
  | some known =>
    refine RegistryEntry.exists_ofSecret_iff.trans ⟨fun ⟨nonempty, level⟩ => ?_, fun sound => ?_⟩
    · exact ⟨Option.isSome_of_eq_some hmodel, nonempty, level⟩
    · exact ⟨sound.nonempty, sound.level⟩

/-- The same of an entry of a configuration. -/
def SecretEntry.Sound (e : SecretEntry) : Prop :=
  ∃ secret, Hex.read (trim e.secret) = .ok secret ∧ SoundSetting e.model e.level secret

theorem SecretEntry.setting_of_read {e : SecretEntry} {secret : Octets}
    (h : Hex.read (trim e.secret) = .ok secret) :
    e.setting = RegistryEntry.ofNamed e.model e.level e.algorithm secret := by
  rw [setting, h]
  rfl

theorem SecretEntry.exists_setting_iff {e : SecretEntry} :
    (∃ given, e.setting = .ok given) ↔ e.Sound := by
  cases hread : Hex.read (trim e.secret) with
  | error fault =>
    refine iff_of_false ?_ fun ⟨_, hsecret, _⟩ => nomatch hread.symm.trans hsecret
    rw [setting, hread]
    cases EcuModel.parse e.model <;> exact nofun
  | ok secret =>
    rw [setting_of_read hread, exists_ofNamed_iff]
    constructor
    · exact fun sound => ⟨secret, hread, sound⟩
    · rintro ⟨secret', hsecret, sound⟩
      cases hread.symm.trans hsecret
      exact sound

/-- A configuration is in order if all of its entries are, wherever they stand. -/
theorem exists_mapM_setting_iff {entries : List SecretEntry} :
    (∃ given, entries.mapM SecretEntry.setting = .ok given) ↔ ∀ e ∈ entries, e.Sound := by
  induction entries with
  | nil => simp [pure, Except.pure]
  | cons e entries ih =>
    rw [List.mapM_cons, List.forall_mem_cons, ← ih, ← SecretEntry.exists_setting_iff]
    cases e.setting with
    | error _ => exact iff_of_false nofun fun ⟨⟨_, h⟩, _⟩ => nomatch h
    | ok first =>
      cases entries.mapM SecretEntry.setting with
      | error _ => exact iff_of_false nofun fun ⟨_, _, h⟩ => nomatch h
      | ok others => exact iff_of_true ⟨_, rfl⟩ ⟨⟨_, rfl⟩, ⟨_, rfl⟩⟩

/-! ## Steps -/

namespace RegistryStep

/-- What has been set after a step, or why the step is refused. -/
def record (journal : List RegistryEntry) :
    RegistryStep → Except SeedKeyError (List RegistryEntry)
  | .register model level algorithm secret =>
    (RegistryEntry.ofNamed model level algorithm secret).map fun e => journal ++ [e]
  | .configure entries => entries.mapM SecretEntry.setting
  | .answer _ _ _ | .install | .answerInstalled _ _ _ => .ok journal

/-- The step is to set something. -/
def sets : RegistryStep → Bool
  | .register _ _ _ _ | .configure _ => true
  | .answer _ _ _ | .install | .answerInstalled _ _ _ => false

/-- The step is to set something, all of which is in order. -/
inductive Sound : RegistryStep → Prop where
  | register {model : String} {level : UInt8} {algorithm : Algorithm} {secret : Octets}
    (sound : SoundSetting model level secret) : Sound (.register model level algorithm secret)
  | configure {entries : List SecretEntry} (sound : ∀ e ∈ entries, e.Sound) :
    Sound (.configure entries)

variable {s : RegistryStep} {journal : List RegistryEntry}

theorem Sound.sets (sound : s.Sound) : s.sets = true := by
  cases sound <;> rfl

theorem record_of_query (query : s.sets = false) : s.record journal = .ok journal := by
  cases s with
  | register | configure => cases query
  | answer | install | answerInstalled => rfl

theorem exists_record_iff (hsets : s.sets = true) :
    (∃ given, s.record journal = .ok given) ↔ s.Sound := by
  cases s with
  | register model level algorithm secret =>
    have hsound : Sound (.register model level algorithm secret) ↔
        SoundSetting model level secret := ⟨fun | .register sound => sound, .register⟩
    rw [hsound, ← exists_ofNamed_iff, record]
    cases RegistryEntry.ofNamed model level algorithm secret with
    | error _ => exact iff_of_false nofun nofun
    | ok e => exact iff_of_true ⟨_, rfl⟩ ⟨e, rfl⟩
  | configure entries =>
    have hsound : Sound (.configure entries) ↔ ∀ e ∈ entries, e.Sound :=
      ⟨fun | .configure sound => sound, .configure⟩
    rw [hsound, record, exists_mapM_setting_iff]
  | answer | install | answerInstalled => cases hsets

end RegistryStep

namespace Registries

/-- What a step can do to registries and to the journal of what they hold. -/
inductive Stepped (r : Registries) (journal : List RegistryEntry) (s : RegistryStep) :
    Registries → RegistryOutcome → Prop where
  | done {own : Registry} {given : List RegistryEntry} (sets : s.sets = true)
    (recorded : s.record journal = .ok given) (holds : r.own.Holds journal → own.Holds given) :
    Stepped r journal s { r with own } .done
  | refused {error : SeedKeyError} (sets : s.sets = true)
    (recorded : s.record journal = .error error) : Stepped r journal s r (.refused error)
  | answered {outcome : RegistryOutcome} (query : s.sets = false) (other : outcome ≠ .done) :
    Stepped r journal s r outcome
  | installed {installed : Option Registry} {tookEffect : Bool} (query : s.sets = false) :
    Stepped r journal s { r with installed } (.installed tookEffect)

variable {r r' : Registries} {journal : List RegistryEntry} {s : RegistryStep}
  {outcome : RegistryOutcome} {error : SeedKeyError}

theorem stepped (r : Registries) (journal : List RegistryEntry) (s : RegistryStep) :
    Stepped r journal s (r.step s).1 (r.step s).2 := by
  cases s with
  | register model level algorithm secret =>
    unfold step
    dsimp only
    rw [Registry.registerNamed_eq]
    cases hsetting : RegistryEntry.ofNamed model level algorithm secret with
    | error error => exact .refused rfl (by rw [RegistryStep.record, hsetting]; rfl)
    | ok e => exact .done rfl (by rw [RegistryStep.record, hsetting]; rfl) fun h => h.put e
  | configure entries =>
    unfold step
    dsimp only
    rw [Registry.ofEntries_eq]
    cases hsettings : entries.mapM SecretEntry.setting with
    | error error => exact .refused rfl hsettings
    | ok given => exact .done rfl hsettings fun _ => Registry.holds_empty.putAll given
  | answer level model seed =>
    unfold step
    dsimp only
    split <;> exact .answered rfl nofun
  | answerInstalled level model seed =>
    unfold step
    dsimp only
    split <;> exact .answered rfl nofun
  | install => exact .installed rfl

theorem Stepped.holds (h : Stepped r journal s r' outcome) (before : r.own.Holds journal) :
    r'.own.Holds ((s.record journal).toOption.getD journal) := by
  cases h with
  | done _ recorded holds =>
    rw [recorded]
    exact holds before
  | refused _ recorded =>
    rw [recorded]
    exact before
  | answered query | installed query =>
    rw [RegistryStep.record_of_query query]
    exact before

theorem Stepped.done_iff (h : Stepped r journal s r' outcome) : outcome = .done ↔ s.Sound := by
  cases h with
  | done hsets recorded =>
    exact iff_of_true rfl ((RegistryStep.exists_record_iff hsets).mp ⟨_, recorded⟩)
  | refused hsets recorded =>
    refine iff_of_false nofun fun sound => ?_
    have hrecord : ∃ given, s.record journal = .ok given :=
      (RegistryStep.exists_record_iff hsets).mpr sound
    obtain ⟨given, hgiven⟩ := hrecord
    cases recorded.symm.trans hgiven
  | answered query other =>
    exact iff_of_false other fun sound => nomatch sound.sets.symm.trans query
  | installed query => exact iff_of_false nofun fun sound => nomatch sound.sets.symm.trans query

theorem Stepped.done_or_refused (h : Stepped r journal s r' outcome) (hsets : s.sets = true) :
    outcome = .done ∨ ∃ error, outcome = .refused error := by
  cases h with
  | done => exact .inl rfl
  | refused => exact .inr ⟨_, rfl⟩
  | answered query | installed query => cases hsets.symm.trans query

theorem Stepped.eq_of_refused (h : Stepped r journal s r' (.refused error)) : r' = r := by
  cases h <;> rfl

/-- The registries after several steps. -/
def after (steps : List RegistryStep) (r : Registries) : Registries :=
  steps.foldl (fun r s => (r.step s).1) r

theorem run_append (steps later : List RegistryStep) (r : Registries) :
    run r (steps ++ later) = run r steps ++ run (after steps r) later := by
  induction steps generalizing r with
  | nil => rfl
  | cons s steps ih => exact congrArg (r.step s :: ·) (ih (r.step s).1)

/-- What has been set after several steps: a configuration starts over, and a step that is refused
sets nothing. -/
def journalAfter (steps : List RegistryStep) (journal : List RegistryEntry) : List RegistryEntry :=
  steps.foldl (fun journal s => (s.record journal).toOption.getD journal) journal

theorem holds_after (steps : List RegistryStep) (before : r.own.Holds journal) :
    (after steps r).own.Holds (journalAfter steps journal) := by
  induction steps generalizing r journal with
  | nil => exact before
  | cons s steps ih => exact ih ((stepped r journal s).holds before)

/-! ## What counts -/

/-- A registry whose answers, and whose size, are those of the journal. -/
structure Reflects (own : Registry) (journal : List RegistryEntry) : Prop where
  answered : ∀ level number seed result,
    own.answer level number seed = result ↔ Answered journal level number seed result
  succeeds : ∀ level number seed, (∃ key, own.answer level number seed = .ok key) ↔
    seed.length = 16 ∧ (1 ≤ number.toNat ∧ number.toNat ≤ 6) ∧ SeedLevel level ∧
      ∃ e ∈ journal, e.model.number = number ∧ e.level = level
  keyLength : ∀ level number seed key, own.answer level number seed = .ok key → key.length = 16
  computed : ∀ level (model : EcuModel) seed key, own.answer level model.number seed = .ok key →
    ∃ e, lastFor journal (model, level) = some e ∧ e.transform.Makes level seed key
  size : own.size = (journal.map (·.pair)).toFinset.card

theorem reflects_of_holds {own : Registry} (holds : own.Holds journal) : Reflects own journal where
  answered _ _ _ _ := answer_eq_iff holds
  succeeds level number seed := by
    simp only [answer_eq_iff holds]
    exact exists_key_iff
  keyLength _ _ _ _ h := ((answer_eq_iff holds).mp h).length_key
  computed _ _ _ _ h := ((answer_eq_iff holds).mp h).exists_makes
  size := holds.size_eq

/-- After a history a step takes effect if all it is to set is in order. One that is refused is as
if it had not been made: what the later ones do is what they do without it. -/
structure Atomic (steps : List RegistryStep) (s : RegistryStep) : Prop where
  done : ((after steps initial).step s).2 = .done ↔ s.Sound
  refused : s.sets = true → ¬s.Sound → ∃ error, ((after steps initial).step s).2 = .refused error
  kept : ∀ error, ((after steps initial).step s).2 = .refused error → ∀ later,
    run initial (steps ++ s :: later) =
      run initial steps ++ (after steps initial, .refused error) :: run (after steps initial) later

theorem atomic (steps : List RegistryStep) (s : RegistryStep) : Atomic steps s where
  done := (stepped (after steps initial) [] s).done_iff
  refused hsets unsound := by
    have hstep := stepped (after steps initial) [] s
    exact (hstep.done_or_refused hsets).resolve_left fun done => unsound (hstep.done_iff.mp done)
  kept error h later := by
    have hstep := stepped (after steps initial) [] s
    rw [h] at hstep
    have hkept : (after steps initial).step s = (after steps initial, .refused error) :=
      Prod.ext hstep.eq_of_refused h
    rw [run_append, run, hkept]

/-- After every history the registry is what was set last for each pair, a step takes effect as a
whole or not at all, and what was set for other pairs makes no difference to an answer. -/
theorem last_setting_counts (steps : List RegistryStep) :
    Reflects (after steps initial).own (journalAfter steps []) ∧ (∀ s, Atomic steps s) ∧
      ∀ others model level,
        lastFor (journalAfter others []) (model, level) =
          lastFor (journalAfter steps []) (model, level) →
        ∀ seed, (after others initial).own.answer level model.number seed =
          (after steps initial).own.answer level model.number seed := by
  have hreflects : ∀ steps, Reflects (after steps initial).own (journalAfter steps []) :=
    fun steps => reflects_of_holds (holds_after steps Registry.holds_empty)
  refine ⟨hreflects steps, atomic steps, fun others model level same seed => ?_⟩
  have hanswered := ((hreflects steps).answered level model.number seed _).mp rfl
  exact ((hreflects others).answered level model.number seed _).mpr (hanswered.of_same same.symm)

/-- A configuration whose second entry is for a level that asks for no seed. -/
def halfBad : RegistryStep := .configure [⟨"D31X", 3, .xor, " ff "⟩, ⟨"D31X", 2, .xor, "ff"⟩]

/-- One pair is set twice, and between the two the bad configuration is refused. -/
def disputed : List RegistryStep :=
  [.register "d31l" 1 .xor [0xA5], halfBad, .register " D31L " 1 .xor [0x5A, 0x00]]

theorem disputed_settled :
    (after disputed initial).own.answer 1 1 (List.replicate 16 0) =
        .ok (List.replicate 8 [0x5A, 0x00]).flatten ∧
      (after disputed initial).own.answer 3 6 (List.replicate 16 0) =
        .error (.noAlgorithm .d31x 3) ∧
      (after disputed initial).own.size = 1 ∧
      run initial ([.register "d31l" 1 .xor [0xA5]] ++ [halfBad]) =
        run initial [.register "d31l" 1 .xor [0xA5]] ++
          [(after [.register "d31l" 1 .xor [0xA5]] initial, .refused (.invalidLevel 2))] ∧
      ∀ seed, (after [.register "D31L" 1 .xor [0x5A, 0x00]] initial).own.answer 1 1 seed =
        (after disputed initial).own.answer 1 1 seed := by
  obtain ⟨reflects, -, elsewhere⟩ := last_setting_counts disputed
  obtain ⟨-, atomic, -⟩ := last_setting_counts [.register "d31l" 1 .xor [0xA5]]
  have hfirst : SeedLevel 1 := ⟨rfl, by decide⟩
  have hthird : SeedLevel 3 := ⟨rfl, by decide⟩
  refine ⟨?_, ?_, reflects.size, (atomic halfBad).kept _ rfl [], elsewhere _ .d31l 1 rfl⟩
  · have hset : lastFor (journalAfter disputed []) (.d31l, 1) =
        some ⟨.d31l, 1, .xor, [0x5A, 0x00], by decide⟩ := rfl
    exact (reflects.answered 1 1 (List.replicate 16 0) _).mpr (.key rfl rfl hfirst hset)
  · exact (reflects.answered _ _ _ _).mpr (.noAlgorithm rfl rfl hthird rfl)

end Registries
end Doip
