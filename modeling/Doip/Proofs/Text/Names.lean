import Doip.DataIdentifier
import Doip.Proofs.Text.Spelling
import Doip.Proofs.Text.Trimming
import Doip.Security.Error

/-! # How models and categories are named

A model goes by its short name, a category by its name or its number. What reading a text comes to
is said here by what the text spells without the blanks around it (`EcuModel.Read`,
`AppCategory.Read`): each text has just one result. -/
namespace Doip
open Text

/-! ## Models -/

namespace EcuModel

/-- What the text comes to that is `s` without the blanks around it. -/
inductive Read (text : String) (s : List Char) : Except SeedKeyError EcuModel → Prop
  | named {m : EcuModel} (name : SameButCase s m.shortName.toList) : Read text s (.ok m)
  | unknown (nameless : ∀ m : EcuModel, ¬ SameButCase s m.shortName.toList) :
      Read text s (.error (.unknownModel text))

theorem ofName?_eq_some_iff {text : List Char} {m : EcuModel} :
    ofName? text = some m ↔ SameButCase (trimChars text) m.shortName.toList := by
  have hupper : m.shortName.toList.map Char.toUpper = m.shortName.toList := by
    cases m <;> rfl
  rw [← map_toUpper_eq_iff, hupper]
  constructor
  · intro h
    simpa [eq_comm] using List.find?_some h
  · intro h
    rw [ofName?, h]
    cases m <;> rfl

theorem not_named_of_spells {s : List Char} {n : Nat} (h : Spells 10 s n) (m : EcuModel) :
    ¬ SameButCase s m.shortName.toList := by
  refine not_sameButCase_of_spells h fun first hfirst => ?_
  cases m <;> cases hfirst <;> decide

theorem parse_of_read {text : String} {r : Except SeedKeyError EcuModel}
    (h : Read text (trimChars text.toList) r) : parse text = r := by
  unfold parse
  cases h with
  | named name => rw [ofName?_eq_some_iff.mpr name]
  | unknown nameless =>
    have hnone : ofName? text.toList = none :=
      Option.eq_none_iff_forall_ne_some.mpr fun m hm =>
        nameless m (ofName?_eq_some_iff.mp hm)
    rw [hnone]

/-- Each text comes to something. -/
theorem exists_read (text : String) (s : List Char) : ∃ r, Read text s r := by
  by_cases hname : ∃ m : EcuModel, SameButCase s m.shortName.toList
  · obtain ⟨m, hm⟩ := hname
    exact ⟨_, .named hm⟩
  · exact ⟨_, .unknown (not_exists.mp hname)⟩

theorem parse_eq_iff {text : String} {r : Except SeedKeyError EcuModel} :
    parse text = r ↔ Read text (trimChars text.toList) r := by
  refine ⟨?_, parse_of_read⟩
  rintro rfl
  obtain ⟨r, hr⟩ := exists_read text (trimChars text.toList)
  rwa [parse_of_read hr]

end EcuModel

/-! ## Categories -/

namespace AppCategory

/-- What `s` comes to, a text without blanks around it. Numbers that are too great for an octet are
unknown, as any other text. -/
inductive Read (s : List Char) : Except Failure AppCategory → Prop
  | number {c : AppCategory} (spelled : Spells 10 s c.number.toNat) : Read s (.ok c)
  | name {c : AppCategory} (named : SameButCase s c.name.toList) : Read s (.ok c)
  | unassigned {n : Nat} (spelled : Spells 10 s n) (low : 17 ≤ n) (high : n ≤ 255) :
      Read s (.error (.convert ("no app category with value " ++ toString n)))
  | unknown (numberless : ∀ n ≤ 255, ¬ Spells 10 s n)
      (nameless : ∀ c : AppCategory, ¬ SameButCase s c.name.toList) :
      Read s (.error (.invalidArgument ("unknown app category '" ++ String.ofList s ++ "'")))

variable {c : AppCategory} {n : Nat} {s : List Char} {text : String}

theorem number_le (c : AppCategory) : c.number.toNat ≤ 16 := by
  cases c <;> decide

theorem ofNumber_number (c : AppCategory) : ofNumber c.number.toNat = .ok c := by
  cases c <;> rfl

theorem exists_number (h : n < 17) : ∃ c : AppCategory, c.number.toNat = n := by
  have hall : ∀ n < 17, ∃ c ∈ all, c.number.toNat = n := by decide
  obtain ⟨c, -, hc⟩ := hall n h
  exact ⟨c, hc⟩

theorem ofNumber_of_unassigned (h : 17 ≤ n) :
    ofNumber n = .error (.convert ("no app category with value " ++ toString n)) := by
  have hnone : all[n]? = none := List.getElem?_eq_none h
  rw [ofNumber, hnone]

/-- The category of this name. -/
def ofName? (s : List Char) : Option AppCategory :=
  all.find? fun c => c.name.toList.map Char.toLower == s.map Char.toLower

theorem ofName?_eq_some_iff : ofName? s = some c ↔ SameButCase s c.name.toList := by
  rw [← map_toLower_eq_iff]
  constructor
  · intro h
    have hsame := List.find?_some h
    exact (beq_iff_eq.mp hsame).symm
  · intro h
    rw [ofName?, h]
    cases c <;> rfl

theorem not_named_of_spells (h : Spells 10 s n) (c : AppCategory) :
    ¬ SameButCase s c.name.toList := by
  refine not_sameButCase_of_spells h fun first hfirst => ?_
  cases c <;> cases hfirst <;> decide

theorem parse_of_spells (h : Spells 10 (trimChars text.toList) n) (hn : n ≤ 255) :
    parse text = ofNumber n := by
  have hread := (readNumeral_eq_ok_iff (by decide)).mpr ⟨h, hn⟩
  rw [parse, hread]

theorem parse_of_numberless (h : ∀ n ≤ 255, ¬ Spells 10 (trimChars text.toList) n) :
    parse text = match ofName? (trimChars text.toList) with
      | some c => .ok c
      | none => .error (.invalidArgument
          ("unknown app category '" ++ String.ofList (trimChars text.toList) ++ "'")) := by
  rw [parse]
  cases hread : readNumeral 10 255 (trimChars text.toList) with
  | ok n =>
    obtain ⟨hn, hle⟩ := (readNumeral_eq_ok_iff (by decide)).mp hread
    exact absurd hn (h n hle)
  | error fault => rfl

theorem parse_of_read {r : Except Failure AppCategory} (h : Read (trimChars text.toList) r) :
    parse text = r := by
  cases h with
  | @number c spelled =>
    have hle := number_le c
    rw [parse_of_spells spelled (by omega), ofNumber_number]
  | @name c named =>
    have hnumberless : ∀ n ≤ 255, ¬ Spells 10 (trimChars text.toList) n :=
      fun n _ hn => not_named_of_spells hn c named
    rw [parse_of_numberless hnumberless, ofName?_eq_some_iff.mpr named]
  | unassigned spelled low high =>
    rw [parse_of_spells spelled high, ofNumber_of_unassigned low]
  | unknown numberless nameless =>
    have hnone : ofName? (trimChars text.toList) = none :=
      Option.eq_none_iff_forall_ne_some.mpr fun c hc => nameless c (ofName?_eq_some_iff.mp hc)
    rw [parse_of_numberless numberless, hnone]

/-- Each text comes to something. -/
theorem exists_read (s : List Char) : ∃ r, Read s r := by
  by_cases hnumber : ∃ n ≤ 255, Spells 10 s n
  · obtain ⟨n, hn, hspells⟩ := hnumber
    rcases Nat.lt_or_ge n 17 with hlow | hlow
    · obtain ⟨c, rfl⟩ := exists_number hlow
      exact ⟨_, .number hspells⟩
    · exact ⟨_, .unassigned hspells hlow hn⟩
  · by_cases hname : ∃ c : AppCategory, SameButCase s c.name.toList
    · obtain ⟨c, hc⟩ := hname
      exact ⟨_, .name hc⟩
    · exact ⟨_, .unknown (by simpa using hnumber) (not_exists.mp hname)⟩

theorem parse_eq_iff {r : Except Failure AppCategory} :
    parse text = r ↔ Read (trimChars text.toList) r := by
  refine ⟨?_, parse_of_read⟩
  rintro rfl
  obtain ⟨r, hr⟩ := exists_read (trimChars text.toList)
  rwa [parse_of_read hr]

end AppCategory

/-- A text names a model or a category just as it is spelled without the blanks around it. The
error of a model quotes the text with its blanks, the one of a category without them. -/
theorem names_read_by_grammar {text : String} {s : List Char} (trimmed : Trimmed text.toList s) :
    (∀ r, EcuModel.parse text = r ↔ EcuModel.Read text s r) ∧
      ∀ r, AppCategory.parse text = r ↔ AppCategory.Read s r := by
  rw [← trimChars_eq_iff] at trimmed
  subst trimmed
  exact ⟨fun _ => EcuModel.parse_eq_iff, fun _ => AppCategory.parse_eq_iff⟩

/-- The greatest number that is taken for one, between blanks that are not ASCII. -/
theorem padded_number_read :
    Trimmed "\u00a0+0255\u3000".toList "+0255".toList ∧
    EcuModel.parse "\u00a0+0255\u3000" = .error (.unknownModel "\u00a0+0255\u3000") ∧
    AppCategory.parse "\u00a0+0255\u3000" = .error (.convert "no app category with value 255") := by
  have trimmed : Trimmed "\u00a0+0255\u3000".toList "+0255".toList :=
    trimChars_eq_iff.mp (by decide)
  have spelled : Spells 10 "+0255".toList 255 :=
    ((readNumeral_eq_ok_iff (by decide)).mp
      (show readNumeral 10 255 "+0255".toList = .ok 255 by decide)).1
  obtain ⟨model, category⟩ := names_read_by_grammar trimmed
  exact ⟨trimmed, (model _).mpr (.unknown (EcuModel.not_named_of_spells spelled)),
    (category _).mpr (.unassigned spelled (by decide) (by decide))⟩

end Doip
