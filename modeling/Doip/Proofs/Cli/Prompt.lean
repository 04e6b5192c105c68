import Doip.Cli.Job
import Doip.Proofs.Text.Names

/-! # Which line the prompt takes

What asking for a model comes to is said here by the lines of the input alone: lines that pick
nothing, each asked for and rejected, and then the first line that picks a model, or the end of the
input (`Asked`). There is one such course for each input, and it is the one that the prompt takes
(`askModel_eq_iff`), so that it ends on each input. -/
namespace Doip
open Text

theorem EcuModel.ofNumber?_ofNat {n : Nat} (hn : n ≤ 255) {m : EcuModel} :
    ofNumber? (.ofNat n) = some m ↔ n = m.number.toNat := by
  constructor
  · intro h
    have hnumber : m.number = .ofNat n := by simpa using List.find?_some h
    rw [hnumber, UInt8.toNat_ofNat']
    omega
  · rintro rfl
    cases m <;> rfl

namespace Cli

/-! ## What picks a model -/

/-- An answer is the number of the model or its name. -/
def Picks (answer : List Char) (m : EcuModel) : Prop :=
  Spells 10 answer m.number.toNat ∨ SameButCase answer m.shortName.toList

variable {answer line rest input : List Char} {m : EcuModel} {s : Selection}

/-- The model that an answer numbers. -/
def numbered? (answer : List Char) : Option EcuModel :=
  match readNumeral 10 255 answer with
  | .ok n => EcuModel.ofNumber? (.ofNat n)
  | .error _ => none

theorem pick?_eq (answer : List Char) :
    pick? answer = (numbered? answer).or (EcuModel.ofName? answer) := by
  rw [← Option.orElse_eq_or (f := fun _ => EcuModel.ofName? answer)]
  rfl

theorem numbered?_eq_some_iff : numbered? answer = some m ↔ Spells 10 answer m.number.toNat := by
  have hmax : m.number.toNat ≤ 255 := by cases m <;> decide
  have hread : readNumeral 10 255 answer = .ok m.number.toNat ↔
      Spells 10 answer m.number.toNat := by
    rw [readNumeral_eq_ok_iff (by decide), and_iff_left hmax]
  rw [← hread, numbered?]
  cases hcase : readNumeral 10 255 answer with
  | error fault => exact iff_of_false nofun nofun
  | ok n =>
    have hn := ((readNumeral_eq_ok_iff (by decide)).mp hcase).2
    rw [EcuModel.ofNumber?_ofNat hn, Except.ok.injEq]

theorem pick?_trimChars : pick? (trimChars line) = some m ↔ Picks (trimChars line) m := by
  rw [pick?_eq, Option.or_eq_some_iff, numbered?_eq_some_iff, EcuModel.ofName?_eq_some_iff,
    trimChars_trimChars]
  refine or_congr_right (and_iff_right_of_imp fun hname => ?_)
  refine Option.eq_none_iff_forall_ne_some.mpr fun other hother => ?_
  exact EcuModel.not_named_of_spells (numbered?_eq_some_iff.mp hother) m hname

theorem judge_of_picks (h : Picks (trimChars line) m) : judge line = .over (some m) := by
  rw [judge, pick?_trimChars.mpr h]

theorem judge_of_not_picks (h : ∀ m, ¬ Picks (trimChars line) m) :
    judge line = .rejected (String.ofList (trimChars line)) := by
  have hnone : pick? (trimChars line) = none :=
    Option.eq_none_iff_forall_ne_some.mpr fun m hm => h m (pick?_trimChars.mp hm)
  rw [judge, hnone]

/-! ## Lines -/

/-- The first line of an input, without its end, and what comes after it. Only the last line can
be without an end. -/
inductive FirstLine : List Char → List Char → List Char → Prop
  | ended {line rest : List Char} (inside : '\n' ∉ line) :
      FirstLine (line ++ '\n' :: rest) line rest
  | last {line : List Char} (inside : '\n' ∉ line) (nonempty : line ≠ []) :
      FirstLine line line []

/-- The first lines of an input, and what comes after them. -/
inductive Lines : List Char → List (List Char) → List Char → Prop
  | none (input : List Char) : Lines input [] input
  | cons {input line later rest : List Char} {lines : List (List Char)}
      (first : FirstLine input line later) (others : Lines later lines rest) :
      Lines input (line :: lines) rest

theorem FirstLine.nonempty (h : FirstLine input line rest) : input ≠ [] := by
  cases h with
  | ended inside => simp
  | last inside nonempty => exact nonempty

theorem FirstLine.splitLine_eq (h : FirstLine input line rest) :
    splitLine input = (line, rest) := by
  have hline : ∀ line : List Char, '\n' ∉ line → ∀ c ∈ line, decide (c ≠ '\n') = true :=
    fun line inside c hc => decide_eq_true fun h => inside (h ▸ hc)
  cases h with
  | ended inside =>
    simp only [splitLine, List.takeWhile_append_of_pos (hline _ inside),
      List.dropWhile_append_of_pos (hline _ inside)]
    simp
  | last inside nonempty =>
    simp only [splitLine, List.takeWhile_eq_self_iff.mpr (hline _ inside),
      List.dropWhile_eq_nil_iff.mpr (hline _ inside), List.tail_nil]

theorem firstLine_splitLine (h : input ≠ []) :
    FirstLine input (splitLine input).1 (splitLine input).2 := by
  have hinside : '\n' ∉ input.takeWhile (· ≠ '\n') := fun hmem => by
    simpa using List.mem_takeWhile_imp hmem
  have hsplit : input.takeWhile (· ≠ '\n') ++ input.dropWhile (· ≠ '\n') = input :=
    List.takeWhile_append_dropWhile
  unfold splitLine
  cases hrest : input.dropWhile (· ≠ '\n') with
  | nil =>
    rw [hrest, List.append_nil] at hsplit
    rw [hsplit] at hinside ⊢
    exact .last hinside h
  | cons c rest =>
    have hend : c = '\n' := by
      have hnot := List.head?_dropWhile_not (fun c : Char => decide (c ≠ '\n')) input
      rw [hrest] at hnot
      simpa using hnot
    subst hend
    have hended : FirstLine (input.takeWhile (· ≠ '\n') ++ '\n' :: rest)
        (input.takeWhile (· ≠ '\n')) rest := .ended hinside
    rw [← hrest, hsplit] at hended
    exact hended

/-! ## Asking -/

/-- A line that picks nothing is asked for and rejected. -/
def refusal (line : List Char) : List Utterance :=
  [.question, .rejection (String.ofList (trimChars line))]

/-- What asking comes to: lines that pick nothing, and then one that picks a model or the end of
the input. The last question stands alone, as nothing is said of a line that picks a model. -/
inductive Asked (input : List Char) : Selection → Prop
  | picked {refused : List (List Char)} {later line rest : List Char} {m : EcuModel}
      (lines : Lines input refused later)
      (refuses : ∀ l ∈ refused, ∀ m, ¬ Picks (trimChars l) m)
      (first : FirstLine later line rest) (picks : Picks (trimChars line) m) :
      Asked input ⟨some m, refused.flatMap refusal ++ [.question], rest⟩
  | ended {refused : List (List Char)} (lines : Lines input refused [])
      (refuses : ∀ l ∈ refused, ∀ m, ¬ Picks (trimChars l) m) :
      Asked input ⟨none, refused.flatMap refusal ++ [.question], []⟩

/-- A refused line before the others. -/
theorem Asked.refused (first : FirstLine input line rest)
    (refuses : ∀ m, ¬ Picks (trimChars line) m) (h : Asked rest s) :
    Asked input { s with said := refusal line ++ s.said } := by
  cases h with
  | picked lines others next picks =>
    exact .picked (.cons first lines) (List.forall_mem_cons.mpr ⟨refuses, others⟩) next picks
  | ended lines others =>
    exact .ended (.cons first lines) (List.forall_mem_cons.mpr ⟨refuses, others⟩)

theorem round_eq (first : FirstLine input line rest) : round input = (judge line, rest) := by
  rw [round, if_neg first.nonempty, first.splitLine_eq]

/-- A line that is read by itself, with its end, comes to the same as at the front of the input. -/
theorem round_append (first : FirstLine input line rest) {taken : List Char}
    (h : taken ++ rest = input) : (round taken).1 = (round input).1 := by
  rw [round_eq first]
  cases first with
  | @ended line rest inside =>
    have hsplit : line ++ '\n' :: rest = line ++ ['\n'] ++ rest := List.append_cons line '\n' rest
    have htaken : taken = line ++ ['\n'] := List.append_cancel_right (h.trans hsplit)
    rw [htaken, round_eq (.ended inside)]
  | last inside nonempty =>
    rw [List.append_nil] at h
    rw [h, round_eq (.last inside nonempty)]

theorem askModel_eq (input : List Char) :
    askModel input =
      match round input with
      | (.over model, rest) => ⟨model, [.question], rest⟩
      | (.rejected answer, rest) =>
        { askModel rest with
          said := .question :: .rejection answer :: (askModel rest).said } := by
  rw [askModel]
  split
  · rename_i h
    rw [h]
  · rename_i h
    rw [h]

theorem askModel_of_picks (first : FirstLine input line rest) (picks : Picks (trimChars line) m) :
    askModel input = ⟨some m, [.question], rest⟩ := by
  rw [askModel_eq, round_eq first, judge_of_picks picks]

theorem askModel_of_refuses (first : FirstLine input line rest)
    (refuses : ∀ m, ¬ Picks (trimChars line) m) :
    askModel input =
      { askModel rest with said := refusal line ++ (askModel rest).said } := by
  rw [askModel_eq, round_eq first, judge_of_not_picks refuses]
  rfl

theorem askModel_of_lines {refused : List (List Char)} {later : List Char}
    (lines : Lines input refused later)
    (refuses : ∀ l ∈ refused, ∀ m, ¬ Picks (trimChars l) m) :
    askModel input =
      { askModel later with said := refused.flatMap refusal ++ (askModel later).said } := by
  induction lines with
  | none => rfl
  | cons first _ ih =>
    obtain ⟨hline, hothers⟩ := List.forall_mem_cons.mp refuses
    rw [askModel_of_refuses first hline, ih hothers, List.flatMap_cons, List.append_assoc]

@[simp] theorem askModel_nil : askModel [] = ⟨none, [.question], []⟩ := askModel_eq []

/-- Each input has a course, which the prompt takes. -/
theorem asked_askModel (input : List Char) : Asked input (askModel input) := by
  by_cases hne : input = []
  · rw [hne, askModel_nil]
    exact .ended (.none []) nofun
  have first := firstLine_splitLine hne
  by_cases hpicks : ∃ m, Picks (trimChars (splitLine input).1) m
  · obtain ⟨m, hm⟩ := hpicks
    rw [askModel_of_picks first hm]
    exact .picked (.none input) nofun first hm
  · have hrefuses := not_exists.mp hpicks
    have := length_splitLine_lt hne
    rw [askModel_of_refuses first hrefuses]
    exact (asked_askModel (splitLine input).2).refused first hrefuses
termination_by input.length

/-- No input has two courses. -/
theorem askModel_eq_iff : askModel input = s ↔ Asked input s := by
  refine ⟨fun h => h ▸ asked_askModel input, fun h => ?_⟩
  cases h with
  | picked lines refuses first picks =>
    rw [askModel_of_lines lines refuses, askModel_of_picks first picks]
  | ended lines refuses => rw [askModel_of_lines lines refuses, askModel_nil]

/-! ## What is printed -/

/-- The question in words. -/
def asking : String :=
  "Select car model (1 for D31L, 2 for D31F25, 3 for D31L24, 4 for D21L, 5 for D31H, 6 for D31X): "

/-- What is printed for refused lines and for the question after them. -/
def transcript (refused : List (List Char)) : String :=
  String.join (refused.map fun line =>
    asking ++ ("'" ++ String.ofList (trimChars line) ++ "' is not a valid choice\n")) ++ asking

theorem Utterance.text_eq (said : Utterance) : said.text =
    match said with
    | .question => asking
    | .rejection answer => "'" ++ answer ++ "' is not a valid choice\n" := by
  cases said <;> rfl

theorem printed_refused (refused : List (List Char)) (model : Option EcuModel)
    (rest : List Char) :
    Selection.printed ⟨model, refused.flatMap refusal ++ [.question], rest⟩ =
      transcript refused := by
  simp only [Selection.printed, transcript]
  induction refused with
  | nil => simp [Utterance.text_eq]
  | cons line refused ih =>
    have hline : String.join ((refusal line).map (·.text)) =
        asking ++ ("'" ++ String.ofList (trimChars line) ++ "' is not a valid choice\n") := by
      rw [refusal, List.map_cons, List.map_singleton, String.join_cons, String.join_cons,
        String.join_nil, String.append_empty, Utterance.text_eq, Utterance.text_eq]
    rw [List.flatMap_cons, List.append_assoc, List.map_append, String.join_append, hline, ih,
      List.map_cons, String.join_cons]
    simp only [String.append_assoc]

example : Selection.printed ⟨none, refusal " 7 ".toList ++ [.question], []⟩ =
    "Select car model (1 for D31L, 2 for D31F25, 3 for D31L24, 4 for D21L, 5 for D31H, " ++
    "6 for D31X): '7' is not a valid choice\n" ++
    "Select car model (1 for D31L, 2 for D31F25, 3 for D31L24, 4 for D21L, 5 for D31H, " ++
    "6 for D31X): " := rfl

/-! ## Choosing -/

/-- What choosing a model comes to. Nothing is read or said for a configured name that is known. -/
inductive Chosen (configured : Option String) (input : List Char) : Selection → Prop
  | configured {name : String} {m : EcuModel} (given : configured = some name)
      (named : SameButCase (trimChars name.toList) m.shortName.toList) :
      Chosen configured input ⟨some m, [], input⟩
  | asked {s : Selection}
      (unknown : ∀ name, configured = some name →
        ∀ m : EcuModel, ¬ SameButCase (trimChars name.toList) m.shortName.toList)
      (asked : Asked input s) : Chosen configured input s

theorem configuredModel?_eq_some_iff {configured : Option String} :
    configuredModel? configured = some m ↔
      ∃ name, configured = some name ∧
        SameButCase (trimChars name.toList) m.shortName.toList := by
  simp only [configuredModel?, Option.bind_eq_some_iff, EcuModel.ofName?_eq_some_iff]

theorem chooseModel_eq_iff {configured : Option String} :
    chooseModel configured input = s ↔ Chosen configured input s := by
  unfold chooseModel
  cases hconfigured : configuredModel? configured with
  | none =>
    have hunknown : ∀ name, configured = some name →
        ∀ m : EcuModel, ¬ SameButCase (trimChars name.toList) m.shortName.toList := by
      intro name hname m hm
      rw [configuredModel?_eq_some_iff.mpr ⟨name, hname, hm⟩] at hconfigured
      cases hconfigured
    dsimp only
    rw [askModel_eq_iff]
    refine ⟨.asked hunknown, fun h => ?_⟩
    cases h with
    | configured given named => exact absurd named (hunknown _ given _)
    | asked _ asked => exact asked
  | some m =>
    obtain ⟨name, hname, hm⟩ := configuredModel?_eq_some_iff.mp hconfigured
    constructor
    · rintro rfl
      exact .configured hname hm
    · intro h
      cases h with
      | @configured _ m' given named =>
        rw [configuredModel?_eq_some_iff.mpr ⟨_, given, named⟩] at hconfigured
        cases hconfigured
        rfl
      | asked unknown _ => exact absurd hm (unknown name hname m)

/-- For each configured name and each input there is one way in which a model is chosen, which the
prompt takes: the first line that picks a model is the last one that is read. Without one, the job
fails, and what is printed before its result is what has been said: the questions and, behind each
question but the last, the rejection of its answer. -/
theorem first_pick_chosen (o : Options) (settings : Settings) (level : UInt8) (seed : Octets)
    (input : List Char) :
    (∀ s, chooseModel o.model input = s ↔ Chosen o.model input s) ∧
      (∃ s, Chosen o.model input s ∧
        deriveKey o settings level seed input =
          match s.model with
          | none => .failure s.printed ⟨"No car model selected", []⟩
          | some m =>
            match keyText settings level seed m with
            | .error complaint => .failure s.printed complaint
            | .ok text => .success (s.printed ++ text)) ∧
      ∀ refused model rest,
        Selection.printed ⟨model, refused.flatMap refusal ++ [.question], rest⟩ =
          transcript refused :=
  ⟨fun _ => chooseModel_eq_iff, ⟨chooseModel o.model input, chooseModel_eq_iff.mp rfl, rfl⟩,
    printed_refused⟩

end Cli
end Doip
