import Doip.Security.Error
import Doip.Text.Numeral

/-! # Choosing a model

The model comes from a configured name or else from lines of input: each line is asked
for, and a line that picks nothing is rejected, until one picks a model or the input
ends. -/
namespace Doip.Cli
open Text

/-- What is said to the user. -/
inductive Utterance where
  | question
  | rejection (answer : String)
deriving DecidableEq, Repr

/-- All models with their numbers. -/
def choices : String :=
  ", ".intercalate (EcuModel.all.map fun m => toString m.number.toNat ++ " for " ++ m.shortName)

def Utterance.text : Utterance → String
  | question => "Select car model (" ++ choices ++ "): "
  | rejection answer => "'" ++ answer ++ "' is not a valid choice\n"

/-- The model that an answer picks: by its number, or else by its name. -/
def pick? (answer : List Char) : Option EcuModel :=
  let byNumber := match readNumeral 10 255 answer with
    | .ok n => EcuModel.ofNumber? (.ofNat n)
    | .error _ => none
  byNumber.orElse fun _ => EcuModel.ofName? answer

/-- How a question ends. -/
inductive Round where
  /-- A model is picked, or there is none as the input has ended. -/
  | over (model : Option EcuModel)
  /-- The answer picks no model. -/
  | rejected (answer : String)
deriving DecidableEq, Repr

/-- How a question ends that a line answers. -/
def judge (line : List Char) : Round :=
  match pick? (trimChars line) with
  | some model => .over (some model)
  | none => .rejected (String.ofList (trimChars line))

/-- The first line of a text, without its end, and the text after it. -/
def splitLine (input : List Char) : List Char × List Char :=
  (input.takeWhile (· ≠ '\n'), (input.dropWhile (· ≠ '\n')).tail)

theorem length_splitLine_lt {input : List Char} (h : input ≠ []) :
    (splitLine input).2.length < input.length := by
  cases input with
  | nil => contradiction
  | cons c rest =>
    have := (List.dropWhile_suffix (fun x : Char => decide (x ≠ '\n')) (l := c :: rest)).length_le
    simp only [splitLine, List.length_tail, List.length_cons] at *
    omega

/-- How a question ends that the first line of `input` answers, and the input after that line. -/
def round (input : List Char) : Round × List Char :=
  if input = [] then (.over none, []) else (judge (splitLine input).1, (splitLine input).2)

theorem length_round_lt {input rest : List Char} {answer : String}
    (h : round input = (.rejected answer, rest)) : rest.length < input.length := by
  unfold round at h
  split at h
  · cases h
  · rename_i hne
    obtain ⟨-, rfl⟩ := Prod.mk.inj h
    exact length_splitLine_lt hne

structure Selection where
  /-- None if the input ended before a model was picked. -/
  model : Option EcuModel
  said : List Utterance
  /-- The input after the lines that were read. -/
  rest : List Char
deriving DecidableEq, Repr

/-- What has been said, as it is printed. -/
def Selection.printed (s : Selection) : String := String.join (s.said.map (·.text))

/-- Asks until a line picks a model. -/
def askModel (input : List Char) : Selection :=
  match _h : round input with
  | (.over model, rest) => ⟨model, [.question], rest⟩
  | (.rejected answer, rest) =>
    let later := askModel rest
    { later with said := .question :: .rejection answer :: later.said }
termination_by input.length
decreasing_by exact length_round_lt _h

/-- The model with a configured name. -/
def configuredModel? (configured : Option String) : Option EcuModel :=
  configured.bind fun name => EcuModel.ofName? name.toList

/-- The configured model, or the one that the input picks if that name is missing or unknown. -/
def chooseModel (configured : Option String) (input : List Char) : Selection :=
  match configuredModel? configured with
  | some model => ⟨some model, [], input⟩
  | none => askModel input

end Doip.Cli
