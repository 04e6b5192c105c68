import Doip.Terminal.Plain

/-! # Styles

Words of a message may be set off by a style, which a control sequence begins and
another one ends. -/
namespace Doip.Terminal

inductive Style where
  /-- The mark of an error. -/
  | error
  /-- What is at fault. -/
  | invalid
  /-- What stands for itself, as the name of an option. -/
  | literal
deriving DecidableEq, Repr

/-- Bold red, yellow, and bold. -/
def Style.start : Style → String
  | error => "\x1b[1m\x1b[31m"
  | invalid => "\x1b[33m"
  | literal => "\x1b[1m"

/-- The words in a style. -/
def Style.apply (style : Style) (words : String) : String := style.start ++ words ++ "\x1b[0m"

/-- The environment variable that asks for styles where there is no terminal. -/
def forcingVariable : String := "CLICOLOR_FORCE"

/-- The environment variable that asks for no styles, which counts for more. -/
def refusingVariable : String := "NO_COLOR"

def styleVariables : List String := [forcingVariable, refusingVariable]

/-- Whether an environment asks for styles where there is no terminal. -/
def wantsStyles (environment : List (String × String)) : Bool :=
  let given (name : String) : Bool := (environment.lookup name).getD "" ≠ ""
  given forcingVariable && !given refusingVariable

/-- A message with its styles, or as plain text. -/
def render (styles : Bool) (message : String) : String :=
  if styles then message else plain message

end Doip.Terminal
