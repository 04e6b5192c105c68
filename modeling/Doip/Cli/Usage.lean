import Doip.Terminal.Style

/-! # Parameters, and what to say about their use

A command has options, switches and values known by their place. The reading of its
arguments may halt before there are values: at a fault, or because the user asks for
information. A fault is told in one line, after which comes a hint; what the user wrote
is set off by a style. -/
namespace Doip.Cli
open Terminal

/-- What speaks against a value. -/
inductive Objection where
  /-- It is as good as none. -/
  | absent
  | refused
  | explained (reason : String)
deriving DecidableEq, Repr

/-- What a switch may ask for. -/
inductive Wish where
  | help
  | version
deriving DecidableEq, Repr

structure Parameter where
  /-- The long name of an option or switch; none for a value known by its place. -/
  long : Option String
  /-- The letter that also stands for it. -/
  short : Option Char
  /-- What its value is called; none for a switch. -/
  value : Option String
  /-- The environment variable that may give the value. -/
  envName : Option String
  required : Bool
  /-- What a switch asks for, instead of being noted. -/
  wish : Option Wish
  objection : String → Option Objection

/-- The parameter as messages show it, which also tells it from all others. -/
def Parameter.shown (p : Parameter) : String :=
  match p.long, p.value with
  | some long, some value => "--" ++ long ++ " <" ++ value ++ ">"
  | some long, none => "--" ++ long
  | none, some value => "<" ++ value ++ ">"
  | none, none => ""

structure Grammar where
  name : String
  /-- What the command is for. -/
  about : String
  /-- Options and switches. -/
  options : List Parameter
  /-- Values known by their place, in order. -/
  places : List Parameter
  subcommands : List String

/-- What ends the reading of arguments before there are values. -/
inductive Halt where
  | unexpectedArgument (argument : String)
  | unexpectedValue (value shown : String)
  | unknownSubcommand (name : String)
  | missingValue (shown : String)
  | repeated (shown : String)
  | badValue (value shown : String) (objection : Objection)
  | missingArguments
  | missingSubcommand (command : String)
  /-- There are no arguments where a subcommand is needed: the command shows its help. -/
  | nothingGiven (help : String)
  /-- The user asked for a text. -/
  | information (text : String)
deriving DecidableEq, Repr

namespace Grammar

/-- A parameter in a listing. -/
def entry (p : Parameter) : String :=
  (match p.short with
  | some letter => "  -" ++ String.singleton letter ++ ", "
  | none => "      ") ++ p.shown ++ "\n"

/-- How the command is called. -/
def usage (g : Grammar) : String :=
  "Usage: " ++ g.name ++ " [OPTIONS]" ++ String.join (g.places.map fun p => " " ++ p.shown) ++
    if g.subcommands.isEmpty then "" else " <COMMAND>"

/-- What the command is for, and what it takes. -/
def help (g : Grammar) : String :=
  g.about ++ "\n\n" ++ g.usage ++ "\n" ++
    (if g.subcommands.isEmpty then ""
    else "\nCommands:\n" ++ String.join (g.subcommands.map fun name => "  " ++ name ++ "\n")) ++
    "\nOptions:\n" ++ String.join (g.options.map entry)

def version (g : Grammar) : String :=
  g.name.map (fun c => if c = ' ' then '-' else c) ++ " 0.1.0\n"

/-- The information that a switch asks for. -/
def fulfil (g : Grammar) : Wish → Halt
  | .help => .information g.help
  | .version => .information g.version

/-- The help on what the words after the name of the help subcommand lead to. -/
def helpOn (g : Grammar) (sub : String → Grammar) : List String → Halt
  | [] => g.fulfil .help
  | name :: rest =>
    if g.subcommands.contains name then
      match rest with
      | [] => (sub name).fulfil .help
      | extra :: _ => .unknownSubcommand extra
    else .unknownSubcommand name

end Grammar

namespace Halt

def quoted (style : Style) (words : String) : String := "'" ++ style.apply words ++ "'"

def noValue (shown : String) : String :=
  "a value is required for " ++ quoted .invalid shown ++ " but none was supplied"

def badValueText (value shown : String) : String :=
  "invalid value " ++ quoted .invalid value ++ " for " ++ quoted .literal shown

/-- The fault, or the text that was asked for. -/
def reason : Halt → String
  | unexpectedArgument argument => "unexpected argument " ++ quoted .invalid argument ++ " found"
  | unexpectedValue value shown =>
    "unexpected value " ++ quoted .invalid value ++ " for " ++ quoted .literal shown ++
      " found; no more were expected"
  | unknownSubcommand name => "unrecognized subcommand " ++ quoted .invalid name
  | missingValue shown => noValue shown
  | repeated shown =>
    "the argument " ++ quoted .invalid shown ++ " cannot be used multiple times"
  | badValue _ shown .absent => noValue shown
  | badValue value shown .refused => badValueText value shown
  | badValue value shown (.explained why) => badValueText value shown ++ ": " ++ why
  | missingArguments => "the following required arguments were not provided:"
  | missingSubcommand command =>
    quoted .invalid command ++ " requires a subcommand but one was not provided"
  | nothingGiven help => help
  | information text => text

/-- Whether the user asked for what is said. -/
def isWanted : Halt → Bool
  | information _ => true
  | _ => false

/-- A fault with its mark, and a hint after it. -/
def fault (reason : String) : String :=
  Style.error.apply "error:" ++ " " ++ reason ++ "\n\nFor more information, try " ++
    quoted .literal "--help" ++ ".\n"

/-- All that is said, with its styles. -/
def message : Halt → String
  | nothingGiven help => help
  | information text => text
  | halt => fault halt.reason

end Halt
end Doip.Cli
