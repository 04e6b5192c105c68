import Doip.Cli.Usage

/-! # Arguments of a command

Reading arguments by the parameters that a command has: options by a long name after
two dashes or a letter after one, switches without a value, values by their place, and
the name of a subcommand, whose own arguments follow. After `--` everything counts by
its place. A value that stands in one argument with its option is judged at once, any
other when the next parameter begins; an argument that is no parameter at all is
reported before the value that still waits to be judged. -/
namespace Doip.Cli

/-- How far the arguments have been read. -/
structure Reading where
  /-- Values by parameter, judged to be good. -/
  values : List (String × String)
  /-- The last parameter, with its value if that has come. -/
  pending : Option (Parameter × Option String)
  /-- The places that are still free. -/
  places : List Parameter
  /-- Whether `--` has come. -/
  onlyPlaces : Bool

namespace Reading

def start (g : Grammar) : Reading := ⟨[], none, g.places, false⟩

/-- Adds a value, unless it is refused. -/
def add (p : Parameter) (value : String) (r : Reading) : Except Halt Reading :=
  match p.objection value with
  | some objection => .error (.badValue value p.shown objection)
  | none => .ok { r with values := r.values ++ [(p.shown, value)] }

def isGiven (r : Reading) (p : Parameter) : Bool := (r.values.lookup p.shown).isSome

/-- Judges a value that the arguments give: each parameter has one. -/
def give (p : Parameter) (value : String) (r : Reading) : Except Halt Reading :=
  if r.isGiven p then .error (.repeated p.shown) else r.add p value

/-- Judges the last parameter. -/
def settle (r : Reading) : Except Halt Reading :=
  match r.pending with
  | none => .ok r
  | some (p, none) => .error (.missingValue p.shown)
  | some (p, some value) => { r with pending := none }.give p value

/-- Whether the last parameter still waits for its value. -/
def awaitsValue (r : Reading) : Bool :=
  match r.pending with
  | some (_, none) => true
  | _ => false

/-- A switch: it is noted, or what it asks for is done. -/
def switch (g : Grammar) (p : Parameter) (r : Reading) : Except Halt Reading := do
  let r ← r.settle
  match p.wish with
  | some wish => .error (g.fulfil wish)
  | none => r.give p "true"

/-- An option, with its value if that stands in the same argument. -/
def option (p : Parameter) (value : Option String) (r : Reading) : Except Halt Reading := do
  let r ← r.settle
  match value with
  | some value => r.give p value
  | none => return { r with pending := some (p, none) }

/-- An argument after two dashes. -/
def long (g : Grammar) (text : List Char) (r : Reading) : Except Halt Reading :=
  let name := String.ofList (text.takeWhile (· ≠ '='))
  let value := match text.dropWhile (· ≠ '=') with
    | _ :: value => some (String.ofList value)
    | [] => none
  match g.options.find? (·.long = some name) with
  | none => .error (.unexpectedArgument ("--" ++ name))
  | some p =>
    match p.value, value with
    | some _, value => r.option p value
    | none, none => r.switch g p
    | none, some value => .error (.unexpectedValue value p.shown)

/-- Letters after one dash: switches, and at last perhaps an option with its value. -/
def letters (g : Grammar) : List Char → Reading → Except Halt Reading
  | [], r => .ok r
  | c :: rest, r =>
    match g.options.find? (·.short = some c) with
    | none => .error (.unexpectedArgument (String.ofList ['-', c]))
    | some p =>
      match p.value with
      | none => do letters g rest (← r.switch g p)
      | some _ =>
        let value := match rest with
          | [] => none
          | '=' :: value => some (String.ofList value)
          | value => some (String.ofList value)
        r.option p value

/-- An argument that counts by its place. -/
def place (g : Grammar) (argument : String) (r : Reading) : Except Halt Reading :=
  match r.places with
  | p :: places => do
    return { ← r.settle with pending := some (p, some argument), places }
  | [] =>
    if r.onlyPlaces ∧ g.subcommands.contains argument then .error (.unexpectedArgument argument)
    else if g.subcommands ≠ [] ∧ g.places.isEmpty then .error (.unknownSubcommand argument)
    else .error (.unexpectedArgument argument)

/-- One argument that is no subcommand. -/
def take (g : Grammar) (argument : String) (r : Reading) : Except Halt Reading :=
  if r.onlyPlaces then r.place g argument
  else
    match argument.toList with
    | ['-', '-'] => .ok { r with onlyPlaces := true }
    | '-' :: '-' :: text => r.long g text
    | '-' :: c :: rest => r.letters g (c :: rest)
    | _ =>
      match r.pending with
      | some (p, none) => .ok { r with pending := some (p, some argument) }
      | _ => r.place g argument

/-- Reads arguments up to a subcommand, which is returned with the arguments after it. -/
def arguments (g : Grammar) : List String → Reading →
    Except Halt (Reading × Option (String × List String))
  | [], r => .ok (r, none)
  | argument :: rest, r =>
    if !r.onlyPlaces ∧ !r.awaitsValue ∧ g.subcommands.contains argument then
      .ok (r, some (argument, rest))
    else
      match r.take g argument with
      | .error e => .error e
      | .ok r => arguments g rest r

/-- Adds what the environment gives for parameters that have not been given. -/
def addVariables (environment : List (String × String)) :
    List Parameter → Reading → Except Halt Reading
  | [], r => .ok r
  | p :: rest, r =>
    match (if r.isGiven p then none else p.envName >>= fun name => environment.lookup name) with
    | none => addVariables environment rest r
    | some value => do addVariables environment rest (← r.add p value)

/-- The end of the arguments: the last parameter is judged and the environment consulted. -/
def finish (g : Grammar) (environment : List (String × String)) (r : Reading) :
    Except Halt Reading := do
  (← r.settle).addVariables environment g.options

/-- Whether all parameters that have to be given are. -/
def isComplete (g : Grammar) (r : Reading) : Bool :=
  (g.options ++ g.places).all fun p => !p.required || r.isGiven p

end Reading

/-- Reads the arguments of a subcommand. -/
def Grammar.values (g : Grammar) (arguments : List String) :
    Except Halt (List (String × String)) := do
  let (r, _) ← Reading.arguments g arguments (.start g)
  let r ← r.finish g []
  if r.isComplete g then return r.values else .error .missingArguments

/-- What was given to a command with subcommands. -/
structure Invocation where
  values : List (String × String)
  subcommand : String
  subvalues : List (String × String)

/-- The subcommand that shows help. -/
def helpName : String := "help"

/-- Reads the arguments of a command that needs a subcommand. Faults after the subcommand's name
are reported first. -/
def Grammar.invocation (g : Grammar) (sub : String → Grammar)
    (environment : List (String × String)) (arguments : List String) :
    Except Halt Invocation := do
  match ← Reading.arguments g arguments (.start g) with
  | (r, some (subcommand, rest)) =>
    if subcommand = helpName then .error (g.helpOn sub rest)
    else
      let subvalues ← (sub subcommand).values rest
      let r ← r.finish g environment
      return ⟨r.values, subcommand, subvalues⟩
  | (r, none) =>
    let r ← r.finish g environment
    if r.values = [] then .error (.nothingGiven g.help) else .error (.missingSubcommand g.name)

end Doip.Cli
