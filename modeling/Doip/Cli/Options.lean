import Doip.Cli.Arguments
import Doip.Cli.Values
import Doip.Text.Double
import Doip.Time.Seconds

/-! # Options of the command

The parameters that the command and its subcommands have, and the values they come to. -/
namespace Doip.Cli

/-- What the command is to do. -/
inductive Job where
  | readDid (did : UInt16)
  /-- Send a request and print the response. -/
  | send (payload : String)
  /-- Send a request to many and list the responses that come in the window. -/
  | functional (payload : String) (address : Address) (window : Option Duration)
  | seedKey (level : UInt8) (seed : String)
  /-- List the data identifiers of a category. -/
  | dids (category : String)
deriving DecidableEq, Repr

structure Options where
  server : String
  target : Address
  source : Address
  activation : ActivationType
  timeout : Option Duration
  /-- Where the settings are. -/
  config : Option String
  model : Option String
  job : Job
deriving DecidableEq, Repr

/-- A number of seconds; what is no duration means that there is no bound. -/
def parseSeconds (s : String) : Except String (Option Duration) :=
  match Text.readDouble s with
  | .ok bits => .ok (Seconds.toDuration? bits)
  | .error e => .error e.message

def activationOf? (s : String) : Option ActivationType :=
  match s with
  | "default" => some .default
  | "regulation" => some .diagnosticRequiredByRegulation
  | "central-security" => some .centralSecurity
  | "ota" => some .otaMode
  | _ => none

/-- The objection of a reader that explains itself. -/
def objectionOf {α : Type} (read : String → Except String α) (value : String) : Option Objection :=
  match read value with
  | .ok _ => none
  | .error reason => some (.explained reason)

def freely (_ : String) : Option Objection := none

/-- An option or a switch that need not be given. -/
def option (long : String) (short : Option Char) (value envName : Option String)
    (objection : String → Option Objection) : Parameter :=
  ⟨some long, short, value, envName, false, none, objection⟩

/-- A value that has to be given at its place. -/
def placed (value : String) (objection : String → Option Objection) : Parameter :=
  ⟨none, none, some value, none, true, none, objection⟩

def serverOption : Parameter := option "server" (some 's') (some "SERVER") (some "DOIP_SERVER_IP") freely

def targetOption : Parameter :=
  option "target" (some 't') (some "TARGET") (some "DOIP_LOGICAL_ADDRESS") (objectionOf parseAddress)

def sourceOption : Parameter :=
  option "source" none (some "SOURCE") none (objectionOf parseAddress)

def activationOption : Parameter :=
  option "activation" none (some "ACTIVATION") none fun value =>
    if value = "" then some .absent
    else if (activationOf? value).isNone then some .refused
    else none

def timeoutOption : Parameter :=
  option "timeout" none (some "TIMEOUT") none (objectionOf parseSeconds)

def configOption : Parameter :=
  option "config" (some 'c') (some "CONFIG") (some "DOIP_CONFIG") fun value =>
    if value = "" then some .absent else none

def modelOption : Parameter := option "model" (some 'm') (some "MODEL") (some "CAR_MODEL") freely

def verboseSwitch : Parameter := option "verbose" (some 'v') none none freely

/-- The switches that every command has. -/
def informationSwitches : List Parameter :=
  [{ option "help" (some 'h') none none freely with wish := some .help },
    { option "version" (some 'V') none none freely with wish := some .version }]

def grammar : Grammar where
  name := "doip-cli"
  about := "DoIP Vehicle Diagnostics CLI"
  options := [serverOption, targetOption, sourceOption, activationOption, timeoutOption,
    configOption, modelOption, verboseSwitch] ++ informationSwitches
  places := []
  subcommands := ["read-did", "send", "functional", "seed-key", "dids", helpName]

def didPlace : Parameter := placed "DID" (objectionOf parseAddress)

def payloadPlace : Parameter := placed "PAYLOAD" freely

def categoryPlace : Parameter := placed "CATEGORY" freely

def addressOption : Parameter :=
  option "address" none (some "ADDRESS") none (objectionOf parseAddress)

def windowOption : Parameter :=
  option "window" none (some "WINDOW") none (objectionOf parseSeconds)

def levelOption : Parameter :=
  { option "level" none (some "LEVEL") none (objectionOf parseLevel) with required := true }

def seedOption : Parameter :=
  { option "seed" none (some "SEED") none freely with required := true }

/-- The grammar of a subcommand. -/
def subgrammarOf (name about : String) (options places : List Parameter) : Grammar :=
  ⟨"doip-cli " ++ name, about, options ++ informationSwitches, places, []⟩

def subgrammar (subcommand : String) : Grammar :=
  match subcommand with
  | "read-did" =>
    subgrammarOf "read-did" "Read a data identifier (UDS 0x22)" [] [didPlace]
  | "send" =>
    subgrammarOf "send" "Send a raw UDS request and print the response" [] [payloadPlace]
  | "functional" =>
    subgrammarOf "functional" "Send a request to a functional address and list every response"
      [addressOption, windowOption] [payloadPlace]
  | "seed-key" =>
    subgrammarOf "seed-key" "Derive a security access key from a seed"
      [levelOption, seedOption] []
  | "dids" =>
    subgrammarOf "dids" "List the DIDs of an application category" [] [categoryPlace]
  | name => subgrammarOf name "Print the help of a subcommand" [] []

/-- The value given for `p`, as `read` takes it, or else `default`. -/
def valueOf {α : Type} (values : List (String × String)) (p : Parameter)
    (read : String → Except String α) (default : α) : α :=
  match values.lookup p.shown with
  | none => default
  | some text =>
    match read text with
    | .ok value => value
    | .error _ => default

def textOf (values : List (String × String)) (p : Parameter) : String :=
  (values.lookup p.shown).getD ""

def jobOf (subcommand : String) (values : List (String × String)) : Job :=
  match subcommand with
  | "read-did" => .readDid (valueOf values didPlace parseAddress 0)
  | "send" => .send (textOf values payloadPlace)
  | "functional" =>
    .functional (textOf values payloadPlace) (valueOf values addressOption parseAddress 0xE400)
      (valueOf values windowOption parseSeconds (some (.ofSeconds 1)))
  | "seed-key" => .seedKey (valueOf values levelOption parseLevel 0) (textOf values seedOption)
  | _ => .dids (textOf values categoryPlace)

def optionsOf (i : Invocation) : Options where
  server := (i.values.lookup serverOption.shown).getD "192.168.200.1"
  target := valueOf i.values targetOption parseAddress 0x0680
  source := valueOf i.values sourceOption parseAddress 0x0E00
  activation := ((i.values.lookup activationOption.shown).bind activationOf?).getD .default
  timeout := valueOf i.values timeoutOption parseSeconds (some (.ofSeconds 2))
  config := i.values.lookup configOption.shown
  model := i.values.lookup modelOption.shown
  job := jobOf i.subcommand i.subvalues

/-- Reads the arguments of the command in its environment. -/
def Options.parse (environment : List (String × String)) (arguments : List String) :
    Except Halt Options := do
  return optionsOf (← grammar.invocation subgrammar environment arguments)

end Doip.Cli
