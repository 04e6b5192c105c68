import Doip.Cli.Complaint
import Doip.Cli.Options
import Doip.Cli.Prompt
import Doip.DataIdentifier
import Doip.Security.Registry
import Doip.Service.NegativeResponse
import Doip.Session
import Doip.Settings.File

/-! # Jobs of the command

What each job does by itself, what it asks of a gateway, and what is printed in the
end. -/
namespace Doip.Cli
open Text

/-- Requests to a gateway, each made when the one before has been answered. -/
structure Exchange where
  target : Address
  requests : List Request
deriving DecidableEq, Repr

/-- How a job goes on once its arguments are understood. -/
inductive Task where
  | print (text : String)
  | exchange (exchange : Exchange)
  /-- Choose a model, then derive the key of a seed. -/
  | deriveKey (level : UInt8) (seed : Octets)
deriving DecidableEq, Repr

/-- How the end of a command shows. -/
structure Outcome where
  exit : Nat
  output : String
  complaint : String
deriving DecidableEq, Repr

def Outcome.success (output : String) : Outcome := ⟨0, output, ""⟩

def Outcome.failure (output : String) (c : Complaint) : Outcome := ⟨1, output, c.text⟩

/-- The end of a command whose arguments came to no options. -/
def Outcome.halted (styles : Bool) (halt : Halt) : Outcome :=
  let text := Terminal.render styles halt.message
  if halt.isWanted then ⟨0, text, ""⟩ else ⟨2, "", text⟩

/-- The settings that could not be loaded. -/
def loadComplaint (path : String) (e : Settings.LoadError) : Complaint where
  reason := "Failed to load config: " ++ path
  causes := match e with
    | .unreadable _ cause => [e.message, cause.text]
    | .malformed => [e.message]

def payloadComplaint : PayloadError → Complaint
  | .notHex text cause => .because ("Invalid hex payload '" ++ text ++ "'") cause.message
  | .empty => ⟨"Payload must not be empty", []⟩

/-- A request to an ECU and its final response. -/
def requestResponse (o : Options) (data : Octets) : Task :=
  .exchange ⟨o.target, [.activate o.activation, .send data o.timeout, .receive o.timeout]⟩

def didLine (category : AppCategory) (did : UInt16) : String :=
  "0x" ++ hex4 did ++ "  " ++ category.name ++ "\n"

/-- The data identifiers of a category, a line each. -/
def didListing (category : AppCategory) : String :=
  match DataIdentifier.ofCategory category with
  | [] => "No DIDs in category " ++ category.name ++ "\n"
  | dids => String.join (dids.map fun d => didLine d.category d.did)

/-- The first part of a job, up to what it needs from outside. -/
def Options.task (o : Options) : Except Complaint Task :=
  match o.job with
  | .readDid did => .ok (requestResponse o (0x22 :: octets16 did))
  | .send payload =>
    match parseHex payload with
    | .error e => .error (payloadComplaint e)
    | .ok data => .ok (requestResponse o data)
  | .functional payload address window =>
    match parseHex payload, window with
    | .error e, _ => .error (payloadComplaint e)
    | .ok _, none =>
      .error ⟨"Window must be a finite, non-negative number of seconds", []⟩
    | .ok data, some window =>
      .ok (.exchange ⟨address,
        [.activate o.activation, .send data o.timeout, .collect (some window)]⟩)
  | .seedKey level seed =>
    match Hex.read (trim seed) with
    | .error e => .error (.because "Seed must be hex" e.message)
    | .ok seed => .ok (.deriveKey level seed)
  | .dids category =>
    match AppCategory.parse category with
    | .error e => .error ⟨e.message, []⟩
    | .ok category => .ok (.print (didListing category))

/-- The key of a seed for the chosen model, in hexadecimal. -/
def keyText (settings : Settings) (level : UInt8) (seed : Octets) (model : EcuModel) :
    Except Complaint String :=
  match Registry.ofEntries settings.secrets with
  | .error e => .error (.because "Invalid security configuration" e.message)
  | .ok registry =>
    match answerInstalled (some registry) level model.number seed with
    | .error e => .error (.because ("Cannot derive key for " ++ model.shortName) e.message)
    | .ok key => .ok (Hex.writeUpper key ++ "\n")

def noModel : Complaint := ⟨"No car model selected", []⟩

/-- The end of the job once a model is chosen, or none is, with `said` printed before it. -/
def keyOutcome (settings : Settings) (level : UInt8) (seed : Octets) (said : String) :
    Option EcuModel → Outcome
  | none => .failure said noModel
  | some model =>
    match keyText settings level seed model with
    | .error c => .failure said c
    | .ok text => .success (said ++ text)

/-- Chooses a model by name or from `input`, and derives the key of a seed. -/
def deriveKey (o : Options) (settings : Settings) (level : UInt8) (seed : Octets)
    (input : List Char) : Outcome :=
  let selection := chooseModel o.model input
  keyOutcome settings level seed selection.printed selection.model

/-- A response: what it refuses, or its data and whose identifier it reads. -/
def responseText (frame : Octets) : String :=
  let data := userData frame
  match NegativeResponse.parse? data with
  | some r =>
    "Negative response to 0x" ++ hex2 r.service ++ ": " ++ r.code.text ++ " (0x" ++
      hex2 r.code.value ++ ")\n"
  | none =>
    Hex.writeUpper data ++ "\n" ++
      match data with
      | service :: hi :: lo :: _ =>
        if service = 0x62 then
          match DataIdentifier.categoryOf? (word16 hi lo) with
          | some category =>
            "DID 0x" ++ hex4 (word16 hi lo) ++ " (" ++ category.name ++ ")\n"
          | none => ""
        else ""
      | _ => ""

def responseLine (frame : Octets) : String :=
  "0x" ++ hex4 ((frameSource? frame).getD 0) ++ ": " ++ Hex.writeUpper (userData frame) ++ "\n"

/-- Collected responses, a line each. -/
def responseListing : List Octets → String
  | [] => "No responses\n"
  | frames => String.join (frames.map responseLine)

def connectComplaint (o : Options) (failure : Failure) : Complaint :=
  .because ("Failed to connect to " ++ o.server) failure.message

/-- A request that failed. -/
def requestComplaint (request : Request) (failure : Failure) : Complaint :=
  .because
    (match request with
    | .activate _ => "Routing activation failed"
    | .send .. => "Request was not acknowledged"
    | .receive _ => "No response"
    | .collect _ => "Collecting responses failed")
    failure.message

/-- What an answer prints. -/
def answerText : Answer → String
  | .frame frame => responseText frame
  | .frames frames => responseListing frames
  | .activated | .acknowledged | .failed _ => ""

/-- The end of an exchange: the requests with their answers, up to the first that failed. -/
def exchangeOutcome : List (Request × Answer) → Outcome
  | [] => .success ""
  | (request, .failed failure) :: _ => .failure "" (requestComplaint request failure)
  | [(_, answer)] => .success (answerText answer)
  | _ :: rest => exchangeOutcome rest

end Doip.Cli
