import Doip.Bench.Files
import Doip.Bench.Schedule
import Doip.Cli.Job

/-! # The command on the bench

One run of the command from its arguments to what it prints, on a machine with a file
of settings and a scripted gateway, if there are any. -/
namespace Doip.Bench
open Cli

structure ProgramSetup where
  arguments : List String
  environment : List (String × String)
  /-- What the user types. -/
  input : String
  /-- The text of the file of settings. -/
  config : Option String
  gateway : Option (List GatewayStep)

/-- What came of a run, for the user and at the gateway. -/
structure ProgramRun where
  outcome : Outcome
  results : Option (List (Except GatewayError GatewayValue))

namespace ProgramSetup

/-- Where the file of settings lies. -/
def configPath : String := "<path>"

/-- Where the gateway listens. -/
def gatewayPort : UInt16 := 13400

/-- The file of settings; with a gateway it names the gateway's port first. -/
def configText (s : ProgramSetup) : Option String :=
  match s.gateway, s.config with
  | some _, config =>
    some ("gateway_port = " ++ toString gatewayPort.toNat ++ "\n" ++ config.getD "")
  | none, config => config

/-- The environment, with the way to the file and to the gateway, which count for more than what
else it says of them. -/
def fullEnvironment (s : ProgramSetup) : List (String × String) :=
  (if s.gateway.isSome then [("DOIP_SERVER_IP", "127.0.0.1")] else []) ++
    (if s.configText.isSome then [("DOIP_CONFIG", configPath)] else []) ++ s.environment

def load (s : ProgramSetup) (path : String) : Except Settings.LoadError Settings :=
  match if path = configPath then s.configText else none with
  | some text => Settings.ofFile path (.ok text.toUTF8.toList)
  | none => loadSettings path

/-- The settings of a run. -/
def settings (s : ProgramSetup) (o : Options) : Except Complaint Settings :=
  match o.config with
  | none => .ok {}
  | some path =>
    match s.load path with
    | .ok settings => .ok settings
    | .error e => .error (loadComplaint path e)

/-- The answers to the requests of an exchange. -/
def answers (exchange : Exchange) (reports : List ClientReport) : List (Request × Answer) :=
  (exchange.requests.zip reports).filterMap fun (request, report) =>
    match report.result with
    | .answer answer => some (request, answer)
    | _ => none

/-- Makes an exchange with the gateway. -/
def exchange (s : ProgramSetup) (o : Options) (settings : Settings) (e : Exchange) : ProgramRun :=
  match converse (s.gateway.map fun _ => gatewayPort) o.source o.server e.target settings true
      (e.requests.map .ask) (s.gateway.getD []) with
  | .error failure => ⟨.failure "" (connectComplaint o failure), none⟩
  | .ok played => ⟨exchangeOutcome (answers e played.reports), some played.results⟩

/-- Runs the command. -/
def run (s : ProgramSetup) : ProgramRun :=
  match Options.parse s.fullEnvironment s.arguments with
  | .error halt => ⟨.halted (Terminal.wantsStyles s.environment) halt, none⟩
  | .ok o =>
    match s.settings o with
    | .error c => ⟨.failure "" c, none⟩
    | .ok settings =>
      match o.task with
      | .error c => ⟨.failure "" c, none⟩
      | .ok (.print text) => ⟨.success text, none⟩
      | .ok (.deriveKey level seed) =>
        ⟨deriveKey o settings level seed s.input.toList, none⟩
      | .ok (.exchange e) => s.exchange o settings e

end ProgramSetup
end Doip.Bench
