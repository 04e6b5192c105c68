import Doip.Cli.Job
import Doip.Network.Connect
import Std.Async.TCP
import Std.Async.Timer

/-! # The command

Runs the command with the files, the terminal and the network of this machine. What to
say and what to send is decided elsewhere; here it is carried out. -/
namespace Doip.Cli
open Std.Async

/-! ## Files -/

/-- Why reading a file failed. -/
def fileError : IO.Error → Settings.FileError
  | .noFileOrDirectory .. => .notFound
  | .inappropriateType .. => .isDirectory
  | e => .other (toString e)

def loadFile (path : String) : IO (Except Settings.LoadError Settings) := do
  try
    let content ← IO.FS.readBinFile path
    return Settings.ofFile path (.ok content.toList)
  catch e =>
    return Settings.ofFile path (.error (fileError e))

/-! ## The network -/

/-- A socket and the session on it. -/
structure Connection where
  socket : TCP.Socket.Client
  session : Session

def socketAddress (peer : Network.Endpoint) : Std.Net.SocketAddress :=
  match peer.address with
  | .v4 a => .v4 ⟨.ofParts a.a a.b a.c a.d, peer.port⟩
  | .v6 a =>
    .v6 ⟨⟨⟨a.groups.toArray, by simp [a.length_groups]⟩⟩, peer.port⟩

/-- Milliseconds to wait for `nanos` nanoseconds, at most a day. -/
def waitingMillis (nanos : Nat) : Std.Time.Millisecond.Offset :=
  .ofNat (min 86400000 ((nanos + nanosPerMilli - 1) / nanosPerMilli))

/-- Why an attempt to connect failed. -/
def obstacle (e : IO.Error) : Network.Obstacle :=
  let text := toString e
  if (text.splitOn "refused").length > 1 then .refused
  else if (text.splitOn "unreachable").length > 1 then .unreachable
  else .other text

def openSocket (peer : Network.Endpoint) (timeout : Duration) :
    IO (Except Network.Obstacle TCP.Socket.Client) := do
  try
    let socket ← TCP.Socket.Client.mk
    let connected : Async Bool := do
      socket.connect (socketAddress peer)
      return true
    let late : Async Bool := do
      sleep (waitingMillis timeout.nanos)
      return false
    if ← (Async.race connected late).block then
      try socket.noDelay catch _ => pure ()
      return .ok socket
    else return .error .silent
  catch e => return .error (obstacle e)

/-- Connects a session. -/
def connect (o : Options) (target : Address) (settings : Settings) :
    IO (Except Failure Connection) := do
  match Network.gatewayAddress o.source o.server with
  | .error failure => return .error failure
  | .ok address =>
    let peer : Network.Endpoint := ⟨address, settings.gatewayPort⟩
    match ← openSocket peer settings.connectTimeout with
    | .error obstacle => return .error (Network.connectFailure peer obstacle)
    | .ok socket => return .ok ⟨socket, .opened o.source target settings⟩

/-- Lets something happen to the session, and writes what it sends. A write that fails stops the
session like a read that fails, but only after the whole event: an engine that writes by itself
stops at the frame whose answer it cannot write, and fails the calls that later frames of the same
read end here. -/
def happen (event : Session.Event) (c : Connection) : IO (Connection × List Reply) := do
  let now ← IO.monoNanosNow
  let (session, effect) := c.session.step now event
  if effect.sent = [] then return ({ c with session }, effect.replies)
  try
    (c.socket.send ⟨effect.sent.toArray⟩).block
    return ({ c with session }, effect.replies)
  catch e =>
    let (session, failed) := session.step now (.readFailed (toString e))
    return ({ c with session }, effect.replies ++ failed.replies)

/-- Waits for octets or for a deadline. -/
def nextEvents (c : Connection) : IO (List Session.Event) := do
  let now ← IO.monoNanosNow
  let reading : Selectable (List Session.Event) :=
    .case (c.socket.recvSelector 4096) fun data =>
      return [.read ((data.map (·.toList)).getD [])]
  try
    match c.session.nextDeadline with
    | none => (Selectable.one #[reading]).block
    | some deadline =>
      let waiting : Async (List Session.Event) := do
        let alarm ← Selector.sleep (waitingMillis (deadline - now))
        Selectable.one #[reading, .case alarm fun _ => return [.losePatience, .deadline]]
      waiting.block
  catch e => return [.readFailed (toString e)]

/-- Lets several things happen, one after the other. -/
def happenAll : List Session.Event → Connection → IO (Connection × List Reply)
  | [], c => return (c, [])
  | event :: events, c => do
    let (c, first) ← happen event c
    let (c, others) ← happenAll events c
    return (c, first ++ others)

/-- Waits for the answer to the call `id`. -/
partial def await (id : CallId) (c : Connection) (replies : List Reply) :
    IO (Connection × Answer) := do
  match replies.find? (·.call = id) with
  | some reply => return (c, reply.answer)
  | none =>
    let (c, replies) ← happenAll (← nextEvents c) c
    await id c replies

/-- Makes requests until one fails or all are answered. -/
def request (id : CallId) : List Request → Connection → IO (Connection × List (Request × Answer))
  | [], c => return (c, [])
  | r :: requests, c => do
    let (c, replies) ← happenAll [.ask id r, .take] c
    let (c, answer) ← await id c replies
    match answer with
    | .failed _ => return (c, [(r, answer)])
    | _ =>
      let (c, others) ← request (id + 1) requests c
      return (c, (r, answer) :: others)

/-- Makes an exchange with the gateway. -/
def exchange (o : Options) (settings : Settings) (e : Exchange) : IO Outcome := do
  match ← connect o e.target settings with
  | .error failure => return .failure "" (connectComplaint o failure)
  | .ok c =>
    let (c, answers) ← request 0 e.requests c
    let _ ← happen .close c
    try c.socket.shutdown.block catch _ => pure ()
    return exchangeOutcome answers

/-! ## The terminal -/

/-- Asks the user for a model, one `round` after the other, until one is the last. That lines are
read one by one makes no difference to a round (`round_append`). -/
partial def ask (input output : IO.FS.Stream) : IO (Option EcuModel) := do
  output.putStr Utterance.question.text
  output.flush
  let line ← input.getLine
  match (round line.toList).1 with
  | .over model => return model
  | .rejected answer =>
    output.putStr (Utterance.rejection answer).text
    ask input output

/-- Derives a key for the configured model, or for one that the user chooses. What is said to the
user has been printed by then. -/
def derive (o : Options) (settings : Settings) (level : UInt8) (seed : Octets) : IO Outcome := do
  let model ← match configuredModel? o.model with
    | some model => pure (some model)
    | none => ask (← IO.getStdin) (← IO.getStdout)
  return keyOutcome settings level seed "" model

/-! ## The whole command -/

/-- The environment variables that count: those of the options and those of styles. -/
def environment : IO (List (String × String)) :=
  (grammar.options.filterMap (·.envName) ++ Doip.Terminal.styleVariables).filterMapM fun name => do
    return (← IO.getEnv name).map fun value => (name, value)

def settingsOf (o : Options) : IO (Except Complaint Settings) := do
  match o.config with
  | none => return .ok {}
  | some path => return (← loadFile path).mapError (loadComplaint path)

/-- Carries out what the options ask for. -/
def perform (o : Options) : IO Outcome := do
  match ← settingsOf o with
  | .error c => return .failure "" c
  | .ok settings =>
    match o.task with
    | .error c => return .failure "" c
    | .ok (.print text) => return .success text
    | .ok (.deriveKey level seed) => derive o settings level seed
    | .ok (.exchange e) => exchange o settings e

end Doip.Cli

open Doip.Cli

def main (arguments : List String) : IO UInt32 := do
  let environment ← environment
  let outcome ← match Options.parse environment arguments with
    | .error halt => pure (Outcome.halted (Doip.Terminal.wantsStyles environment) halt)
    | .ok o => perform o
  IO.print outcome.output
  IO.eprint outcome.complaint
  return .ofNat outcome.exit
