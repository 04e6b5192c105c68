import Doip.Engine.Dispatch
import Doip.Engine.Expiry

/-! # A link: the engine, its queue and its end

Callers put commands into a queue and may change the target at any time; the engine
takes the commands in order, reads from the gateway and watches deadlines. When it
stops, for whatever reason, every call that waits and every command still queued
fails with that reason, and later calls are refused. A run is a list of events, each
at its time. -/
namespace Doip

/-- Why an engine stopped. -/
inductive Stop where
  | shutdown
  | endOfStream
  | io (text : String)
  | parse (text : String)
  /-- It was ended from outside, without a chance to answer. -/
  | aborted
deriving DecidableEq, Repr

def Stop.failure : Stop → Failure
  | shutdown => .connectFailed "session closed"
  | endOfStream => .endOfStream
  | io text => .io text
  | parse text => .parse text
  | aborted => .engineStopped

inductive Phase where
  | running (engine : Engine)
  | stopped (cause : Stop)
deriving DecidableEq, Repr

structure Link where
  tuning : Tuning
  target : Address
  /-- Commands that the engine has not taken yet, oldest first. -/
  queue : List Command
  phase : Phase
deriving DecidableEq, Repr

namespace Link

/-- What can happen to a link. That a write fails is not among it: what an event sends is taken to
reach the gateway, and a connection that is lost shows when it is read next. -/
inductive Event where
  /-- A caller puts a call into the queue. -/
  | request (id : CallId) (call : Call)
  /-- A caller asks the engine to stop. -/
  | requestShutdown
  /-- A caller changes the target. -/
  | retarget (target : Address)
  /-- The engine takes the oldest command. -/
  | take
  /-- There are no callers any more. -/
  | abandoned
  /-- The engine is ended from outside. -/
  | abort
  /-- The engine reads octets; none is the end of the stream. -/
  | read (octets : Octets)
  | readFailed (text : String)
  /-- A deadline has come. -/
  | deadline
deriving DecidableEq, Repr

def opened (tuning : Tuning) (target : Address) : Link := ⟨tuning, target, [], .running .initial⟩

def isAlive (l : Link) : Bool :=
  match l.phase with
  | .running _ => true
  | .stopped _ => false

/-- The failures of the calls among queued commands. -/
def failQueued (failure : Failure) (queue : List Command) : List Reply :=
  queue.filterMap fun
    | .call id _ => some ⟨id, .failed failure⟩
    | .shutdown => none

/-- Stops the engine `e`, whose calls fail, as do the queued ones. -/
def stop (cause : Stop) (e : Engine) (l : Link) : Link × Effect :=
  ({ l with queue := [], phase := .stopped cause },
    ⟨e.failAll cause.failure ++ failQueued cause.failure l.queue, []⟩)

/-- The engine takes one command. -/
def takeCommand (now : Instant) (e : Engine) (l : Link) : Link × Effect :=
  match l.queue with
  | [] => (l, .none)
  | .shutdown :: queue => stop .shutdown e { l with queue }
  | .call id call :: queue =>
    let (e, effect) := e.start l.tuning l.target now id call
    ({ l with queue, phase := .running e }, effect)

/-- The engine reads octets. -/
def readOctets (now : Instant) (octets : Octets) (e : Engine) (l : Link) : Link × Effect :=
  if octets = [] then stop .endOfStream e l
  else
    match e.absorb l.tuning l.target now octets with
    | ((e, effect), none) => ({ l with phase := .running e }, effect)
    | ((e, effect), some fault) =>
      let (l, failures) := stop (.parse fault.message) e l
      (l, effect ++ failures)

/-- A link whose engine runs: each event has its effect. -/
def stepRunning (now : Instant) (e : Engine) (event : Event) (l : Link) : Link × Effect :=
  match event with
  | .request id call => ({ l with queue := l.queue ++ [.call id call] }, .none)
  | .requestShutdown => ({ l with queue := l.queue ++ [.shutdown] }, .none)
  | .retarget target => ({ l with target }, .none)
  | .take => l.takeCommand now e
  | .abandoned => l.stop .shutdown e
  | .abort => l.stop .aborted e
  | .read octets => l.readOctets now octets e
  | .readFailed text => l.stop (.io text) e
  | .deadline =>
    let (e, effect) := e.expire now
    ({ l with phase := .running e }, effect)

/-- After the stop, calls are refused and nothing else happens. -/
def step (now : Instant) (event : Event) (l : Link) : Link × Effect :=
  match l.phase with
  | .running e => l.stepRunning now e event
  | .stopped _ =>
    match event with
    | .request id _ => (l, .reply id (.failed .engineStopped))
    | _ => (l, .none)

/-- The events of a run, one after the other. -/
def run : List (Instant × Event) → Link → Link × Effect
  | [], l => (l, .none)
  | (now, event) :: events, l =>
    let (l, first) := l.step now event
    let (l, others) := run events l
    (l, first ++ others)

end Link
end Doip
