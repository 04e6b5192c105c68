import Doip.Link

/-! # Sessions

A session is a link with what its callers see of it: whether routing is active, the
checks made before a call reaches the engine, and the caller's own patience with a
collection, which outlasts the engine's deadline by a margin. -/
namespace Doip

/-- What a caller asks of a session. -/
inductive Request where
  | activate (type : ActivationType)
  | send (data : Octets) (timeout : Option Duration)
  | receive (timeout : Option Duration)
  /-- Collect all responses for the time of `timeout`, which has to be given. -/
  | collect (timeout : Option Duration)
deriving DecidableEq, Repr

/-- How long a collection's caller waits for its answer. -/
structure Patience where
  call : CallId
  deadline : Instant
deriving DecidableEq, Repr

structure Session where
  link : Link
  margin : Duration
  /-- How long closing may wait for the engine. -/
  closeTimeout : Duration
  /-- Whether an activation has succeeded and no caller has closed the session since. -/
  activated : Bool
  patience : List Patience
  /-- Calls whose caller has given up; their answers go nowhere. -/
  givenUp : List CallId
deriving DecidableEq, Repr

namespace Session

/-- The session of a connection that has just been made. -/
def opened (source target : Address) (s : Settings) : Session where
  link := .opened (.ofSettings source s) target
  margin := s.callerMargin
  closeTimeout := s.closeTimeout
  activated := false
  patience := []
  givenUp := []

def source (s : Session) : Address := s.link.tuning.source

def target (s : Session) : Address := s.link.target

/-- Routing is active and the engine runs. -/
def isOpen (s : Session) : Bool := s.activated && s.link.isAlive

/-- A listing of the session's state. -/
def text (s : Session) : String :=
  "Session \x7b source_address: " ++ toString s.source.toNat ++ ", target_address: " ++
    toString s.target.toNat ++ ", open: " ++ toString s.isOpen ++ " \x7d"

/-- Hands answers to their callers. Success of an activation opens the session. -/
def deliver (s : Session) (effect : Effect) : Session × Effect :=
  let replies := effect.replies.filter fun r => !s.givenUp.contains r.call
  let answered := replies.map (·.call)
  ({ s with
      activated := s.activated || replies.any (·.answer = .activated)
      patience := s.patience.filter fun p => !answered.contains p.call },
    { effect with replies })

/-- Passes an event to the link. -/
def passOn (now : Instant) (event : Link.Event) (s : Session) : Session × Effect :=
  let (link, effect) := s.link.step now event
  deliver { s with link } effect

/-- Refuses a call before it reaches the engine. -/
def refuse (id : CallId) (failure : Failure) (s : Session) : Session × Effect :=
  (s, .reply id (.failed failure))

def activate (now : Instant) (id : CallId) (type : ActivationType) (s : Session) :
    Session × Effect :=
  s.passOn now (.request id (.activate type))

/-- How many octets the addresses take in front of user data. -/
def addressesLength : Nat := 4

/-- Sends to the target of this moment; a message longer than the limit is refused. -/
def send (now : Instant) (id : CallId) (data : Octets) (timeout : Option Duration) (s : Session) :
    Session × Effect :=
  if s.link.tuning.maxPayload.toNat < data.length + addressesLength then
    s.refuse id (.invalidArgument ("diagnostic payload of " ++ toString data.length ++
      " bytes exceeds the maximum of " ++ toString s.link.tuning.maxPayload.toNat))
  else s.passOn now (.request id (.send s.target data timeout))

def receive (now : Instant) (id : CallId) (timeout : Option Duration) (s : Session) :
    Session × Effect :=
  s.passOn now (.request id (.receive timeout))

/-- Where the clock cannot hold a caller's own deadline: thirty years from now. -/
def farFuture (now : Instant) : Instant := now + 946080000 * nanosPerSecond

/-- Collects for the time of `timeout`, which has to be given. The caller waits for the window,
the engine's grace and a margin of its own, and this sum has to be a duration. -/
def collect (now : Instant) (id : CallId) (timeout : Option Duration) (s : Session) :
    Session × Effect :=
  match timeout with
  | none =>
    s.refuse id
      (.invalidArgument "a finite, non-negative timeout is required to collect responses")
  | some window =>
    match (window.add? s.link.tuning.grace).bind (Duration.add? · s.margin) with
    | none => s.refuse id (.invalidArgument "collection window is too large")
    | some bound =>
      let own : Patience := ⟨id, (Instant.add? now bound).getD (farFuture now)⟩
      passOn now (.request id (.collect window)) { s with patience := s.patience ++ [own] }

/-- A call: it ends here if it is refused, and is put into the queue otherwise. -/
def ask (now : Instant) (id : CallId) (request : Request) (s : Session) : Session × Effect :=
  match request with
  | .activate type => s.activate now id type
  | .send data timeout => s.send now id data timeout
  | .receive timeout => s.receive now id timeout
  | .collect timeout => s.collect now id timeout

/-- Changes the target of later calls, as long as the engine runs. -/
def setTarget (target : Address) (s : Session) : Except Failure Session :=
  match s.link.phase with
  | .running _ => .ok { s with link := { s.link with target } }
  | .stopped _ => .error .engineStopped

/-- Asks the engine to stop. -/
def shutdown (now : Instant) (s : Session) : Session × Effect :=
  passOn now .requestShutdown { s with activated := false }

/-- Callers whose patience has ended get a timeout. -/
def losePatience (now : Instant) (s : Session) : Session × Effect :=
  let gone := s.patience.filter (·.deadline ≤ now)
  ({ s with
      patience := s.patience.filter fun p => ¬p.deadline ≤ now
      givenUp := s.givenUp ++ gone.map (·.call) },
    ⟨gone.map (Engine.timedOut ·.call), []⟩)

/-- The engine takes `count` commands. -/
def takeCommands (now : Instant) : (count : Nat) → Session → Session × Effect
  | 0, s => (s, .none)
  | count + 1, s =>
    let (s, first) := s.passOn now .take
    let (s, others) := takeCommands now count s
    (s, first ++ others)

/-- The engine takes all commands that are queued. -/
def takeAll (now : Instant) (s : Session) : Session × Effect :=
  s.takeCommands now s.link.queue.length

/-- The first part of closing: the engine is asked to stop, or ended at once if there is no time
to wait for it. -/
def beginClose (now : Instant) (s : Session) : Session × Effect :=
  if s.closeTimeout = .zero then passOn now .abort { s with activated := false }
  else s.shutdown now

/-- Closes the session: the engine takes what is queued and stops. -/
def close (now : Instant) (s : Session) : Session × Effect :=
  let (s, first) := s.beginClose now
  let (s, others) := s.takeAll now
  (s, first ++ others)

/-- The next time at which a call ends without a frame. -/
def nextDeadline (s : Session) : Option Instant :=
  let engine := match s.link.phase with
    | .running e => e.nextDeadline
    | .stopped _ => none
  earlier engine (earliest (s.patience.map (some ·.deadline)))

/-- What can happen to a session. -/
inductive Event where
  | ask (id : CallId) (request : Request)
  | setTarget (target : Address)
  | shutdown
  | close
  /-- The engine takes the oldest command. -/
  | take
  /-- The engine reads octets; none is the end of the stream. -/
  | read (octets : Octets)
  | readFailed (text : String)
  /-- A deadline of the engine has come. -/
  | deadline
  /-- Callers run out of patience. -/
  | losePatience
deriving DecidableEq, Repr

def step (now : Instant) (event : Event) (s : Session) : Session × Effect :=
  match event with
  | .ask id request => s.ask now id request
  | .setTarget target =>
    match s.setTarget target with
    | .ok s => (s, .none)
    | .error _ => (s, .none)
  | .shutdown => s.shutdown now
  | .close => s.close now
  | .take => s.passOn now .take
  | .read octets => s.passOn now (.read octets)
  | .readFailed text => s.passOn now (.readFailed text)
  | .deadline => s.passOn now .deadline
  | .losePatience => s.losePatience now

/-- The events of a run, one after the other. -/
def run : List (Instant × Event) → Session → Session × Effect
  | [], s => (s, .none)
  | (now, event) :: events, s =>
    let (s, first) := s.step now event
    let (s, others) := run events s
    (s, first ++ others)

end Session
end Doip
