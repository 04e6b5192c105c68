import Doip.Session

/-! # Rehearsing a session

A session and a gateway that is played octet by octet, under a clock that moves only
when told to, a millisecond at a time. After each step the engine takes all commands,
then reads what the gateway has written, then meets its deadlines; nothing is left to
do after that until the next step. -/
namespace Doip.Bench

/-- How the gateway's side of the connection ends. -/
inductive Ending where
  /-- No more octets follow. -/
  | closed
  /-- The connection is broken off. -/
  | reset
deriving DecidableEq, Repr

inductive Action where
  | ask (request : Request)
  | setTarget (target : Address)
  /-- Show the session's state as text. -/
  | display
  | shutdown
  | close
  /-- The gateway writes octets. -/
  | write (octets : Octets)
  | finish (ending : Ending)
  | advance (millis : Nat)
deriving DecidableEq, Repr

/-- What an action returns at once. -/
inductive ActionResult where
  | nothing
  | target (result : Except Failure Unit)
  | text (text : String)

/-- A call that has ended, and when. -/
structure Done where
  call : CallId
  elapsed : Nat
  answer : Answer
deriving DecidableEq, Repr

structure Rehearsal where
  session : Session
  /-- Milliseconds since the start. -/
  elapsed : Nat
  /-- Written by the gateway and not read yet. -/
  inbound : Octets
  ending : Option Ending
  /-- Calls that have not ended. -/
  unfinished : List CallId
deriving DecidableEq, Repr

/-- What one step brought about. -/
structure Trace where
  done : List Done
  sent : Octets
deriving DecidableEq, Repr

namespace Trace

def none : Trace := ⟨[], []⟩

def append (a b : Trace) : Trace := ⟨a.done ++ b.done, a.sent ++ b.sent⟩

instance : Append Trace := ⟨append⟩

end Trace

namespace Rehearsal

/-- The clock at the start: one hour after its origin. -/
def origin : Instant := 3600 * nanosPerSecond

def opened (source target : Address) (s : Settings) : Rehearsal :=
  ⟨.opened source target s, 0, [], .none, []⟩

def now (r : Rehearsal) : Instant := origin + r.elapsed * nanosPerMilli

/-- Takes over the session and what happened to it. Octets to a broken connection are lost. -/
def note (r : Rehearsal) (result : Session × Effect) : Rehearsal × Trace :=
  let (session, effect) := result
  ({ r with
      session
      unfinished := r.unfinished.filter fun id => !(effect.replies.map (·.call)).contains id },
    ⟨effect.replies.map fun reply => ⟨reply.call, r.elapsed, reply.answer⟩,
      if r.ending = some .reset then [] else effect.sent⟩)

/-- What the engine reads now. -/
def readings (r : Rehearsal) : List Session.Event :=
  let data := if r.inbound = [] then [] else [Session.Event.read r.inbound]
  match r.ending with
  | none => data
  | some .closed => data ++ [.read []]
  | some .reset => data ++ [.readFailed "Connection reset by peer (os error 104)"]

/-- The engine does all there is to do at this moment. -/
def settle (r : Rehearsal) : Rehearsal × Trace :=
  let takes := List.replicate r.session.link.queue.length Session.Event.take
  let events := takes ++ r.readings ++ [.losePatience, .deadline]
  let result := Session.run (events.map fun event => (r.now, event)) r.session
  note { r with inbound := [] } result

/-- How many milliseconds may pass before anything happens, at most `millis`, at least one. -/
def quietMillis (r : Rehearsal) (millis : Nat) : Nat :=
  match r.session.nextDeadline with
  | none => millis
  | some deadline => min millis (max 1 ((deadline - r.now + nanosPerMilli - 1) / nanosPerMilli))

/-- Lets time pass. Milliseconds in which nothing happens are passed over. -/
def advance (millis : Nat) (r : Rehearsal) : Rehearsal × Trace :=
  if millis = 0 then (r, .none)
  else
    let step := max 1 (r.quietMillis millis)
    let (r, first) := settle { r with elapsed := r.elapsed + min step millis }
    let (r, others) := advance (millis - step) r
    (r, first ++ others)
termination_by millis
decreasing_by omega

/-- Whether the gateway can still write. -/
def canWrite (r : Rehearsal) : Bool := r.session.link.isAlive && r.ending.isNone

/-- Performs one action; a call gets the name `id`. -/
def perform (id : CallId) (action : Action) (r : Rehearsal) : Rehearsal × Trace × ActionResult :=
  let quiet (result : Rehearsal × Trace) : Rehearsal × Trace × ActionResult :=
    (result.1, result.2, .nothing)
  match action with
  | .ask request =>
    quiet (note { r with unfinished := r.unfinished ++ [id] } (r.session.ask r.now id request))
  | .setTarget target =>
    match r.session.setTarget target with
    | .ok session => ({ r with session }, .none, .target (.ok ()))
    | .error failure => (r, .none, .target (.error failure))
  | .display => (r, .none, .text r.session.text)
  | .shutdown => quiet (r.note (r.session.shutdown r.now))
  | .close => quiet (r.note (r.session.beginClose r.now))
  | .write octets =>
    (if r.canWrite then { r with inbound := r.inbound ++ octets } else r, .none, .nothing)
  | .finish ending => (if r.canWrite then { r with ending } else r, .none, .nothing)
  | .advance millis => quiet (r.advance millis)

/-- Performs actions in order; calls are named from `id` on. -/
def performAll (id : CallId) : List Action → Rehearsal → Rehearsal × Trace × List ActionResult
  | [], r => (r, .none, [])
  | action :: actions, r =>
    let (r, first, result) := r.perform id action
    let (r, others, results) := performAll (id + 1) actions r
    (r, first ++ others, result :: results)

/-- What can be seen after a step. -/
structure Report where
  results : List ActionResult
  /-- The calls that ended, by name. -/
  done : List Done
  sent : Octets
  isOpen : Bool
  target : Address
  elapsed : Nat
  waiting : Nat
  /-- Whether the gateway has seen the end of the connection. -/
  disconnected : Bool

/-- A step: its actions are performed, then the engine does its work. -/
def step (id : CallId) (actions : List Action) (r : Rehearsal) : Rehearsal × Report :=
  let (r, first, results) := r.performAll id actions
  let (r, last) := r.settle
  let trace := first ++ last
  (r, {
    results
    done := trace.done.mergeSort fun a b => a.call ≤ b.call
    sent := trace.sent
    isOpen := r.session.isOpen
    target := r.session.target
    elapsed := r.elapsed
    waiting := r.unfinished.length
    disconnected := !r.session.link.isAlive || r.ending = some .reset })

/-- The steps of a rehearsal; the calls of step `n` are named from `100 * n` on. -/
def run (number : Nat) : List (List Action) → Rehearsal → List Report
  | [], _ => []
  | actions :: steps, r =>
    let (r, report) := r.step (100 * number) actions
    report :: run (number + 1) steps r

end Rehearsal
end Doip.Bench
