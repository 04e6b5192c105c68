import Doip.Engine.Start

/-! # Frames from the gateway

Each frame concerns the exchange that its type names and leaves the others alone.
A payload that cannot be read fails a receive if it should have been a diagnostic
message, and is skipped otherwise. -/
namespace Doip.Engine

/-- What the answer to an activation request says to its caller. -/
def activationAnswer (t : Tuning) (r : ActivationResponse) : Answer :=
  if !r.code.isSuccess then .failed (.activationDenied r.code)
  else if r.tester ≠ t.source then .failed (.activationMismatch t.source r.tester)
  else .activated

def onActivationResponse (t : Tuning) (r : ActivationResponse) (e : Engine) : Engine × Effect :=
  match e.activation with
  | none => (e, .none)
  | some wait => ({ e with activation := none }, .reply wait.call (activationAnswer t r))

/-- Ends the oldest wait for an acknowledgement. -/
def settleAck (answer : Answer) (e : Engine) : Engine × Effect :=
  match e.acks with
  | [] => (e, .none)
  | wait :: acks => ({ e with acks }, .reply wait.call answer)

/-- Acknowledgements for other testers are skipped. -/
def onAck (t : Tuning) (a : Acknowledgement) (answer : Answer) (e : Engine) : Engine × Effect :=
  if a.target ≠ t.source then (e, .none) else e.settleAck answer

/-- A refusal of the last request as such: it ends an activation, or else the oldest send. -/
def onGenericNack (code : UInt8) (e : Engine) : Engine × Effect :=
  let answer := Answer.failed (.unexpectedResponse ("generic NACK 0x" ++ Text.hex2 code))
  match e.activation with
  | some wait => ({ e with activation := none }, .reply wait.call answer)
  | none => e.settleAck answer

/-- Ends the oldest receive. -/
def settleReceive (answer : Answer) (e : Engine) : Engine × Effect :=
  match e.receives with
  | [] => (e, .none)
  | wait :: receives => ({ e with receives }, .reply wait.call answer)

/-- A response pending of the target restarts the oldest receive, or is remembered for the next. -/
def onPending (t : Tuning) (now : Instant) (e : Engine) : Engine :=
  match e.receives with
  | wait :: rest => { e with receives := wait.extend now t.p2Star :: rest }
  | [] => { e with pendingAt := some now }

/-- Keeps a response that nobody waits for; the oldest one makes room. -/
def buffered (t : Tuning) (frame : Octets) (e : Engine) : Engine :=
  let kept := if t.inboxCapacity ≤ e.inbox.length then e.inbox.tail else e.inbox
  { e with inbox := kept ++ [frame] }

/-- A final response goes to all open collections, else to the oldest receive if it comes from
the target, else into the inbox. -/
def onResponse (t : Tuning) (fromTarget : Bool) (frame : Octets) (e : Engine) : Engine × Effect :=
  let e := if fromTarget then { e with pendingAt := none } else e
  if e.collections ≠ [] then
    ({ e with collections := e.collections.map fun c => { c with frames := c.frames ++ [frame] } },
      .none)
  else if fromTarget && !e.receives.isEmpty then e.settleReceive (.frame frame)
  else (e.buffered t frame, .none)

/-- Diagnostic messages for other testers are skipped. -/
def onDiagnostic (t : Tuning) (target : Address) (now : Instant) (frame : Octets)
    (m : Diagnostic) (e : Engine) : Engine × Effect :=
  if m.target ≠ t.source then (e, .none)
  else if isResponsePending m.data then
    (if m.source = target then e.onPending t now else e, .none)
  else e.onResponse t (m.source = target) frame

def dispatch (t : Tuning) (target : Address) (now : Instant) (f : Frame) (e : Engine) :
    Engine × Effect :=
  match f.message with
  | .error fault =>
    if PayloadKind.ofCode f.header.payloadType = .diagnostic then
      e.settleReceive (.failed (.ofWireError fault))
    else (e, .none)
  | .ok m =>
    match m with
    | .aliveCheckRequest => (e, .send (wire t (.aliveCheckResponse t.source)))
    | .activationResponse r => e.onActivationResponse t r
    | .positiveAck a => e.onAck t a .acknowledged
    | .negativeAck a => e.onAck t a (.failed (.negativeAck ⟨a.code⟩))
    | .diagnostic m => e.onDiagnostic t target now f.encode m
    | .genericNack code => e.onGenericNack code
    | .activationRequest _ => (e, .none)
    | .aliveCheckResponse _ => (e, .none)
    | .unsupported _ _ => (e, .none)

/-- Several frames, one after the other. -/
def dispatchAll (t : Tuning) (target : Address) (now : Instant) :
    List Frame → Engine → Engine × Effect
  | [], e => (e, .none)
  | f :: frames, e =>
    let (e, first) := e.dispatch t target now f
    let (e, others) := dispatchAll t target now frames e
    (e, first ++ others)

/-- Octets from the gateway: all frames that are complete now are dispatched. A header error is
returned after that. -/
def absorb (t : Tuning) (target : Address) (now : Instant) (octets : Octets) (e : Engine) :
    (Engine × Effect) × Option WireError :=
  let r := reassemble t.maxPayload (e.buffer ++ octets)
  let (e, effect) := dispatchAll t target now r.frames e
  (({ e with buffer := r.rest }, effect), r.error)

end Doip.Engine
