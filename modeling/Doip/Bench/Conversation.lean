import Doip.Bench.Gateway
import Doip.Session

/-! # A client and a gateway

A client that performs its steps one after the other, waiting for each, and a scripted
gateway, with the octets that are under way between them. Either side moves when it
can, in any order, and octets arrive in pieces of any size: a run is a list of moves,
each at its time. -/
namespace Doip.Bench

inductive ClientStep where
  | ask (request : Request)
  | setTarget (target : Address)
  | source
  | target
  /-- Show the client's state as text. -/
  | display
  | close
  /-- Give up the session without waiting for the engine. -/
  | leave
  /-- Wait until the gateway has finished the step of this index. -/
  | waitGateway (step : Nat)
  /-- Wait until the engine has stopped. -/
  | waitStopped
deriving DecidableEq, Repr

/-- What a step of the client brings. -/
inductive ClientResult where
  | nothing
  | address (address : Address)
  | text (text : String)
  | answer (answer : Answer)
  | failed (failure : Failure)
deriving DecidableEq, Repr

/-- Whether the step failed. -/
def ClientResult.isFailure : ClientResult → Bool
  | answer (.failed _) => true
  | failed _ => true
  | _ => false

/-- What can be seen after a step. -/
structure ClientReport where
  result : ClientResult
  isOpen : Bool
deriving DecidableEq, Repr

structure Conversation where
  session : Session
  /-- Whether the client still has the session. -/
  held : Bool
  /-- Whether the client waits for the answer to a call. -/
  waiting : Bool
  /-- The client's steps that are not finished. -/
  plan : List ClientStep
  /-- Whether the client leaves out all steps after one that failed. -/
  strict : Bool
  reports : List ClientReport
  gateway : Gateway
  /-- Under way to the engine. -/
  toEngine : Octets
  /-- Under way to the gateway. -/
  toGateway : Octets

namespace Conversation

/-- A conversation before its first move. -/
def opened (source target : Address) (s : Settings) (plan : List ClientStep)
    (script : List GatewayStep) : Conversation where
  session := .opened source target s
  held := true
  waiting := false
  plan := plan
  strict := false
  reports := []
  gateway := .opened script
  toEngine := []
  toGateway := []

/-- Whether the client would say that its session is open. -/
def isOpen (c : Conversation) : Bool := c.held && c.session.isOpen

/-- The client's state as text. -/
def text (c : Conversation) : String :=
  if c.held then "DoIpClient \x7b session: " ++ c.session.text ++ " \x7d" else "DoIpClient(closed)"

def clientClosed : Failure := .connectFailed "client is closed"

/-- The client finishes its current step. -/
def finish (result : ClientResult) (c : Conversation) : Conversation :=
  { c with
    waiting := false
    plan := if c.strict && result.isFailure then [] else c.plan.tail
    reports := c.reports ++ [⟨result, c.isOpen⟩] }

/-- Takes over the session and what happened to it; an answer finishes the client's step. -/
def note (result : Session × Effect) (c : Conversation) : Conversation :=
  let (session, effect) := result
  let c := { c with session, toGateway := c.toGateway ++ effect.sent }
  match effect.replies with
  | [] => c
  | reply :: _ => if c.waiting then c.finish (.answer reply.answer) else c

/-- The client closes its session, waiting for the engine. -/
def closed (now : Instant) (c : Conversation) : Conversation :=
  if c.held then { c.note (c.session.close now) with held := false } else c

/-- A step that needs the session: refused once the client has closed it. -/
def withSession (c : Conversation) (result : ClientResult) : Conversation :=
  c.finish (if c.held then result else .failed clientClosed)

/-- The client begins its next step, and finishes it if that needs no waiting. After its last step
it closes the session. -/
def beginStep (now : Instant) (c : Conversation) : Option Conversation :=
  if c.waiting then none
  else
    match c.plan with
    | [] => if c.held then some (c.closed now) else none
    | .ask request :: _ =>
      if c.held then
        some ({ c with waiting := true }.note (c.session.ask now c.reports.length request))
      else some (c.finish (.failed clientClosed))
    | .setTarget target :: _ =>
      match c.session.setTarget target with
      | .ok session =>
        some ({ c with session := if c.held then session else c.session }.withSession .nothing)
      | .error failure => some (c.withSession (.failed failure))
    | .source :: _ => some (c.withSession (.address c.session.source))
    | .target :: _ => some (c.withSession (.address c.session.target))
    | .display :: _ => some (c.finish (.text c.text))
    | .close :: _ => some ((c.closed now).finish .nothing)
    | .leave :: _ =>
      let c := if c.held then { c.note (c.session.shutdown now) with held := false } else c
      some (c.finish .nothing)
    | .waitGateway step :: _ =>
      if step < c.gateway.results.length then some (c.finish .nothing) else none
    | .waitStopped :: _ =>
      if !c.held || !c.session.link.isAlive then some (c.finish .nothing) else none

/-- Who moves, and how far. -/
inductive Move where
  /-- The client begins a step. -/
  | client
  /-- The engine takes a command. -/
  | take
  /-- The engine reads some of the octets that are under way to it, one at least. -/
  | engineReads (count : Nat)
  /-- The engine reads the end of the stream. -/
  | engineReadsEnd
  /-- A deadline is met. -/
  | deadline
  /-- The gateway receives some of the octets that are under way to it, one at least. -/
  | gatewayReceives (count : Nat)
  /-- The gateway learns that the client hung up. -/
  | gatewayReceivesEnd
  /-- The gateway moves in its step. -/
  | gateway
deriving DecidableEq, Repr

/-- One move, if it is possible. -/
def step (now : Instant) (move : Move) (c : Conversation) : Option Conversation :=
  let alive := c.session.link.isAlive
  match move with
  | .client => c.beginStep now
  | .take =>
    if c.session.link.queue = [] then none else some (c.note (c.session.step now .take))
  | .engineReads count =>
    if alive ∧ 0 < count ∧ count ≤ c.toEngine.length then
      some ({ c with toEngine := c.toEngine.drop count }.note
        (c.session.step now (.read (c.toEngine.take count))))
    else none
  | .engineReadsEnd =>
    if alive ∧ c.toEngine = [] ∧ !c.gateway.connected then
      some (c.note (c.session.step now (.read [])))
    else none
  | .deadline =>
    some (c.note (Session.run [(now, .losePatience), (now, .deadline)] c.session))
  | .gatewayReceives count =>
    if 0 < count ∧ count ≤ c.toGateway.length then
      some { c with
        toGateway := c.toGateway.drop count
        gateway := { c.gateway with buffer := c.gateway.buffer ++ c.toGateway.take count } }
    else none
  | .gatewayReceivesEnd =>
    if !alive ∧ c.toGateway = [] ∧ !c.gateway.ended then
      some { c with gateway := { c.gateway with ended := true } }
    else none
  | .gateway =>
    (c.gateway.move c.reports.length).map fun (gateway, octets) =>
      { c with gateway, toEngine := c.toEngine ++ octets }

/-- A run of moves, each at its time; none if one of them is impossible. -/
def run : List (Instant × Move) → Conversation → Option Conversation
  | [], c => some c
  | (now, move) :: moves, c => (c.step now move).bind (run moves)

end Conversation
end Doip.Bench
