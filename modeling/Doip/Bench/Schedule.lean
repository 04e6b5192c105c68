import Doip.Bench.Conversation
import Doip.Bench.Loopback

/-! # Playing a conversation

One run of a conversation among the possible ones: whoever can move without waiting
moves first, the client last, and octets arrive as soon as they are sent. Time passes
only when nobody can move. -/
namespace Doip.Bench.Conversation

/-- The moves that are tried, in this order, before time passes. -/
def candidates (c : Conversation) : List Move :=
  [.take, .engineReads c.toEngine.length, .engineReadsEnd,
    .gatewayReceives c.toGateway.length, .gatewayReceivesEnd, .gateway, .client]

/-- Moves until nobody can move any more, at most `fuel` times. -/
def settle (now : Instant) : (fuel : Nat) → Conversation → Instant × Conversation
  | 0, c => (now, c)
  | fuel + 1, c =>
    match c.candidates.findSome? (c.step now) with
    | some c => settle now fuel c
    | none =>
      match c.session.nextDeadline with
      | none => (now, c)
      | some deadline =>
        match c.step (max now deadline) .deadline with
        | some c => settle (max now deadline) fuel c
        | none => (now, c)

/-- The octets that the scripts of both sides speak of, and one more for each step. -/
def weight (c : Conversation) : Nat :=
  (c.plan.map fun
    | .ask (.send data _) => data.length + 1
    | _ => 1).foldl (· + ·) 0 +
  (c.gateway.script.map fun
    | .respond _ _ data => data.length + 1
    | .write m => m.encode.length + 1
    | .writeOctets octets => octets.length + 1
    | _ => 1).foldl (· + ·) 0

/-- Plays the conversation to its end. Each step takes few moves, and so does each octet. -/
def play (now : Instant) (c : Conversation) : Conversation :=
  (settle now (16 * (c.weight + 4)) c).2

end Conversation

/-- What came of a client and a gateway that were brought together. -/
structure Played where
  /-- What the client's steps brought. -/
  reports : List ClientReport
  /-- What the gateway's steps brought. -/
  results : List (Except GatewayError GatewayValue)

/-- The clock at the start of a conversation: one hour after its origin. -/
def conversationStart : Instant := 3600 * nanosPerSecond

/-- Connects a client to the gateway that listens on `port`, and plays their conversation. A strict
client leaves out all steps after one that failed. -/
def converse (port : Option UInt16) (source : Address) (ip : String) (target : Address)
    (settings : Settings) (strict : Bool) (plan : List ClientStep) (script : List GatewayStep) :
    Except Failure Played := do
  connect port source ip settings
  let c := Conversation.play conversationStart
    { Conversation.opened source target settings plan script with strict }
  return ⟨c.reports, c.gateway.results⟩

end Doip.Bench
