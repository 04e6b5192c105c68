import Doip.Engine.Wait
import Doip.Failure
import Doip.Settings

/-! # The engine: calls, answers and state

One engine serves one connection. Calls reach it one at a time, frames from the
gateway in between; each call ends with one answer, at once or later. -/
namespace Doip

/-- What the engine is told once, when the connection is made. -/
structure Tuning where
  /-- The tester's own logical address. -/
  source : Address
  version : UInt8
  activationTimeout : Duration
  p2Star : Duration
  grace : Duration
  maxPayload : UInt32
  inboxCapacity : Nat
deriving DecidableEq, Repr

/-- The engine's part of the settings. At least one unclaimed response is kept. -/
def Tuning.ofSettings (source : Address) (s : Settings) : Tuning where
  source := source
  version := s.protocolVersion
  activationTimeout := s.activationTimeout
  p2Star := s.p2Star
  grace := s.multiResponseGrace
  maxPayload := s.maxPayloadLength
  inboxCapacity := max s.inboxCapacity.toNat 1

/-- What callers ask of the engine. -/
inductive Call where
  | activate (type : ActivationType)
  /-- Send a diagnostic message and wait for its acknowledgement. -/
  | send (target : Address) (data : Octets) (timeout : Option Duration)
  /-- Wait for the next final response from the current target. -/
  | receive (timeout : Option Duration)
  /-- Collect every response within the window. -/
  | collect (window : Duration)
deriving DecidableEq, Repr

inductive Command where
  | call (id : CallId) (call : Call)
  | shutdown
deriving DecidableEq, Repr

/-- How a call ends. -/
inductive Answer where
  | activated
  | acknowledged
  | frame (octets : Octets)
  | frames (frames : List Octets)
  | failed (failure : Failure)
deriving DecidableEq, Repr

structure Reply where
  call : CallId
  answer : Answer
deriving DecidableEq, Repr

/-- What the engine does to its surroundings: it answers calls and writes to the gateway. -/
structure Effect where
  replies : List Reply
  sent : Octets
deriving DecidableEq, Repr

namespace Effect

def none : Effect := ⟨[], []⟩

def reply (call : CallId) (answer : Answer) : Effect := ⟨[⟨call, answer⟩], []⟩

def send (octets : Octets) : Effect := ⟨[], octets⟩

/-- One effect after the other. -/
def append (a b : Effect) : Effect := ⟨a.replies ++ b.replies, a.sent ++ b.sent⟩

instance : Append Effect := ⟨append⟩

end Effect

structure Engine where
  /-- Octets that have arrived and are no whole frame yet. -/
  buffer : Octets
  activation : Option ActivationWait
  /-- Sends without an acknowledgement, oldest first. -/
  acks : List AckWait
  /-- Receives without a response, oldest first. -/
  receives : List ReceiveWait
  collections : List Collection
  /-- Responses that nobody has claimed, oldest first. -/
  inbox : List Octets
  /-- When the target's last response pending came, if no receive was waiting then. -/
  pendingAt : Option Instant
deriving DecidableEq, Repr

namespace Engine

def initial : Engine := ⟨[], none, [], [], [], [], none⟩

/-- The calls that wait for an answer. -/
def waiting (e : Engine) : List CallId :=
  (e.activation.toList.map (·.call)) ++ e.acks.map (·.call) ++ e.receives.map (·.call) ++
    e.collections.map (·.call)

/-- The next time at which a wait ends. -/
def nextDeadline (e : Engine) : Option Instant :=
  earliest ((e.activation.toList.map (·.deadline)) ++ e.acks.map (·.deadline) ++
    e.receives.map (·.deadline) ++ e.collections.map (some ·.deadline))

end Engine
end Doip
