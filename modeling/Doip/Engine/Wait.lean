import Doip.Frame
import Doip.Time

/-! # Waits

What the engine keeps for each call that has no answer yet. A wait may have a
deadline; a response pending restarts the one of a receive. -/
namespace Doip

/-- Names a call. The engine answers under this name. -/
abbrev CallId := Nat

structure ActivationWait where
  call : CallId
  deadline : Option Instant
deriving DecidableEq, Repr

/-- A message was sent and its acknowledgement is awaited. -/
structure AckWait where
  call : CallId
  deadline : Option Instant
deriving DecidableEq, Repr

structure ReceiveWait where
  call : CallId
  deadline : Option Instant
  /-- What the caller asked for, applied again after each response pending. -/
  timeout : Option Duration
deriving DecidableEq, Repr

namespace ReceiveWait

/-- Restarts the timer at a response pending, with at least `p2Star` from now. -/
def extend (w : ReceiveWait) (now : Instant) (p2Star : Duration) : ReceiveWait :=
  match w.timeout with
  | some timeout => { w with deadline := deadlineAfter now (some (timeout.longer p2Star)) }
  | none => w

/-- Takes account of a response pending that came at `pendingAt`, before the wait began. -/
def extendFrom (w : ReceiveWait) (pendingAt : Instant) (p2Star : Duration) : ReceiveWait :=
  match w.deadline, deadlineAfter pendingAt (some p2Star) with
  | some own, some extended => { w with deadline := some (max own extended) }
  | _, _ => { w with deadline := none }

end ReceiveWait

/-- Every response is collected until the deadline. -/
structure Collection where
  call : CallId
  deadline : Instant
  frames : List Octets
deriving DecidableEq, Repr

end Doip
