import Doip.Engine.Start

/-! # Deadlines

At a deadline an activation, a send or a receive fails with a timeout, and a
collection is complete. Waits that are not due stay as they are, in order. -/
namespace Doip.Engine

def timedOut (call : CallId) : Reply := ⟨call, .failed .timeout⟩

/-- Ends all waits whose deadline has come. -/
def expire (now : Instant) (e : Engine) : Engine × Effect :=
  let due := isDue now
  let activations := e.activation.toList.filter (due ·.deadline)
  let acks := e.acks.filter (due ·.deadline)
  let receives := e.receives.filter (due ·.deadline)
  let complete := e.collections.filter (·.deadline ≤ now)
  ({ e with
      activation := e.activation.filter fun w => !due w.deadline
      acks := e.acks.filter fun w => !due w.deadline
      receives := e.receives.filter fun w => !due w.deadline
      collections := e.collections.filter fun c => ¬c.deadline ≤ now },
    ⟨activations.map (timedOut ·.call) ++ acks.map (timedOut ·.call) ++
      receives.map (timedOut ·.call) ++ complete.map fun c => ⟨c.call, .frames c.frames⟩, []⟩)

/-- The failure of every wait, when the engine stops. -/
def failAll (failure : Failure) (e : Engine) : List Reply :=
  e.waiting.map fun call => ⟨call, .failed failure⟩

end Doip.Engine
