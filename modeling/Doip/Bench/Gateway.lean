import Doip.Frame

/-! # A scripted gateway

The gateway of a test: it performs the steps of its script one after the other, each
when the octets it needs have arrived, and stops at the first that fails. -/
namespace Doip.Bench

inductive GatewayStep where
  /-- Answer a routing activation with `code`, to `tester` if that is given. -/
  | acceptActivation (code : ActivationCode) (tester : Option Address)
  /-- Read up to a diagnostic message, passing over alive check responses. -/
  | expectDiagnostic
  | readMessage
  /-- Acknowledge the last diagnostic message. -/
  | ack
  | nack (code : UInt8)
  /-- Send user data from an ECU to a tester. -/
  | respond (ecu tester : Address) (data : Octets)
  | write (message : Message)
  | writeOctets (octets : Octets)
  | close
  /-- Read until the client hangs up. -/
  | waitClosed
  /-- Wait until the client has finished the step of this index. -/
  | after (step : Nat)
deriving DecidableEq, Repr

/-- How a step fails. -/
inductive GatewayError where
  /-- Another message than expected, or octets that cannot be read. -/
  | invalidData
  /-- The client hung up. -/
  | unexpectedEnd
  /-- There is nothing to acknowledge, or no connection any more. -/
  | unsupported
deriving DecidableEq, Repr

/-- What a step brings. -/
inductive GatewayValue where
  | nothing
  | activation (request : ActivationRequest)
  | diagnostic (message : Diagnostic)
  | message (message : Message)
deriving DecidableEq, Repr

structure Gateway where
  /-- Octets that have arrived and are not read yet. -/
  buffer : Octets
  /-- Whether the client has hung up. -/
  ended : Bool
  /-- The last diagnostic message that was expected. -/
  last : Option Diagnostic
  /-- Whether the connection is still held. -/
  connected : Bool
  /-- The steps not finished yet. -/
  script : List GatewayStep
  results : List (Except GatewayError GatewayValue)
deriving Repr

namespace Gateway

def opened (script : List GatewayStep) : Gateway := ⟨[], false, none, true, script, []⟩

/-- The address that the gateway reports for itself. -/
def ownAddress : Address := 0x1000

/-- The frame of a message from the gateway. -/
def wire (m : Message) : Octets := (Frame.ofMessage defaultProtocolVersion m).encode

/-- How reading the next message goes. -/
inductive Reading where
  /-- More octets are needed. -/
  | waiting
  | failed (error : GatewayError)
  | message (message : Message) (rest : Octets)

/-- Reads a message from the octets that have arrived. -/
def nextMessage (g : Gateway) : Reading :=
  match Frame.scan defaultPayloadLimit g.buffer with
  | .incomplete => if g.ended then .failed .unexpectedEnd else .waiting
  | .broken _ => .failed .invalidData
  | .complete frame rest =>
    match frame.message with
    | .ok m => .message m rest
    | .error _ => .failed .invalidData

/-- The current step is finished. -/
def finish (value : GatewayValue) (g : Gateway) : Gateway :=
  { g with script := g.script.tail, results := g.results ++ [.ok value] }

/-- The current step fails, and with it the script. -/
def fail (error : GatewayError) (g : Gateway) : Gateway :=
  { g with script := [], results := g.results ++ [.error error] }

/-- The acknowledgement of a message, by the ECU it went to. -/
def acknowledgement (m : Diagnostic) (code : UInt8) : Acknowledgement :=
  ⟨m.target, m.source, code, []⟩

/-- The answer to an activation request. -/
def activationAnswer (request : ActivationRequest) (code : ActivationCode)
    (tester : Option Address) : Message :=
  .activationResponse ⟨tester.getD request.source, ownAddress, code, none⟩

/-- Reads a message for a step; `use` says what the step makes of it. -/
def reading (g : Gateway) (use : Message → Gateway → Gateway × Octets) :
    Option (Gateway × Octets) :=
  match g.nextMessage with
  | .waiting => none
  | .failed error => some (g.fail error, [])
  | .message m rest => some (use m { g with buffer := rest })

/-- Writes octets as the last part of a step. -/
def writing (g : Gateway) (octets : Octets) : Option (Gateway × Octets) :=
  some (g.finish .nothing, octets)

/-- Waits for the client to hang up; what it still sends is read and dropped. -/
def waitForEnd (g : Gateway) : Option (Gateway × Octets) :=
  match Frame.scan defaultPayloadLimit g.buffer with
  | .incomplete =>
    if g.ended then some ({ g with connected := false }.finish .nothing, []) else none
  | .broken _ => some ({ g with connected := false }.fail .invalidData, [])
  | .complete _ rest => some ({ g with buffer := rest }, [])

/-- One move in the current step, when it is possible: the gateway after it and what it writes.
`finished` is how many steps the client has finished. -/
def move (finished : Nat) (g : Gateway) : Option (Gateway × Octets) :=
  match g.script with
  | [] => none
  | .after step :: _ => if step < finished then some (g.finish .nothing, []) else none
  | step :: _ =>
    if !g.connected then some (g.fail .unsupported, [])
    else
      match step with
      | .acceptActivation code tester => g.reading fun m g =>
        match m with
        | .activationRequest r =>
          (g.finish (.activation r), wire (activationAnswer r code tester))
        | _ => (g.fail .invalidData, [])
      | .expectDiagnostic => g.reading fun m g =>
        match m with
        | .diagnostic d => ({ g with last := some d }.finish (.diagnostic d), [])
        | .aliveCheckResponse _ => (g, [])
        | _ => (g.fail .invalidData, [])
      | .readMessage => g.reading fun m g => (g.finish (.message m), [])
      | .ack =>
        match g.last with
        | some d => g.writing (wire (.positiveAck (acknowledgement d 0)))
        | none => some (g.fail .unsupported, [])
      | .nack code =>
        match g.last with
        | some d => g.writing (wire (.negativeAck (acknowledgement d code)))
        | none => some (g.fail .unsupported, [])
      | .respond ecu tester data => g.writing (wire (.diagnostic ⟨ecu, tester, data⟩))
      | .write m => g.writing (wire m)
      | .writeOctets octets => g.writing octets
      | .close => some ({ g with connected := false }.finish .nothing, [])
      | .waitClosed => g.waitForEnd
      | .after _ => none

end Gateway
end Doip.Bench
