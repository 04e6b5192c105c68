import Doip.Engine
import Doip.Service.NegativeResponse

/-! # Taking a call

What the engine does when it takes a call: it refuses the call, answers it from
what has already arrived, or registers a wait for it. -/
namespace Doip.Engine

/-- The frame of a message, as this tester writes it. -/
def wire (t : Tuning) (m : Message) : Octets := (Frame.ofMessage t.version m).encode

/-- Only one activation waits at a time. -/
def startActivation (t : Tuning) (now : Instant) (id : CallId) (type : ActivationType)
    (e : Engine) : Engine × Effect :=
  match e.activation with
  | some _ =>
    (e, .reply id (.failed (.invalidArgument "routing activation already in progress")))
  | none =>
    ({ e with activation := some ⟨id, deadlineAfter now (some t.activationTimeout)⟩ },
      .send (wire t (.activationRequest ⟨t.source, type⟩)))

/-- A new request makes the responses to earlier ones stale: what nobody has claimed is dropped. -/
def startSend (t : Tuning) (now : Instant) (id : CallId) (target : Address) (data : Octets)
    (timeout : Option Duration) (e : Engine) : Engine × Effect :=
  ({ e with
      inbox := []
      pendingAt := none
      acks := e.acks ++ [⟨id, deadlineAfter now timeout⟩] },
    .send (wire t (.diagnostic ⟨t.source, target, data⟩)))

/-- The wait of a receive that finds nothing in the inbox. -/
def receiveWait (t : Tuning) (now : Instant) (id : CallId) (timeout : Option Duration)
    (pendingAt : Option Instant) : ReceiveWait :=
  let wait : ReceiveWait := ⟨id, deadlineAfter now timeout, timeout⟩
  match pendingAt with
  | some seen => wait.extendFrom seen t.p2Star
  | none => wait

/-- The oldest unclaimed response of the target, or else a wait for the next one. -/
def startReceive (t : Tuning) (target : Address) (now : Instant) (id : CallId)
    (timeout : Option Duration) (e : Engine) : Engine × Effect :=
  let fromTarget (frame : Octets) : Bool := frameSource? frame = some target
  match e.inbox.find? fromTarget with
  | some frame =>
    ({ e with inbox := e.inbox.eraseP fromTarget }, .reply id (.frame frame))
  | none =>
    ({ e with
        pendingAt := none
        receives := e.receives ++ [receiveWait t now id timeout e.pendingAt] }, .none)

/-- The end of a collection that starts at `now`, if the clock can hold it. -/
def collectionEnd? (t : Tuning) (now : Instant) (window : Duration) : Option Instant :=
  (window.add? t.grace).bind (Instant.add? now)

/-- A collection starts with what is in the inbox. -/
def startCollection (t : Tuning) (now : Instant) (id : CallId) (window : Duration) (e : Engine) :
    Engine × Effect :=
  match collectionEnd? t now window with
  | some deadline =>
    ({ e with inbox := [], collections := e.collections ++ [⟨id, deadline, e.inbox⟩] }, .none)
  | none => (e, .reply id (.failed (.invalidArgument "collection window is too large")))

def start (t : Tuning) (target : Address) (now : Instant) (id : CallId) (call : Call)
    (e : Engine) : Engine × Effect :=
  match call with
  | .activate type => e.startActivation t now id type
  | .send receiver data timeout => e.startSend t now id receiver data timeout
  | .receive timeout => e.startReceive t target now id timeout
  | .collect window => e.startCollection t now id window

end Doip.Engine
