import Doip.Proofs.Bench.View
import Doip.Proofs.Frame.Stream

/-! # The shape of a conversation

A `Shape` is what remains of a conversation when one forgets how its octets are cut, at what time
a response pending came, and what the client's reports say of its session. A view `Shows` a shape,
and it `Carries` the messages that are under way. For each thing that either side can do there is
a lemma that says what shape comes of it. -/
namespace Doip

namespace Bench

/-- What the client has to do and has done, what its engine waits for, and where the gateway is. -/
structure Shape where
  plan : List ClientStep
  waiting : Bool
  results : List ClientResult
  queue : List Command := []
  activation : Option ActivationWait := none
  acks : List AckWait := []
  receives : List ReceiveWait := []
  inbox : List Octets := []
  script : List GatewayStep
  last : Option Diagnostic
  values : List (Except GatewayError GatewayValue)

namespace Shape

def engine (k : Shape) (buffer : Octets) (pendingAt : Option Instant) : Engine :=
  ⟨buffer, k.activation, k.acks, k.receives, [], k.inbox, pendingAt⟩

def gateway (k : Shape) (buffer : Octets) : Gateway :=
  ⟨buffer, false, k.last, true, k.script, k.values⟩

/-- The client's link has this queue and this engine. -/
def withEngine (queue : List Command) (e : Engine) (k : Shape) : Shape :=
  { k with
    queue := queue
    activation := e.activation
    acks := e.acks
    receives := e.receives
    inbox := e.inbox }

/-- The call that the client waits for is answered. -/
def answered (answer : Answer) (k : Shape) : Shape :=
  { k with
    plan := k.plan.tail
    waiting := false
    results := k.results ++ [.answer answer] }

end Shape

/-- The client and its engine, whose tuning is `t`, and the gateway have this shape. -/
structure Shows (t : Tuning) (target : Address) (k : Shape) (v : View) : Prop where
  held : v.held = true
  lenient : v.strict = false
  waiting : v.waiting = k.waiting
  plan : v.plan = k.plan
  results : v.results = k.results
  impatient : v.session.patience = []
  heard : v.session.givenUp = []
  link : ∃ buffer pendingAt,
    v.session.link = ⟨t, target, k.queue, .running (k.engine buffer pendingAt)⟩
  gateway : ∃ buffer, v.gateway = k.gateway buffer

/-- These messages are under way; some of their octets may have arrived. Of those to the engine none
has arrived whole. -/
structure Carries (t : Tuning) (toEngine toGateway : List Message) (v : View) : Prop where
  inbound : v.session.link.engine.buffer ++ v.toEngine =
    Message.stream defaultProtocolVersion toEngine
  outbound : v.gateway.buffer ++ v.toGateway = Message.stream t.version toGateway
  accepted : ∀ m ∈ toEngine, m.Travels t.maxPayload
  understood : ∀ m ∈ toGateway, m.Travels defaultPayloadLimit
  partly : Frame.scan t.maxPayload v.session.link.engine.buffer = .incomplete

variable {t : Tuning} {target : Address} {k : Shape} {v : View} {now : Instant} {a : Link.Act}

theorem Shape.engine_withEngine {e : Engine} (closed : e.collections = []) (queue : List Command)
    (k : Shape) : (k.withEngine queue e).engine e.buffer e.pendingAt = e := by
  rw [engine, ← closed]
  rfl

/-- Where no caller runs out of patience, all answers are handed over. -/
theorem Session.perform_eq {s : Session} {l : Link} {effect : Effect} (impatient : s.patience = [])
    (heard : s.givenUp = []) (act : s.link.act now a = (l, effect)) :
    s.perform now a = ({ s with
      link := l
      activated := s.activated || effect.replies.any (·.answer = .activated) }, effect) := by
  unfold Session.perform Session.deliver
  rw [act]
  simp [impatient, heard]

theorem Session.losePatience_of_nobody {s : Session} (impatient : s.patience = []) :
    s.losePatience now = (s, .none) := by
  obtain ⟨link, margin, closeTimeout, activated, patience, givenUp⟩ := s
  cases impatient
  simp [Session.losePatience, Effect.none]

theorem Session.ask_send_of_short {s : Session} {id : CallId} {data : Octets}
    {timeout : Option Duration} (short : data.length + 4 ≤ s.link.tuning.maxPayload.toNat) :
    s.ask now id (.send data timeout) =
      s.passOn now (.request id (.send s.target data timeout)) :=
  if_neg (Nat.not_lt.mpr short)

section
variable {queue : List Command} {e : Engine} {sent : Octets} (h : Shows t target k v)
  (closed : e.collections = [])
include h closed

/-- An act of the client's link that answers nobody. -/
theorem Shows.silent
    (act : v.session.link.act now a = (⟨t, target, queue, .running e⟩, ⟨[], sent⟩)) :
    Shows t target (k.withEngine queue e) (v.perform now a) := by
  obtain ⟨buffer, hgateway⟩ := h.gateway
  have hlink : (⟨t, target, queue, .running e⟩ : Link) = ⟨t, target, queue,
      .running ((k.withEngine queue e).engine e.buffer e.pendingAt)⟩ := by
    rw [Shape.engine_withEngine closed]
  have hperform := Session.perform_eq h.impatient h.heard act
  unfold View.perform
  rw [hperform]
  exact ⟨h.held, h.lenient, h.waiting, h.plan, h.results, h.impatient, h.heard,
    ⟨e.buffer, e.pendingAt, hlink⟩, ⟨buffer, hgateway⟩⟩

/-- An act that answers the call for which the client waits. -/
theorem Shows.answering {id : CallId} {answer : Answer} (waits : k.waiting = true)
    (act : v.session.link.act now a =
      (⟨t, target, queue, .running e⟩, ⟨[⟨id, answer⟩], sent⟩)) :
    Shows t target ((k.withEngine queue e).answered answer) (v.perform now a) := by
  obtain ⟨buffer, hgateway⟩ := h.gateway
  have hlink : (⟨t, target, queue, .running e⟩ : Link) = ⟨t, target, queue,
      .running ((k.withEngine queue e).engine e.buffer e.pendingAt)⟩ := by
    rw [Shape.engine_withEngine closed]
  have hperform := Session.perform_eq h.impatient h.heard act
  have hwaits : v.waiting = true := h.waiting.trans waits
  unfold View.perform
  rw [hperform]
  simp only [View.note, hwaits, if_true, View.finish, h.lenient, Bool.false_and, Bool.false_eq_true,
    if_false]
  refine ⟨h.held, rfl, rfl, ?_, ?_, h.impatient, h.heard,
    ⟨e.buffer, e.pendingAt, hlink⟩, ⟨buffer, hgateway⟩⟩
  · exact congrArg List.tail h.plan
  · exact congrArg (· ++ [.answer answer]) h.results

end

variable {toEngine toGateway : List Message}

/-- Nothing is written and nothing arrives. -/
structure Untouched (v v' : View) : Prop where
  gateway : v'.gateway = v.gateway
  toEngine : v'.toEngine = v.toEngine
  toGateway : v'.toGateway = v.toGateway

theorem session_perform (now : Instant) (a : Link.Act) (v : View) :
    (v.perform now a).session.link = (v.session.link.act now a).1 :=
  congrArg Session.link (View.session_note _ _)

theorem untouched_perform (silent : (v.session.link.act now a).2.sent = []) :
    Untouched v (v.perform now a) := by
  obtain ⟨-, hgateway, htoEngine, htoGateway⟩ := View.note_reach (v.session.perform now a) v
  have hsent : (v.session.perform now a).2.sent = [] := silent
  rw [hsent, List.append_nil] at htoGateway
  exact ⟨hgateway, htoEngine, htoGateway⟩

/-- The engine writes these messages, and its octets stay where they are. -/
theorem Carries.perform {ms : List Message} {l : Link} {replies : List Reply}
    (h : Carries t toEngine toGateway v)
    (act : v.session.link.act now a = (l, ⟨replies, Message.stream t.version ms⟩))
    (kept : l.engine.buffer = v.session.link.engine.buffer)
    (understood : ∀ m ∈ ms, m.Travels defaultPayloadLimit) :
    Carries t toEngine (toGateway ++ ms) (v.perform now a) := by
  obtain ⟨-, hgateway, htoEngine, htoGateway⟩ := View.note_reach (v.session.perform now a) v
  have hsent : (v.session.perform now a).2.sent = Message.stream t.version ms :=
    congrArg (·.2.sent) act
  refine ⟨?_, ?_, h.accepted, ?_, ?_⟩
  · rw [session_perform, act, kept, View.perform, htoEngine]
    exact h.inbound
  · rw [View.perform, hgateway, htoGateway, hsent, ← List.append_assoc, h.outbound,
      Message.stream_append]
  · intro m hm
    rcases List.mem_append.mp hm with hold | hnew
    · exact h.understood m hold
    · exact understood m hnew
  · rw [session_perform, act, kept]
    exact h.partly

/-- The engine writes nothing. -/
theorem Carries.silent {l : Link} {replies : List Reply} (h : Carries t toEngine toGateway v)
    (act : v.session.link.act now a = (l, ⟨replies, []⟩))
    (kept : l.engine.buffer = v.session.link.engine.buffer) :
    Carries t toEngine toGateway (v.perform now a) := by
  have hnothing : Carries t toEngine (toGateway ++ []) (v.perform now a) :=
    h.perform act kept (by simp)
  rwa [List.append_nil] at hnothing

/-! ## The engine takes a call -/

section
variable (h : Shows t target k v) (carries : Carries t toEngine toGateway v) {id : CallId}
include h carries

theorem Shows.takeActivate {type : ActivationType} (queue : k.queue = [.call id (.activate type)])
    (free : k.activation = none) :
    ∃ wait : ActivationWait,
      Shows t target { k with queue := [], activation := some wait } (v.perform now .take) ∧
      Carries t toEngine (toGateway ++ [.activationRequest ⟨t.source, type⟩])
        (v.perform now .take) := by
  obtain ⟨buffer, pendingAt, hlink⟩ := h.link
  have hact : v.session.link.act now .take =
      (⟨t, target, [], .running { k.engine buffer pendingAt with
          activation := some ⟨id, deadlineAfter now (some t.activationTimeout)⟩ }⟩,
        ⟨[], Message.stream t.version [.activationRequest ⟨t.source, type⟩]⟩) := by
    rw [hlink, queue, Message.stream_singleton]
    simp only [Link.act, Link.actRunning, Link.takeCommand, Engine.start, Engine.startActivation,
      Shape.engine, free]
    rfl
  refine ⟨_, h.silent rfl hact, carries.perform hact ?_ ?_⟩
  · rw [hlink]
    rfl
  · intro m hm
    obtain rfl := List.mem_singleton.mp hm
    exact ⟨Message.decode_encode _ (fun _ _ h => by cases h), (by decide : 7 ≤ 4194304)⟩

theorem Shows.takeSend {receiver : Address} {data : Octets}
    (queue : k.queue = [.call id (.send receiver data none)])
    (short : data.length + 4 ≤ defaultPayloadLimit.toNat) :
    Shows t target { k with queue := [], inbox := [], acks := k.acks ++ [⟨id, none⟩] }
        (v.perform now .take) ∧
      Carries t toEngine (toGateway ++ [.diagnostic ⟨t.source, receiver, data⟩])
        (v.perform now .take) := by
  obtain ⟨buffer, pendingAt, hlink⟩ := h.link
  have hact : v.session.link.act now .take =
      (⟨t, target, [], .running { k.engine buffer pendingAt with
          inbox := []
          pendingAt := none
          acks := k.acks ++ [⟨id, none⟩] }⟩,
        ⟨[], Message.stream t.version [.diagnostic ⟨t.source, receiver, data⟩]⟩) := by
    rw [hlink, queue, Message.stream_singleton]
    rfl
  refine ⟨h.silent rfl hact, carries.perform hact ?_ ?_⟩
  · rw [hlink]
    rfl
  · intro m hm
    obtain rfl := List.mem_singleton.mp hm
    exact Message.travels_diagnostic short

/-- A receive finds the one response in the inbox. -/
theorem Shows.takeReceive_of_inbox {frame : Octets} (waits : k.waiting = true)
    (queue : k.queue = [.call id (.receive none)]) (inbox : k.inbox = [frame])
    (source : frameSource? frame = some target) :
    Shows t target ({ k with queue := [], inbox := [] }.answered (.frame frame))
        (v.perform now .take) ∧
      Carries t toEngine toGateway (v.perform now .take) := by
  obtain ⟨buffer, pendingAt, hlink⟩ := h.link
  have hact : v.session.link.act now .take =
      (⟨t, target, [], .running { k.engine buffer pendingAt with inbox := [] }⟩,
        ⟨[⟨id, .frame frame⟩], []⟩) := by
    rw [hlink, queue]
    simp [Link.act, Link.actRunning, Link.takeCommand, Engine.start, Engine.startReceive,
      Shape.engine, inbox, source, Effect.reply]
  exact ⟨h.answering rfl waits hact, carries.silent hact (by rw [hlink]; rfl)⟩

/-- A receive that finds nothing waits, for as long as it takes. -/
theorem Shows.takeReceive_of_nothing (queue : k.queue = [.call id (.receive none)])
    (inbox : k.inbox = []) :
    ∃ wait : ReceiveWait, wait.timeout = none ∧ wait.deadline = none ∧
      Shows t target { k with queue := [], receives := k.receives ++ [wait] }
        (v.perform now .take) ∧
      Carries t toEngine toGateway (v.perform now .take) := by
  obtain ⟨buffer, pendingAt, hlink⟩ := h.link
  have hwait : (Engine.receiveWait t now id none pendingAt).timeout = none ∧
      (Engine.receiveWait t now id none pendingAt).deadline = none := by
    unfold Engine.receiveWait
    cases pendingAt with
    | none => exact ⟨rfl, rfl⟩
    | some seen => exact ⟨rfl, rfl⟩
  have hact : v.session.link.act now .take =
      (⟨t, target, [], .running { k.engine buffer pendingAt with
          pendingAt := none
          receives := k.receives ++ [Engine.receiveWait t now id none pendingAt] }⟩,
        ⟨[], []⟩) := by
    rw [hlink, queue]
    simp [Link.act, Link.actRunning, Link.takeCommand, Engine.start, Engine.startReceive,
      Shape.engine, inbox, Effect.none]
  exact ⟨_, hwait.1, hwait.2, h.silent rfl hact, carries.silent hact (by rw [hlink]; rfl)⟩

end

/-! ## The engine dispatches a message -/

/-- The frame of a message from the gateway. -/
def gatewayFrame (m : Message) : Frame := Frame.ofMessage defaultProtocolVersion m

theorem message_gatewayFrame {limit : UInt32} {m : Message} (travels : m.Travels limit) :
    (gatewayFrame m).message = .ok m := travels.readable

/-- The client's engine dispatches a message from the gateway. -/
def View.dispatch (now : Instant) (m : Message) (v : View) : View :=
  v.perform now (.dispatch (gatewayFrame m))

section
variable {m : Message} {buffer : Octets} {pendingAt : Option Instant} {e : Engine}
variable (h : Shows t target k v)
  (link : v.session.link = ⟨t, target, k.queue, .running (k.engine buffer pendingAt)⟩)
  (closed : e.collections = [])
include h link closed

theorem Shows.dispatchSilent
    (dispatch : (k.engine buffer pendingAt).dispatch t target now (gatewayFrame m) = (e, .none)) :
    Shows t target (k.withEngine k.queue e) (v.dispatch now m) ∧
      Untouched v (v.dispatch now m) := by
  have hact : v.session.link.act now (.dispatch (gatewayFrame m)) =
      (⟨t, target, k.queue, .running e⟩, .none) := by
    rw [link]
    simp only [Link.act, Link.actRunning, Link.work, Engine.handle, dispatch]
  exact ⟨h.silent closed hact, untouched_perform (by rw [hact]; rfl)⟩

theorem Shows.dispatchAnswering {id : CallId} {answer : Answer} (waits : k.waiting = true)
    (dispatch : (k.engine buffer pendingAt).dispatch t target now (gatewayFrame m) =
      (e, .reply id answer)) :
    Shows t target ((k.withEngine k.queue e).answered answer) (v.dispatch now m) ∧
      Untouched v (v.dispatch now m) := by
  have hact : v.session.link.act now (.dispatch (gatewayFrame m)) =
      (⟨t, target, k.queue, .running e⟩, .reply id answer) := by
    rw [link]
    simp only [Link.act, Link.actRunning, Link.work, Engine.handle, dispatch]
  exact ⟨h.answering closed waits hact, untouched_perform (by rw [hact]; rfl)⟩

end

section
variable (h : Shows t target k v)
include h

theorem Shows.dispatchActivation {r : ActivationResponse} {wait : ActivationWait}
    (waits : k.waiting = true) (activation : k.activation = some wait)
    (code : r.code.isSuccess = true) (tester : r.tester = t.source)
    (travels : (Message.activationResponse r).Travels t.maxPayload) :
    Shows t target ({ k with activation := none }.answered .activated)
        (v.dispatch now (.activationResponse r)) ∧
      Untouched v (v.dispatch now (.activationResponse r)) := by
  obtain ⟨buffer, pendingAt, hlink⟩ := h.link
  have hdispatch : (k.engine buffer pendingAt).dispatch t target now
      (gatewayFrame (.activationResponse r)) =
        ({ k.engine buffer pendingAt with activation := none }, .reply wait.call .activated) := by
    simp [Engine.dispatch, message_gatewayFrame travels, Engine.onActivationResponse,
      Shape.engine, activation, Engine.activationAnswer, code, tester]
  exact h.dispatchAnswering hlink rfl waits hdispatch

theorem Shows.dispatchAck {a : Acknowledgement} {wait : AckWait}
    (waits : k.waiting = true) (acks : k.acks = [wait]) (tester : a.target = t.source)
    (travels : (Message.positiveAck a).Travels t.maxPayload) :
    Shows t target ({ k with acks := [] }.answered .acknowledged)
        (v.dispatch now (.positiveAck a)) ∧
      Untouched v (v.dispatch now (.positiveAck a)) := by
  obtain ⟨buffer, pendingAt, hlink⟩ := h.link
  have hdispatch : (k.engine buffer pendingAt).dispatch t target now
      (gatewayFrame (.positiveAck a)) =
        ({ k.engine buffer pendingAt with acks := [] }, .reply wait.call .acknowledged) := by
    simp [Engine.dispatch, message_gatewayFrame travels, Engine.onAck, Engine.settleAck,
      Shape.engine, acks, tester]
  exact h.dispatchAnswering hlink rfl waits hdispatch

variable {d : Octets} (travels : (Message.diagnostic ⟨target, t.source, d⟩).Travels t.maxPayload)
include travels

/-- A response pending changes nothing for calls without a timeout. -/
theorem Shows.dispatchPending (pending : isResponsePending d = true)
    (patient : ∀ wait ∈ k.receives, wait.timeout = none) :
    Shows t target k (v.dispatch now (.diagnostic ⟨target, t.source, d⟩)) ∧
      Untouched v (v.dispatch now (.diagnostic ⟨target, t.source, d⟩)) := by
  obtain ⟨buffer, pendingAt, hlink⟩ := h.link
  have hdispatch : ∃ pendingAt', (k.engine buffer pendingAt).dispatch t target now
      (gatewayFrame (.diagnostic ⟨target, t.source, d⟩)) = (k.engine buffer pendingAt', .none) := by
    cases hreceives : k.receives with
    | nil =>
      refine ⟨some now, ?_⟩
      simp [Engine.dispatch, message_gatewayFrame travels, Engine.onDiagnostic, Engine.onPending,
        Shape.engine, pending, hreceives]
    | cons wait receives =>
      have htimeout := patient wait (by rw [hreceives]; exact List.mem_cons_self)
      refine ⟨pendingAt, ?_⟩
      simp [Engine.dispatch, message_gatewayFrame travels, Engine.onDiagnostic, Engine.onPending,
        Shape.engine, pending, hreceives, ReceiveWait.extend, htimeout]
  obtain ⟨pendingAt', hdispatch⟩ := hdispatch
  exact h.dispatchSilent hlink rfl hdispatch

/-- A response goes to the receive that waits. -/
theorem Shows.dispatchResponse_of_wait {wait : ReceiveWait} (final : isResponsePending d = false)
    (waits : k.waiting = true) (receives : k.receives = [wait]) :
    Shows t target ({ k with receives := [] }.answered
          (.frame (gatewayFrame (.diagnostic ⟨target, t.source, d⟩)).encode))
        (v.dispatch now (.diagnostic ⟨target, t.source, d⟩)) ∧
      Untouched v (v.dispatch now (.diagnostic ⟨target, t.source, d⟩)) := by
  obtain ⟨buffer, pendingAt, hlink⟩ := h.link
  have hdispatch : (k.engine buffer pendingAt).dispatch t target now
      (gatewayFrame (.diagnostic ⟨target, t.source, d⟩)) =
        ({ k.engine buffer pendingAt with pendingAt := none, receives := [] },
          .reply wait.call (.frame (gatewayFrame (.diagnostic ⟨target, t.source, d⟩)).encode)) := by
    simp [Engine.dispatch, message_gatewayFrame travels, Engine.onDiagnostic, Engine.onResponse,
      Engine.settleReceive, Shape.engine, final, receives]
  exact h.dispatchAnswering hlink rfl waits hdispatch

/-- A response that nobody waits for is kept. -/
theorem Shows.dispatchResponse_of_nobody (final : isResponsePending d = false)
    (receives : k.receives = []) (inbox : k.inbox = []) :
    Shows t target { k with inbox := [(gatewayFrame (.diagnostic ⟨target, t.source, d⟩)).encode] }
        (v.dispatch now (.diagnostic ⟨target, t.source, d⟩)) ∧
      Untouched v (v.dispatch now (.diagnostic ⟨target, t.source, d⟩)) := by
  obtain ⟨buffer, pendingAt, hlink⟩ := h.link
  have hdispatch : (k.engine buffer pendingAt).dispatch t target now
      (gatewayFrame (.diagnostic ⟨target, t.source, d⟩)) =
        ({ k.engine buffer pendingAt with
            pendingAt := none
            inbox := [(gatewayFrame (.diagnostic ⟨target, t.source, d⟩)).encode] }, .none) := by
    simp [Engine.dispatch, message_gatewayFrame travels, Engine.onDiagnostic, Engine.onResponse,
      Engine.buffered, Shape.engine, final, receives, inbox]
  exact h.dispatchSilent hlink rfl hdispatch

end

/-! ## The engine reads -/

theorem Untouched.trans {v v' v'' : View} (h : Untouched v v') (h' : Untouched v' v'') :
    Untouched v v'' :=
  ⟨h'.gateway.trans h.gateway, h'.toEngine.trans h.toEngine, h'.toGateway.trans h.toGateway⟩

theorem Shows.keep (h : Shows t target k v) (now : Instant) (rest : Octets) :
    Shows t target k (v.perform now (.keep rest)) ∧ Untouched v (v.perform now (.keep rest)) ∧
      (v.perform now (.keep rest)).session.link.engine.buffer = rest := by
  obtain ⟨buffer, pendingAt, hlink⟩ := h.link
  have hact : v.session.link.act now (.keep rest) =
      (⟨t, target, k.queue, .running (k.engine rest pendingAt)⟩, ⟨[], []⟩) := by
    rw [hlink]
    rfl
  refine ⟨h.silent rfl hact, untouched_perform (by rw [hact]), ?_⟩
  rw [session_perform, hact]
  rfl

/-- In a situation `P` each message that is dispatched leads to such a situation again. -/
def Handles (t : Tuning) (target : Address) (now : Instant) (P : Shape → List Message → Prop) :
    Prop :=
  ∀ k m ms v, P k (m :: ms) → Shows t target k v → m.Travels t.maxPayload →
    ∃ k', P k' ms ∧ Shows t target k' (v.dispatch now m) ∧ Untouched v (v.dispatch now m)

variable {P : Shape → List Message → Prop} {c c' : Conversation}

theorem Handles.performAll (handles : Handles t target now P) {first left : List Message}
    (travel : ∀ m ∈ first, m.Travels t.maxPayload) (hP : P k (first ++ left))
    (h : Shows t target k v) :
    ∃ k', P k' left ∧
      Shows t target k' (v.performAll (first.map fun m => (now, .dispatch (gatewayFrame m)))) ∧
      Untouched v (v.performAll (first.map fun m => (now, .dispatch (gatewayFrame m)))) := by
  induction first generalizing k v with
  | nil => exact ⟨k, hP, h, ⟨rfl, rfl, rfl⟩⟩
  | cons m first ih =>
    obtain ⟨k', hP', h', untouched⟩ := handles k m _ v hP h (travel m List.mem_cons_self)
    obtain ⟨k'', hP'', h'', untouched'⟩ :=
      ih (fun m hm => travel m (List.mem_cons_of_mem _ hm)) hP' h'
    exact ⟨k'', hP'', h'', untouched.trans untouched'⟩

/-- However the octets are cut, the engine reads some of the messages that are under way. -/
theorem Handles.read (handles : Handles t target now P) {count : Nat} (hP : P k toEngine)
    (h : Shows t target k c.view) (carries : Carries t toEngine toGateway c.view)
    (step : c.step now (.engineReads count) = some c') :
    ∃ k' toEngine', P k' toEngine' ∧ Shows t target k' c'.view ∧
      Carries t toEngine' toGateway c'.view := by
  obtain ⟨hnonempty, hview⟩ := Conversation.view_engineReads step
  obtain ⟨buffer, pendingAt, hlink⟩ := h.link
  -- What is in the buffer after the read is a first part of the stream, and so is what it gives.
  have hinbound := carries.inbound
  rw [hlink] at hinbound
  have hwhole : (buffer ++ c.toEngine.take count) ++ c.toEngine.drop count =
      Message.stream defaultProtocolVersion toEngine := by
    rw [List.append_assoc, List.take_append_drop]
    exact hinbound
  obtain ⟨others, hframes, herror, hrest⟩ :=
    reassemble_of_part (Message.fits_of_travels carries.accepted) hwhole
  obtain ⟨first, left, rfl, hfirst, rfl⟩ := List.map_eq_append_iff.mp hframes
  have hacts : (c.session.link.acts (.read (c.toEngine.take count))).map (now, ·) =
      (first.map fun m => (now, Link.Act.dispatch (gatewayFrame m))) ++
        [(now, .keep (reassemble t.maxPayload (buffer ++ c.toEngine.take count)).rest)] := by
    have hsession : c.session.link =
        ⟨t, target, k.queue, .running (k.engine buffer pendingAt)⟩ := hlink
    rw [hsession]
    simp only [Link.acts, Link.readActs, Shape.engine, if_neg hnonempty, herror, ← hfirst]
    simp [gatewayFrame, Function.comp_def]
  have hstart : Shows t target k { c.view with toEngine := c.toEngine.drop count } :=
    ⟨h.held, h.lenient, h.waiting, h.plan, h.results, h.impatient, h.heard, h.link, h.gateway⟩
  obtain ⟨k', hP', h', untouched⟩ := handles.performAll
    (fun m hm => carries.accepted m (List.mem_append_left _ hm)) hP hstart
  rw [hacts, View.performAll_append] at hview
  obtain ⟨hkept, untouched', hbuffer⟩ :=
    h'.keep now (reassemble t.maxPayload (buffer ++ c.toEngine.take count)).rest
  have huntouched := untouched.trans untouched'
  refine ⟨k', left, hP', hview ▸ hkept, ?_⟩
  rw [hview]
  refine ⟨?_, ?_, fun m hm => carries.accepted m (List.mem_append_right _ hm), carries.understood,
    ?_⟩
  · simp only [View.performAll]
    rw [hbuffer, huntouched.toEngine]
    exact hrest
  · simp only [View.performAll]
    rw [huntouched.gateway, huntouched.toGateway]
    exact carries.outbound
  · simp only [View.performAll]
    rw [hbuffer]
    exact scan_rest herror

/-! ## The client and its deadlines -/

/-- The client begins a call that its session passes on. -/
theorem Shows.ask {request : Request} {call : Call} {plan : List ClientStep}
    (h : Shows t target k c.view) (carries : Carries t toEngine toGateway c.view)
    (idle : k.waiting = false) (next : k.plan = .ask request :: plan)
    (passedOn : ∀ id, c.session.ask now id request = c.session.passOn now (.request id call))
    (step : c.step now .client = some c') :
    Shows t target { k with
          waiting := true
          queue := k.queue ++ [.call k.results.length call] } c'.view ∧
      Carries t toEngine toGateway c'.view := by
  have hheld : c.held = true := h.held
  have hwaiting : c.waiting = false := h.waiting.trans idle
  have hplan : c.plan = .ask request :: plan := h.plan.trans next
  have hlength : c.reports.length = k.results.length := by
    rw [← h.results]
    exact List.length_map _ |>.symm
  have hbegin : c.step now .client = some (Conversation.note
      (c.session.passOn now (.request k.results.length call)) { c with waiting := true }) := by
    rw [← passedOn, ← hlength]
    unfold Conversation.step Conversation.beginStep
    rw [if_neg (by simp [hwaiting])]
    dsimp only
    split <;> rename_i heq <;> rw [hplan] at heq <;> cases heq
    rw [if_pos hheld]
  rw [hbegin] at step
  cases step
  obtain ⟨buffer, pendingAt, hlink⟩ := h.link
  have hsession : c.session.link =
      ⟨t, target, k.queue, .running (k.engine buffer pendingAt)⟩ := hlink
  have hstart : Shows t target { k with waiting := true } { c.view with waiting := true } :=
    ⟨h.held, h.lenient, rfl, h.plan, h.results, h.impatient, h.heard, h.link, h.gateway⟩
  have hcarries : Carries t toEngine toGateway { c.view with waiting := true } :=
    ⟨carries.inbound, carries.outbound, carries.accepted, carries.understood, carries.partly⟩
  have hact : c.session.link.act now (.request k.results.length call) =
      (⟨t, target, k.queue ++ [.call k.results.length call], .running (k.engine buffer pendingAt)⟩,
        ⟨[], []⟩) := by
    rw [hsession]
    rfl
  have hview : (Conversation.note
      (c.session.passOn now (.request k.results.length call)) { c with waiting := true }).view =
        View.perform now (.request k.results.length call) { c.view with waiting := true } := by
    rw [Conversation.view_note, View.perform]
    exact congrArg (View.note · _) (Session.passOn_eq_perform rfl)
  rw [hview]
  exact ⟨hstart.silent rfl hact, hcarries.silent hact (by rw [hlink]; rfl)⟩

/-- No wait is due. -/
structure Shape.Early (now : Instant) (k : Shape) : Prop where
  activation : ∀ wait ∈ k.activation, isDue now wait.deadline = false
  acks : ∀ wait ∈ k.acks, isDue now wait.deadline = false
  receives : ∀ wait ∈ k.receives, isDue now wait.deadline = false

theorem Shape.Early.expire (early : k.Early now) (buffer : Octets) (pendingAt : Option Instant) :
    (k.engine buffer pendingAt).expire now = (k.engine buffer pendingAt, ⟨[], []⟩) := by
  refine Engine.expire_of_idle ?_
  simp only [Engine.Idle, Engine.endings, Shape.engine, List.forall_mem_append, List.forall_mem_map,
    Option.mem_toList]
  exact ⟨⟨⟨early.activation, early.acks⟩, early.receives⟩, List.forall_mem_nil _⟩

/-- A deadline that nobody has is passed over. -/
theorem Shows.deadline (h : Shows t target k c.view) (carries : Carries t toEngine toGateway c.view)
    (early : k.Early now) (step : c.step now .deadline = some c') :
    Shows t target k c'.view ∧ Carries t toEngine toGateway c'.view := by
  obtain ⟨buffer, pendingAt, hlink⟩ := h.link
  have himpatient : c.session.patience = [] := h.impatient
  have hrun : Session.run [(now, .losePatience), (now, .deadline)] c.session =
      c.session.perform now .expire := by
    have hexpire : c.session.step now .deadline = c.session.perform now .expire :=
      Session.passOn_eq_perform rfl
    simp only [Session.run, Session.step] at hexpire ⊢
    simp only [Session.losePatience_of_nobody himpatient, hexpire, Effect.none_append,
      Effect.append_none]
  have hact : c.session.link.act now .expire =
      (⟨t, target, k.queue, .running (k.engine buffer pendingAt)⟩, ⟨[], []⟩) := by
    have hsession : c.session.link =
        ⟨t, target, k.queue, .running (k.engine buffer pendingAt)⟩ := hlink
    rw [hsession]
    simp only [Link.act, Link.actRunning, Link.work, Engine.handle, early.expire]
  simp only [Conversation.step, hrun] at step
  cases step
  rw [Conversation.view_note]
  exact ⟨h.silent rfl hact, carries.silent hact (by rw [hlink])⟩

end Bench
end Doip
