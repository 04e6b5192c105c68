import Doip.Proofs.Bench.Script

/-! # The stages of a dialogue

In a `Dialogue` a client activates routing, and then there are rounds of a request and its response
with one ECU; the gateway has the script for it. A `Stage` says how far the two are, what they have
learnt so far and which messages are under way. Whatever either side does leads from a stage to a
stage. -/
namespace Doip

namespace Bench

structure Round where
  request : Octets
  /-- What says, before the response, that it is still to come. -/
  pendings : List Octets
  response : Octets

namespace Round

/-- The client sends the request and receives once, both without a timeout. -/
def plan (x : Round) : List ClientStep := [.ask (.send x.request none), .ask (.receive none)]

def script (source target : Address) (x : Round) : List GatewayStep :=
  .expectDiagnostic :: .ack :: (x.pendings ++ [x.response]).map (.respond target source)

/-- The client receives the whole frame of a diagnostic message. -/
def received (source target : Address) (data : Octets) : ClientResult :=
  .answer (.frame (Gateway.wire (.diagnostic ⟨target, source, data⟩)))

/-- What the client learns. -/
def results (source target : Address) (x : Round) : List ClientResult :=
  [.answer .acknowledged, received source target x.response]

/-- What the gateway learns. -/
def values (source target : Address) (x : Round) : List (Except GatewayError GatewayValue) :=
  .ok (.diagnostic ⟨source, target, x.request⟩) ::
    List.replicate (x.pendings.length + 2) (.ok .nothing)

/-- Either side accepts what the other sends. -/
structure Sound (limit : UInt32) (x : Round) : Prop where
  pendings : ∀ p ∈ x.pendings, isResponsePending p = true
  response : isResponsePending x.response = false
  sendable : x.request.length + 4 ≤ limit.toNat
  understood : x.request.length + 4 ≤ defaultPayloadLimit.toNat
  accepted : ∀ d ∈ x.pendings ++ [x.response], d.length + 4 ≤ limit.toNat

theorem Sound.later {limit : UInt32} {x : Round} {p : Octets} {pendings : List Octets}
    (sound : x.Sound limit) (first : x.pendings = p :: pendings) :
    Round.Sound limit { x with pendings } := by
  refine ⟨fun q hq => sound.pendings q ?_, sound.response, sound.sendable, sound.understood,
    fun d hd => sound.accepted d ?_⟩
  · rw [first]
    exact List.mem_cons_of_mem _ hq
  · rw [first]
    exact List.mem_cons_of_mem _ hd

/-- A pending of the usual three octets is accepted by whoever accepts the answer to an
activation. -/
theorem sound_of_usual {limit : UInt32} {x : Round} (enough : 9 ≤ limit.toNat)
    (usual : ∀ p ∈ x.pendings, ∃ service, p = [0x7F, service, 0x78])
    (response : isResponsePending x.response = false)
    (sendable : x.request.length + 4 ≤ limit.toNat)
    (understood : x.request.length + 4 ≤ defaultPayloadLimit.toNat)
    (accepted : x.response.length + 4 ≤ limit.toNat) : x.Sound limit := by
  refine ⟨?_, response, sendable, understood, ?_⟩
  · intro p hp
    obtain ⟨service, rfl⟩ := usual p hp
    rfl
  · intro d hd
    rcases List.mem_append.mp hd with hpending | hresponse
    · obtain ⟨service, rfl⟩ := usual d hpending
      exact Nat.le_trans (by decide : 7 ≤ 9) enough
    · obtain rfl := List.mem_singleton.mp hresponse
      exact accepted

end Round

structure Dialogue where
  target : Address
  activation : ActivationType
  rounds : List Round

namespace Dialogue

def plan (g : Dialogue) : List ClientStep :=
  .ask (.activate g.activation) :: g.rounds.flatMap Round.plan

def script (source : Address) (g : Dialogue) : List GatewayStep :=
  .acceptActivation ⟨0x10⟩ none :: g.rounds.flatMap (Round.script source g.target)

def results (source : Address) (g : Dialogue) : List ClientResult :=
  .answer .activated :: g.rounds.flatMap (Round.results source g.target)

def values (source : Address) (g : Dialogue) : List (Except GatewayError GatewayValue) :=
  .ok (.activation ⟨source, g.activation⟩) ::
    g.rounds.flatMap (Round.values source g.target)

end Dialogue

/-- A step of the gateway with the message that it writes. -/
abbrev Writing : Type := GatewayStep × Message

namespace Round

def responding (source target : Address) (data : Octets) : Writing :=
  (.respond target source data, .diagnostic ⟨target, source, data⟩)

/-- What the gateway writes once it has read the request. -/
def answers (source target : Address) (x : Round) : List Writing :=
  (.ack, .positiveAck ⟨target, source, 0, []⟩) ::
    (x.pendings ++ [x.response]).map (responding source target)

theorem script_eq (source target : Address) (x : Round) :
    x.script source target = .expectDiagnostic :: (x.answers source target).map Prod.fst := by
  simp only [script, answers, List.map_cons, List.map_map]
  rfl

theorem values_eq (source target : Address) (x : Round) :
    x.values source target = .ok (.diagnostic ⟨source, target, x.request⟩) ::
      (x.answers source target).map fun _ => .ok .nothing := by
  have hlength : (x.answers source target).length = x.pendings.length + 2 := by simp [answers]
  rw [List.map_const', hlength]
  rfl

end Round

/-- With these results and values the rounds `rest` remain. -/
structure Dialogue.Leaves (t : Tuning) (g : Dialogue) (rest : List Round)
    (results : List ClientResult) (values : List (Except GatewayError GatewayValue)) : Prop where
  results : results ++ rest.flatMap (Round.results t.source g.target) = g.results t.source
  values : values ++ rest.flatMap (Round.values t.source g.target) = g.values t.source
  sound : ∀ x ∈ rest, x.Sound t.maxPayload

/-- The gateway has read the request of the next round. -/
theorem Dialogue.Leaves.expected {t : Tuning} {g : Dialogue} {x : Round} {rest : List Round}
    {results : List ClientResult} {values : List (Except GatewayError GatewayValue)}
    (h : g.Leaves t (x :: rest) results values) :
    g.Leaves t rest (results ++ x.results t.source g.target)
      (values ++ [.ok (.diagnostic ⟨t.source, g.target, x.request⟩)] ++
        (x.answers t.source g.target).map fun _ => .ok .nothing) := by
  refine ⟨?_, ?_, fun y hy => h.sound y (List.mem_cons_of_mem _ hy)⟩
  · rw [List.append_assoc]
    exact h.results
  · have hvalues := h.values
    rw [List.flatMap_cons, Round.values_eq] at hvalues
    simpa using hvalues

theorem Dialogue.Leaves.written {t : Tuning} {g : Dialogue} {rest : List Round}
    {results : List ClientResult} {values : List (Except GatewayError GatewayValue)}
    {writing : Writing} {left : List Writing}
    (h : g.Leaves t rest results (values ++ (writing :: left).map fun _ => .ok .nothing)) :
    g.Leaves t rest results (values ++ [.ok .nothing] ++ left.map fun _ => .ok .nothing) := by
  rwa [List.map_cons, List.append_cons] at h

/-- How a client stands that is to receive: its queue and its waits. -/
inductive Attention : Bool → List Command → List ReceiveWait → Prop where
  | idle : Attention false [] []
  | asked {id : CallId} : Attention true [.call id (.receive none)] []
  | waits {wait : ReceiveWait} (patient : wait.timeout = none) (endless : wait.deadline = none) :
      Attention true [] [wait]

theorem Attention.endless {waiting : Bool} {queue : List Command} {receives : List ReceiveWait}
    (h : Attention waiting queue receives) :
    ∀ wait ∈ receives, wait.timeout = none ∧ wait.deadline = none := by
  intro wait hwait
  cases h with
  | idle | asked => cases hwait
  | waits patient endless =>
    obtain rfl := List.mem_singleton.mp hwait
    exact ⟨patient, endless⟩

/-- How far a dialogue is; the messages under way are those to the engine and those to the gateway.
Of the gateway's answers some are `flying`, or in the engine's buffer, and some are `left` to
write. -/
inductive Stage (t : Tuning) (g : Dialogue) : Shape → List Message → List Message → Prop where
  | opening : Stage t g
      { plan := g.plan
        waiting := false
        results := []
        script := g.script t.source
        last := none
        values := [] } [] []
  | activating {id : CallId} : Stage t g
      { plan := g.plan
        waiting := true
        results := []
        queue := [.call id (.activate g.activation)]
        script := g.script t.source
        last := none
        values := [] } [] []
  | requested {wait : ActivationWait} : Stage t g
      { plan := g.plan
        waiting := true
        results := []
        activation := some wait
        script := g.script t.source
        last := none
        values := [] } [] [.activationRequest ⟨t.source, g.activation⟩]
  | accepted {wait : ActivationWait} : Stage t g
      { plan := g.plan
        waiting := true
        results := []
        activation := some wait
        script := g.rounds.flatMap (Round.script t.source g.target)
        last := none
        values := [.ok (.activation ⟨t.source, g.activation⟩)] }
      [Gateway.activationAnswer ⟨t.source, g.activation⟩ ⟨0x10⟩ none] []
  | ready {rest : List Round} {results : List ClientResult} {last : Option Diagnostic}
      {values : List (Except GatewayError GatewayValue)}
      (leaves : g.Leaves t rest results values) : Stage t g
      { plan := rest.flatMap Round.plan
        waiting := false
        results, last, values
        script := rest.flatMap (Round.script t.source g.target) } [] []
  | sending {x : Round} {rest : List Round} {results : List ClientResult}
      {last : Option Diagnostic} {values : List (Except GatewayError GatewayValue)} {id : CallId}
      (leaves : g.Leaves t (x :: rest) results values) : Stage t g
      { plan := (x :: rest).flatMap Round.plan
        waiting := true
        results, last, values
        queue := [.call id (.send g.target x.request none)]
        script := (x :: rest).flatMap (Round.script t.source g.target) } [] []
  | sent {x : Round} {rest : List Round} {results : List ClientResult}
      {last : Option Diagnostic} {values : List (Except GatewayError GatewayValue)} {id : CallId}
      (leaves : g.Leaves t (x :: rest) results values) : Stage t g
      { plan := (x :: rest).flatMap Round.plan
        waiting := true
        results, last, values
        acks := [⟨id, none⟩]
        script := (x :: rest).flatMap (Round.script t.source g.target) }
      [] [.diagnostic ⟨t.source, g.target, x.request⟩]
  | acknowledging {x : Round} {rest : List Round} {results : List ClientResult}
      {values : List (Except GatewayError GatewayValue)} {id : CallId} {flying left : List Writing}
      (sound : x.Sound t.maxPayload) (answers : flying ++ left = x.answers t.source g.target)
      (leaves : g.Leaves t rest (results ++ x.results t.source g.target)
        (values ++ left.map fun _ => .ok .nothing)) : Stage t g
      { plan := (x :: rest).flatMap Round.plan
        waiting := true
        results, values
        acks := [⟨id, none⟩]
        script := left.map Prod.fst ++ rest.flatMap (Round.script t.source g.target)
        last := some ⟨t.source, g.target, x.request⟩ } (flying.map Prod.snd) []
  /-- The send is acknowledged; the pendings of `x` are those still to come. -/
  | listening {x : Round} {rest : List Round} {results : List ClientResult}
      {values : List (Except GatewayError GatewayValue)} {flying left : List Writing}
      {waiting : Bool} {queue : List Command} {receives : List ReceiveWait}
      (attention : Attention waiting queue receives) (sound : x.Sound t.maxPayload)
      (answers : flying ++ left =
        (x.pendings ++ [x.response]).map (Round.responding t.source g.target))
      (leaves : g.Leaves t rest (results ++ [Round.received t.source g.target x.response])
        (values ++ left.map fun _ => .ok .nothing)) : Stage t g
      { plan := .ask (.receive none) :: rest.flatMap Round.plan
        waiting, results, queue, receives, values
        script := left.map Prod.fst ++ rest.flatMap (Round.script t.source g.target)
        last := some ⟨t.source, g.target, x.request⟩ } (flying.map Prod.snd) []
  /-- The response came before the receive. -/
  | kept {d : Octets} {rest : List Round} {results : List ClientResult} {last : Option Diagnostic}
      {values : List (Except GatewayError GatewayValue)} {waiting : Bool} {queue : List Command}
      (attention : Attention waiting queue [])
      (leaves : g.Leaves t rest (results ++ [Round.received t.source g.target d]) values) : Stage t g
      { plan := .ask (.receive none) :: rest.flatMap Round.plan
        waiting, results, queue, last, values
        inbox := [Gateway.wire (.diagnostic ⟨g.target, t.source, d⟩)]
        script := rest.flatMap (Round.script t.source g.target) } [] []

variable {t : Tuning} {g : Dialogue} {k : Shape} {toEngine toGateway : List Message} {now : Instant}
variable {c c' : Conversation}

/-! ## What both sides have learnt -/

theorem Dialogue.Leaves.prefixes {rest : List Round} {results : List ClientResult}
    {values : List (Except GatewayError GatewayValue)} (h : g.Leaves t rest results values) :
    results <+: g.results t.source ∧ values <+: g.values t.source :=
  ⟨⟨_, h.results⟩, ⟨_, h.values⟩⟩

theorem Stage.prefixes (stage : Stage t g k toEngine toGateway) :
    k.results <+: g.results t.source ∧ k.values <+: g.values t.source := by
  cases stage with
  | opening | activating | requested => exact ⟨List.nil_prefix, List.nil_prefix⟩
  | accepted => exact ⟨List.nil_prefix, ⟨_, rfl⟩⟩
  | ready leaves | sending leaves | sent leaves => exact leaves.prefixes
  | acknowledging sound answers leaves | listening attention sound answers leaves =>
    obtain ⟨hresults, hvalues⟩ := leaves.prefixes
    exact ⟨(List.prefix_append _ _).trans hresults, (List.prefix_append _ _).trans hvalues⟩
  | kept attention leaves =>
    obtain ⟨hresults, hvalues⟩ := leaves.prefixes
    exact ⟨(List.prefix_append _ _).trans hresults, hvalues⟩

/-- A client with nothing left to do has learnt everything, and so has its gateway. -/
theorem Stage.complete (stage : Stage t g k toEngine toGateway) (done : k.plan = []) :
    k.results = g.results t.source ∧ k.values = g.values t.source ∧ k.script = [] ∧
      k.queue = [] := by
  cases stage with
  | opening | activating | requested | accepted | sending | sent | acknowledging | listening
  | kept => cases done
  | @ready rest results last values leaves =>
    cases rest with
    | nil =>
      have hresults := leaves.results
      have hvalues := leaves.values
      rw [List.flatMap_nil, List.append_nil] at hresults hvalues
      exact ⟨hresults, hvalues, rfl, rfl⟩
    | cons x rest => cases done

/-- A dialogue between its first and its last move. -/
def Talks (t : Tuning) (g : Dialogue) (v : View) : Prop :=
  ∃ k toEngine toGateway,
    Stage t g k toEngine toGateway ∧ Shows t g.target k v ∧ Carries t toEngine toGateway v

theorem Stage.talks {v : View} (stage : Stage t g k toEngine toGateway)
    (both : Shows t g.target k v ∧ Carries t toEngine toGateway v) : Talks t g v :=
  ⟨k, toEngine, toGateway, stage, both⟩

/-! ## The client -/

theorem Shows.idle {target : Address} (h : Shows t target k c.view)
    (step : c.step now .client = some c') : k.waiting = false := by
  cases hwaiting : k.waiting with
  | false => rfl
  | true =>
    have hview : c.waiting = true := h.waiting.trans hwaiting
    simp [Conversation.step, Conversation.beginStep, hview] at step

theorem Stage.client (stage : Stage t g k toEngine toGateway) (h : Shows t g.target k c.view)
    (carries : Carries t toEngine toGateway c.view) (step : c.step now .client = some c') :
    Talks t g c'.view ∨ k.plan = [] := by
  have hidle := h.idle step
  cases stage with
  | opening =>
    exact .inl (Stage.activating.talks (h.ask carries rfl rfl (fun _ => rfl) step))
  | activating | requested | accepted | sending | sent | acknowledging => cases hidle
  | @ready rest results last values leaves =>
    cases rest with
    | nil => exact .inr rfl
    | cons x rest =>
      have hsound := leaves.sound x List.mem_cons_self
      obtain ⟨buffer, pendingAt, hlink⟩ := h.link
      have htuning : c.session.link.tuning = t := congrArg Link.tuning hlink
      have htarget : c.session.target = g.target := congrArg Link.target hlink
      have hpasses : ∀ id, c.session.ask now id (.send x.request none) =
          c.session.passOn now (.request id (.send g.target x.request none)) := by
        intro id
        rw [← htarget]
        refine Session.ask_send_of_short ?_
        rw [htuning]
        exact hsound.sendable
      exact .inl ((Stage.sending leaves).talks (h.ask carries rfl rfl hpasses step))
  | @listening x rest results values flying left waiting queue receives attention sound answers
      leaves =>
    cases attention with
    | idle =>
      exact .inl ((Stage.listening .asked sound answers leaves).talks
        (h.ask carries rfl rfl (fun _ => rfl) step))
    | asked | waits => cases hidle
  | @kept d rest results last values waiting queue attention leaves =>
    cases attention with
    | idle =>
      exact .inl ((Stage.kept .asked leaves).talks (h.ask carries rfl rfl (fun _ => rfl) step))
    | asked => cases hidle

/-! ## The engine takes a command -/

theorem Gateway.frameSource?_wire (source target : Address) (data : Octets) :
    frameSource? (Gateway.wire (.diagnostic ⟨source, target, data⟩)) = some source := by
  simp [frameSource?, Gateway.wire, Frame.encode, Frame.ofMessage, Message.encode, octets16,
    Header.encode, octets32, word16_octets16]

theorem Stage.take (stage : Stage t g k toEngine toGateway)
    (h : Shows t g.target k c.view) (carries : Carries t toEngine toGateway c.view)
    (step : c.step now .take = some c') : Talks t g c'.view := by
  obtain ⟨hnonempty, hview⟩ := Conversation.view_take step
  have hqueue : k.queue ≠ [] := by
    obtain ⟨buffer, pendingAt, hlink⟩ := h.link
    have hsession : c.session.link.queue = k.queue := congrArg Link.queue hlink
    rwa [hsession] at hnonempty
  rw [hview]
  cases stage with
  | opening | requested | accepted | ready | sent | acknowledging => exact absurd rfl hqueue
  | activating =>
    obtain ⟨wait, both⟩ := h.takeActivate carries rfl rfl
    exact Stage.requested.talks both
  | @sending x rest results last values id leaves =>
    have hsound := leaves.sound x List.mem_cons_self
    exact (Stage.sent leaves).talks (h.takeSend carries rfl hsound.understood)
  | listening attention sound answers leaves =>
    cases attention with
    | idle | waits => exact absurd rfl hqueue
    | asked =>
      obtain ⟨wait, hpatient, hendless, both⟩ := h.takeReceive_of_nothing carries rfl rfl
      exact (Stage.listening (.waits hpatient hendless) sound answers leaves).talks both
  | kept attention leaves =>
    cases attention with
    | idle => exact absurd rfl hqueue
    | asked =>
      exact (Stage.ready leaves).talks
        (h.takeReceive_of_inbox carries rfl rfl rfl (Gateway.frameSource?_wire _ _ _))

/-! ## The engine dispatches a message -/

/-- The next of the messages after an acknowledgement is a pending or the response. -/
theorem Round.next_of_answers {x : Round} {source target : Address} {m : Message}
    {ms : List Message} {flying left : List Writing}
    (answers : flying ++ left = (x.pendings ++ [x.response]).map (responding source target))
    (first : m :: ms = flying.map Prod.snd) :
    (∃ p pendings others, x.pendings = p :: pendings ∧ m = .diagnostic ⟨target, source, p⟩ ∧
        ms = others.map Prod.snd ∧
        others ++ left = (pendings ++ [x.response]).map (responding source target)) ∨
      (m = .diagnostic ⟨target, source, x.response⟩ ∧ ms = [] ∧ left = []) := by
  cases flying with
  | nil => cases first
  | cons writing flying =>
    obtain ⟨rfl, rfl⟩ := List.cons.inj first
    cases hpendings : x.pendings with
    | nil =>
      rw [hpendings] at answers
      obtain ⟨rfl, hrest⟩ := List.cons.inj answers
      obtain ⟨rfl, rfl⟩ := List.append_eq_nil_iff.mp hrest
      exact .inr ⟨rfl, rfl, rfl⟩
    | cons p pendings =>
      rw [hpendings] at answers
      obtain ⟨rfl, hrest⟩ := List.cons.inj answers
      exact .inl ⟨p, pendings, flying, rfl, rfl, rfl, hrest⟩

theorem Stage.handles (sound : ∀ x ∈ g.rounds, x.Sound t.maxPayload) (now : Instant)
    (toGateway : List Message) :
    Handles t g.target now fun k ms => Stage t g k ms toGateway := by
  intro k m ms v stage h travels
  -- The messages of a stage are computed from its answers, and do not unify with a first one.
  generalize hunder : m :: ms = toEngine at stage
  cases stage with
  | opening | activating | requested | ready | sending | sent | kept => cases hunder
  | @accepted wait =>
    obtain ⟨rfl, rfl⟩ := List.cons.inj hunder
    exact ⟨_, .ready ⟨rfl, rfl, sound⟩, h.dispatchActivation rfl rfl rfl rfl travels⟩
  | @acknowledging x rest results values id flying left hsound answers leaves =>
    cases flying with
    | nil => cases hunder
    | cons writing flying =>
      obtain ⟨rfl, rfl⟩ := List.cons.inj hunder
      obtain ⟨rfl, hrest⟩ := List.cons.inj answers
      refine ⟨_, .listening .idle hsound hrest ?_, h.dispatchAck rfl rfl rfl travels⟩
      rw [List.append_assoc]
      exact leaves
  | @listening x rest results values flying left waiting queue receives attention hsound answers
      leaves =>
    rcases Round.next_of_answers answers hunder with
      ⟨p, pendings, others, hpendings, rfl, rfl, hrest⟩ | ⟨rfl, rfl, rfl⟩
    · have hpending : isResponsePending p = true := hsound.pendings p (by simp [hpendings])
      exact ⟨_, .listening attention (hsound.later hpendings) hrest leaves,
        h.dispatchPending travels hpending fun wait hwait => (attention.endless wait hwait).1⟩
    · have hleaves : g.Leaves t rest (results ++ [Round.received t.source g.target x.response])
          values := by
        simpa using leaves
      cases attention with
      | idle =>
        exact ⟨_, .kept .idle hleaves,
          h.dispatchResponse_of_nobody travels hsound.response rfl rfl⟩
      | asked =>
        exact ⟨_, .kept .asked hleaves,
          h.dispatchResponse_of_nobody travels hsound.response rfl rfl⟩
      | waits =>
        exact ⟨_, .ready hleaves, h.dispatchResponse_of_wait travels hsound.response rfl rfl⟩

/-! ## The gateway -/

/-- Between its answers the gateway waits for a request. -/
theorem Shows.awaits {rest : List Round} (h : Shows t g.target k c.view)
    (carries : Carries t toEngine [] c.view)
    (script : k.script = rest.flatMap (Round.script t.source g.target)) :
    c.step now .gateway = none := by
  cases hstep : c.step now .gateway with
  | none => rfl
  | some c' =>
    cases rest with
    | nil =>
      obtain ⟨moved, octets, hmove, -⟩ := Conversation.view_gateway hstep
      obtain ⟨buffer, hgateway⟩ := h.gateway
      have hscript : c.gateway.script = [] := (congrArg Gateway.script hgateway).trans script
      simp only [Gateway.move, hscript] at hmove
      cases hmove
    | cons x rest =>
      have hnext : k.script = .expectDiagnostic :: ((x.script t.source g.target).tail ++
          rest.flatMap (Round.script t.source g.target)) := script
      obtain ⟨m, others, octets, hunder, -⟩ :=
        h.reads carries hstep fun buffer => Gateway.move_of_expect rfl hnext
      cases hunder

theorem Round.Sound.travels {limit : UInt32} {x : Round} (sound : x.Sound limit)
    (enough : 9 ≤ limit.toNat) {source target : Address} :
    ∀ writing ∈ x.answers source target, writing.2.Travels limit := by
  intro writing hwriting
  rcases List.mem_cons.mp hwriting with rfl | hresponding
  · exact ⟨Message.decode_encode _ (fun _ _ h => by cases h),
      Nat.le_trans (by simp [Message.encode]) enough⟩
  · obtain ⟨d, hd, rfl⟩ := List.mem_map.mp hresponding
    exact Message.travels_diagnostic (sound.accepted d hd)

theorem Shape.move_of_answer {x : Round} {source target : Address} {writing : Writing}
    {script : List GatewayStep} (mem : writing ∈ x.answers source target)
    (next : k.script = writing.1 :: script) (last : k.last = some ⟨source, target, x.request⟩)
    (buffer : Octets) (finished : Nat) :
    (k.gateway buffer).move finished = (k.gateway buffer).writing (Gateway.wire writing.2) := by
  rcases List.mem_cons.mp mem with rfl | hresponding
  · simp [Gateway.move, Shape.gateway, next, last, Gateway.acknowledgement]
  · obtain ⟨d, -, rfl⟩ := List.mem_map.mp hresponding
    simp [Gateway.move, Shape.gateway, next, Round.responding]

/-- The gateway writes its next answer. -/
theorem Shows.answers {x : Round} {target : Address} {flying : List Writing} {writing : Writing}
    {script : List GatewayStep} (h : Shows t target k c.view)
    (carries : Carries t (flying.map Prod.snd) toGateway c.view)
    (step : c.step now .gateway = some c') (enough : 9 ≤ t.maxPayload.toNat)
    (sound : x.Sound t.maxPayload) (mem : writing ∈ x.answers t.source target)
    (next : k.script = writing.1 :: script)
    (last : k.last = some ⟨t.source, target, x.request⟩) :
    Shows t target { k with
          script := script
          values := k.values ++ [.ok .nothing] } c'.view ∧
      Carries t ((flying ++ [writing]).map Prod.snd) toGateway c'.view := by
  rw [List.map_append]
  exact h.writes carries step next (Shape.move_of_answer mem next last)
    (sound.travels enough _ mem)

theorem Stage.gateway (enough : 9 ≤ t.maxPayload.toNat)
    (stage : Stage t g k toEngine toGateway) (h : Shows t g.target k c.view)
    (carries : Carries t toEngine toGateway c.view) (step : c.step now .gateway = some c') :
    Talks t g c'.view := by
  cases stage with
  | opening | activating =>
    obtain ⟨m, others, octets, hunder, -⟩ :=
      h.reads carries step fun buffer => Gateway.move_of_accept rfl rfl
    cases hunder
  | @requested wait =>
    have htravels : (Gateway.activationAnswer ⟨t.source, g.activation⟩ ⟨0x10⟩ none).Travels
        t.maxPayload :=
      ⟨Message.decode_encode _ (fun _ _ h => by cases h),
        Nat.le_trans (by simp [Gateway.activationAnswer, Message.encode]) enough⟩
    exact Stage.accepted.talks (h.accepts carries step rfl rfl htravels)
  | accepted | ready | sending | kept =>
    rw [h.awaits carries rfl] at step
    cases step
  | @sent x rest results last values id leaves =>
    have hscript : (x :: rest).flatMap (Round.script t.source g.target) =
        .expectDiagnostic :: ((x.answers t.source g.target).map Prod.fst ++
          rest.flatMap (Round.script t.source g.target)) := by
      rw [List.flatMap_cons, Round.script_eq]
      rfl
    have hsound := leaves.sound x List.mem_cons_self
    exact (Stage.acknowledging hsound (List.nil_append _) leaves.expected).talks
      (h.expects carries step hscript rfl)
  | @acknowledging x rest results values id flying left hsound answers leaves =>
    cases left with
    | nil =>
      rw [h.awaits carries rfl] at step
      cases step
    | cons writing left =>
      have hmem : writing ∈ x.answers t.source g.target := by
        rw [← answers]
        simp
      rw [List.append_cons] at answers
      exact (Stage.acknowledging hsound answers leaves.written).talks
        (h.answers carries step enough hsound hmem rfl rfl)
  | @listening x rest results values flying left waiting queue receives attention hsound answers
      leaves =>
    cases left with
    | nil =>
      rw [h.awaits carries rfl] at step
      cases step
    | cons writing left =>
      have hmem : writing ∈ x.answers t.source g.target := by
        refine List.mem_cons_of_mem _ ?_
        rw [← answers]
        simp
      rw [List.append_cons] at answers
      exact (Stage.listening attention hsound answers leaves.written).talks
        (h.answers carries step enough hsound hmem rfl rfl)

/-! ## Deadlines -/

theorem Stage.early (stage : Stage t g k toEngine toGateway)
    (activation : ∀ wait ∈ k.activation, isDue now wait.deadline = false) : k.Early now := by
  refine ⟨activation, ?_, ?_⟩
  · cases stage with
    | sent | acknowledging =>
      intro wait hwait
      obtain rfl := List.mem_singleton.mp hwait
      rfl
    | _ => simp
  · cases stage with
    | listening attention =>
      intro wait hwait
      rw [(attention.endless wait hwait).2]
      rfl
    | _ => simp

end Bench
end Doip
