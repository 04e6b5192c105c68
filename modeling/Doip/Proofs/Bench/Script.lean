import Doip.Proofs.Bench.Shape

/-! # What the gateway does with its script

The gateway receives octets in pieces, and moves in its step when a message has arrived whole. -/
namespace Doip

namespace Bench

namespace Gateway

/-- What the gateway makes of a message when it is to accept an activation. -/
def accepting (code : ActivationCode) (tester : Option Address) :
    Message → Gateway → Gateway × Octets
  | .activationRequest r, g =>
    (g.finish (.activation r), wire (activationAnswer r code tester))
  | _, g => (g.fail .invalidData, [])

/-- What it makes of one when it expects a diagnostic message. -/
def expecting : Message → Gateway → Gateway × Octets
  | .diagnostic d, g => ({ g with last := some d }.finish (.diagnostic d), [])
  | .aliveCheckResponse _, g => (g, [])
  | _, g => (g.fail .invalidData, [])

variable {g : Gateway} {script : List GatewayStep} (connected : g.connected = true)
include connected

theorem move_of_accept {code : ActivationCode} {tester : Option Address}
    (next : g.script = .acceptActivation code tester :: script) (finished : Nat) :
    g.move finished = g.reading (accepting code tester) := by
  simp only [move, next, connected, Bool.not_true, Bool.false_eq_true, if_false]
  congr 1
  funext m g
  cases m <;> rfl

theorem move_of_expect (next : g.script = .expectDiagnostic :: script) (finished : Nat) :
    g.move finished = g.reading expecting := by
  simp only [move, next, connected, Bool.not_true, Bool.false_eq_true, if_false]
  congr 1
  funext m g
  cases m <;> rfl

end Gateway

variable {t : Tuning} {target : Address} {k : Shape} {v : View} {now : Instant}
variable {c c' : Conversation} {toEngine toGateway : List Message}

theorem Shows.gatewayReceives {count : Nat} (h : Shows t target k c.view)
    (carries : Carries t toEngine toGateway c.view)
    (step : c.step now (.gatewayReceives count) = some c') :
    Shows t target k c'.view ∧ Carries t toEngine toGateway c'.view := by
  simp only [Conversation.step] at step
  split at step
  · cases step
    obtain ⟨buffer, hgateway⟩ := h.gateway
    have hbuffer : c.gateway = k.gateway buffer := hgateway
    have houtbound : c.gateway.buffer ++ c.toGateway = Message.stream t.version toGateway :=
      carries.outbound
    refine ⟨⟨h.held, h.lenient, h.waiting, h.plan, h.results, h.impatient, h.heard, h.link,
      ⟨buffer ++ c.toGateway.take count, ?_⟩⟩, ⟨carries.inbound, ?_, carries.accepted,
      carries.understood, carries.partly⟩⟩
    · simp only [Conversation.view, hbuffer]
      rfl
    · simp only [Conversation.view]
      rw [List.append_assoc, List.take_append_drop, houtbound]
  · cases step

/-- A message is read when it has arrived, and not before. -/
theorem Carries.reading {use : Message → Gateway → Gateway × Octets} {moved : Gateway × Octets}
    (h : Shows t target k v) (carries : Carries t toEngine toGateway v)
    (read : v.gateway.reading use = some moved) :
    ∃ m others rest, toGateway = m :: others ∧ moved = use m (k.gateway rest) ∧
      rest ++ v.toGateway = Message.stream t.version others := by
  obtain ⟨buffer, hgateway⟩ := h.gateway
  have houtbound := carries.outbound
  rw [hgateway] at houtbound read
  rcases scan_of_part (Message.fits_of_travels carries.understood) houtbound with
    hscan | ⟨f, frames, rest, hframes, hscan, hrest⟩
  · have hbuffer : Frame.scan defaultPayloadLimit (k.gateway buffer).buffer = .incomplete := hscan
    have hended : (k.gateway buffer).ended = false := rfl
    simp [Gateway.reading, Gateway.nextMessage, hbuffer, hended] at read
  · obtain ⟨m, others, rfl, rfl, rfl⟩ := List.map_eq_cons_iff.mp hframes
    have hbuffer : Frame.scan defaultPayloadLimit (k.gateway buffer).buffer =
        .complete (Frame.ofMessage t.version m) rest := hscan
    have hmessage : (Frame.ofMessage t.version m).message = .ok m :=
      (carries.understood m List.mem_cons_self).readable
    simp only [Gateway.reading, Gateway.nextMessage, hbuffer, hmessage, Option.some.injEq] at read
    exact ⟨m, others, rest, rfl, read.symm, hrest⟩

/-- The gateway has come this far in its script. -/
def Shape.scripted (g : Gateway) (k : Shape) : Shape :=
  { k with
    script := g.script
    last := g.last
    values := g.results }

section
variable {g : Gateway} {octets : Octets} {others ms : List Message}

/-- The gateway's move leaves the client as it is. -/
theorem Shows.moved (h : Shows t target k c.view)
    (view : c'.view = { c.view with gateway := g, toEngine := c.toEngine ++ octets })
    (listens : g.ended = false) (connected : g.connected = true) :
    Shows t target (k.scripted g) c'.view := by
  have hgateway : g = (k.scripted g).gateway g.buffer := by
    unfold Shape.gateway
    rw [← listens, ← connected]
    rfl
  rw [view]
  exact ⟨h.held, h.lenient, h.waiting, h.plan, h.results, h.impatient, h.heard, h.link,
    ⟨g.buffer, hgateway⟩⟩

theorem Carries.moved (carries : Carries t toEngine toGateway c.view)
    (view : c'.view = { c.view with
      gateway := g, toEngine := c.toEngine ++ Message.stream defaultProtocolVersion ms })
    (read : g.buffer ++ c.toGateway = Message.stream t.version others)
    (fewer : ∀ m ∈ others, m ∈ toGateway) (accepted : ∀ m ∈ ms, m.Travels t.maxPayload) :
    Carries t (toEngine ++ ms) others c'.view := by
  have hinbound : c.session.link.engine.buffer ++ c.toEngine =
      Message.stream defaultProtocolVersion toEngine := carries.inbound
  rw [view]
  refine ⟨?_, read, ?_, fun m hm => carries.understood m (fewer m hm), carries.partly⟩
  · simp only [Conversation.view]
    rw [← List.append_assoc, hinbound, Message.stream_append]
  · intro m hm
    rcases List.mem_append.mp hm with hold | hnew
    · exact carries.accepted m hold
    · exact accepted m hnew

end

section
variable {script : List GatewayStep} {others : List Message} (h : Shows t target k c.view)
  (carries : Carries t toEngine toGateway c.view) (step : c.step now .gateway = some c')
include h carries step

theorem Shows.reads {use : Message → Gateway → Gateway × Octets}
    (reads : ∀ buffer finished,
      (k.gateway buffer).move finished = (k.gateway buffer).reading use) :
    ∃ m others rest, toGateway = m :: others ∧
      c'.view = { c.view with
        gateway := (use m (k.gateway rest)).1
        toEngine := c.toEngine ++ (use m (k.gateway rest)).2 } ∧
      rest ++ c.toGateway = Message.stream t.version others := by
  obtain ⟨g, octets, hmove, hview⟩ := Conversation.view_gateway step
  obtain ⟨buffer, hgateway⟩ := h.gateway
  have hread : c.gateway.reading use = some (g, octets) := by
    have hbuffer : c.gateway = k.gateway buffer := hgateway
    rw [hbuffer] at hmove ⊢
    rw [← reads, hmove]
  obtain ⟨m, others, rest, hunder, hmoved, hrest⟩ := carries.reading h hread
  refine ⟨m, others, rest, hunder, ?_, hrest⟩
  rw [← hmoved]
  exact hview

/-- The gateway reads an activation request, and answers it. -/
theorem Shows.accepts {code : ActivationCode} {request : ActivationRequest}
    (next : k.script = .acceptActivation code none :: script)
    (under : toGateway = .activationRequest request :: others)
    (accepted : (Gateway.activationAnswer request code none).Travels t.maxPayload) :
    Shows t target { k with
          script := script
          values := k.values ++ [.ok (.activation request)] } c'.view ∧
      Carries t (toEngine ++ [Gateway.activationAnswer request code none]) others c'.view := by
  obtain ⟨m, ms, rest, hunder, hview, hrest⟩ :=
    h.reads carries step fun buffer => Gateway.move_of_accept rfl next
  obtain ⟨rfl, rfl⟩ := List.cons.inj (under.symm.trans hunder)
  subst under
  simp only [Gateway.accepting, Gateway.finish, Shape.gateway, next, List.tail_cons] at hview
  rw [Gateway.wire, ← Message.stream_singleton] at hview
  refine ⟨h.moved hview rfl rfl, carries.moved hview hrest ?_ ?_⟩
  · intro m hm
    exact List.mem_cons_of_mem _ hm
  · intro m hm
    obtain rfl := List.mem_singleton.mp hm
    exact accepted

/-- The gateway reads a diagnostic message. -/
theorem Shows.expects {d : Diagnostic} (next : k.script = .expectDiagnostic :: script)
    (under : toGateway = .diagnostic d :: others) :
    Shows t target { k with
          script := script
          last := some d
          values := k.values ++ [.ok (.diagnostic d)] } c'.view ∧
      Carries t toEngine others c'.view := by
  obtain ⟨m, ms, rest, hunder, hview, hrest⟩ :=
    h.reads carries step fun buffer => Gateway.move_of_expect rfl next
  obtain ⟨rfl, rfl⟩ := List.cons.inj (under.symm.trans hunder)
  subst under
  simp only [Gateway.expecting, Gateway.finish, Shape.gateway, next, List.tail_cons] at hview
  have hcarries : Carries t (toEngine ++ []) others c'.view :=
    carries.moved hview hrest (fun m hm => List.mem_cons_of_mem _ hm) (by simp)
  rw [List.append_nil] at hcarries
  exact ⟨h.moved hview rfl rfl, hcarries⟩

/-- The gateway writes a message. -/
theorem Shows.writes {s : GatewayStep} {m : Message} (next : k.script = s :: script)
    (writes : ∀ buffer finished, (k.gateway buffer).move finished =
      (k.gateway buffer).writing (Gateway.wire m)) (accepted : m.Travels t.maxPayload) :
    Shows t target { k with
          script := script
          values := k.values ++ [.ok .nothing] } c'.view ∧
      Carries t (toEngine ++ [m]) toGateway c'.view := by
  obtain ⟨g, octets, hmove, hview⟩ := Conversation.view_gateway step
  obtain ⟨buffer, hgateway⟩ := h.gateway
  have hbuffer : c.gateway = k.gateway buffer := hgateway
  have houtbound : buffer ++ c.toGateway = Message.stream t.version toGateway := by
    rw [← carries.outbound, hgateway]
    rfl
  rw [hbuffer, writes] at hmove
  simp only [Gateway.writing, Gateway.finish, Shape.gateway, next, List.tail_cons,
    Option.some.injEq, Prod.mk.injEq] at hmove
  obtain ⟨rfl, rfl⟩ := hmove
  rw [Gateway.wire, ← Message.stream_singleton] at hview
  refine ⟨h.moved hview rfl rfl, carries.moved hview houtbound (fun _ hm => hm) ?_⟩
  intro m' hm'
  obtain rfl := List.mem_singleton.mp hm'
  exact accepted

end
end Bench
end Doip
