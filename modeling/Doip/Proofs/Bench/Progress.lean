import Doip.Proofs.Bench.Stage

/-! # A dialogue does not get stuck

At each stage somebody can move, without any deadline: whoever has a command to take or a step to
begin, and otherwise whoever has octets under way to it (`Stage.moves`). That the engine never
leaves a whole frame in its buffer is what makes the octets under way suffice. -/
namespace Doip

namespace Bench

/-- Whatever the time, a move other than a deadline is possible. -/
def Conversation.Moves (c : Conversation) : Prop :=
  ∃ move ≠ .deadline, ∀ now, (c.step now move).isSome = true

variable {t : Tuning} {target : Address} {g : Dialogue} {k : Shape} {c : Conversation}
variable {toEngine toGateway : List Message}

theorem Shows.moves_of_begin (h : Shows t target k c.view) (idle : k.waiting = false)
    (next : k.plan = [] ∨ ∃ request plan, k.plan = .ask request :: plan) : c.Moves := by
  refine ⟨.client, by simp, fun now => ?_⟩
  have hheld : c.held = true := h.held
  have hwaiting : c.waiting = false := h.waiting.trans idle
  rcases next with hdone | ⟨request, plan, hask⟩
  · have hplan : c.plan = [] := h.plan.trans hdone
    simp [Conversation.step, Conversation.beginStep, hwaiting, hplan, hheld]
  · have hplan : c.plan = .ask request :: plan := h.plan.trans hask
    simp [Conversation.step, Conversation.beginStep, hwaiting, hplan, hheld]

theorem Shows.moves_of_queue (h : Shows t target k c.view) (queue : k.queue ≠ []) : c.Moves := by
  refine ⟨.take, by simp, fun now => ?_⟩
  obtain ⟨buffer, pendingAt, hlink⟩ := h.link
  have hqueue : c.session.link.queue = k.queue := congrArg Link.queue hlink
  simp [Conversation.step, hqueue, queue]

/-- A message under way to the engine: some of its octets are not in the engine's buffer yet. -/
theorem Carries.moves_of_inbound {m : Message} {ms : List Message} (h : Shows t target k c.view)
    (carries : Carries t (m :: ms) toGateway c.view) : c.Moves := by
  obtain ⟨buffer, pendingAt, hlink⟩ := h.link
  have halive : c.session.link.isAlive = true := congrArg Link.isAlive hlink
  have hmore : c.toEngine ≠ [] := by
    intro hnone
    have hinbound : c.session.link.engine.buffer ++ c.toEngine = _ := carries.inbound
    have hpartly : Frame.scan t.maxPayload c.session.link.engine.buffer = .incomplete :=
      carries.partly
    rw [hnone, List.append_nil] at hinbound
    rw [hinbound, Message.scan_stream carries.accepted] at hpartly
    cases hpartly
  refine ⟨.engineReads c.toEngine.length, by simp, fun now => ?_⟩
  simp [Conversation.step, halive, List.length_pos_iff.mpr hmore]

/-- A message under way to the gateway: it has arrived whole, or some of its octets have not. -/
theorem Carries.moves_of_outbound {m : Message} {ms : List Message}
    {use : Message → Gateway → Gateway × Octets} (h : Shows t target k c.view)
    (carries : Carries t toEngine (m :: ms) c.view)
    (reads : ∀ buffer finished,
      (k.gateway buffer).move finished = (k.gateway buffer).reading use) : c.Moves := by
  by_cases hnone : c.toGateway = []
  · refine ⟨.gateway, by simp, fun now => ?_⟩
    obtain ⟨buffer, hgateway⟩ := h.gateway
    have hbuffer : c.gateway = k.gateway buffer := hgateway
    have houtbound : c.gateway.buffer ++ c.toGateway = _ := carries.outbound
    rw [hnone, List.append_nil, hbuffer] at houtbound
    have hscan := Message.scan_stream carries.understood t.version
    rw [← houtbound] at hscan
    have hmessage : (Frame.ofMessage t.version m).message = .ok m :=
      (carries.understood m List.mem_cons_self).readable
    simp [Conversation.step, hbuffer, reads, Gateway.reading, Gateway.nextMessage, hscan, hmessage]
  · refine ⟨.gatewayReceives c.toGateway.length, by simp, fun now => ?_⟩
    simp [Conversation.step, List.length_pos_iff.mpr hnone]

theorem Shows.moves_of_write {m : Message} (h : Shows t target k c.view)
    (writes : ∀ buffer finished, (k.gateway buffer).move finished =
      (k.gateway buffer).writing (Gateway.wire m)) : c.Moves := by
  refine ⟨.gateway, by simp, fun now => ?_⟩
  obtain ⟨buffer, hgateway⟩ := h.gateway
  have hbuffer : c.gateway = k.gateway buffer := hgateway
  simp [Conversation.step, hbuffer, writes, Gateway.writing]

/-- The answers are under way or still to be written. -/
theorem Shows.moves_of_answers {x : Round} {flying left : List Writing} {script : List GatewayStep}
    (h : Shows t target k c.view) (carries : Carries t (flying.map Prod.snd) toGateway c.view)
    (more : flying ++ left ≠ []) (answers : ∀ writing ∈ left, writing ∈ x.answers t.source target)
    (next : k.script = left.map Prod.fst ++ script)
    (last : k.last = some ⟨t.source, target, x.request⟩) : c.Moves := by
  cases flying with
  | cons writing flying => exact carries.moves_of_inbound h
  | nil =>
    cases left with
    | nil => exact absurd rfl more
    | cons writing left =>
      have hmem := answers writing List.mem_cons_self
      exact h.moves_of_write (Shape.move_of_answer hmem next last)

theorem Stage.moves (stage : Stage t g k toEngine toGateway) (h : Shows t g.target k c.view)
    (carries : Carries t toEngine toGateway c.view) : c.Moves := by
  cases stage with
  | opening => exact h.moves_of_begin rfl (.inr ⟨_, _, rfl⟩)
  | activating | sending => exact h.moves_of_queue (by simp)
  | requested =>
    exact carries.moves_of_outbound h fun buffer => Gateway.move_of_accept rfl rfl
  | accepted => exact carries.moves_of_inbound h
  | @ready rest results last values leaves =>
    refine h.moves_of_begin rfl ?_
    cases rest with
    | nil => exact .inl rfl
    | cons x rest => exact .inr ⟨_, _, rfl⟩
  | sent => exact carries.moves_of_outbound h fun buffer => Gateway.move_of_expect rfl rfl
  | @acknowledging x rest results values id flying left sound answers leaves =>
    refine h.moves_of_answers carries ?_ (fun writing hwriting => ?_) rfl rfl
    · rw [answers]
      exact List.cons_ne_nil _ _
    · rw [← answers]
      exact List.mem_append_right _ hwriting
  | @listening x rest results values flying left waiting queue receives attention sound answers
      leaves =>
    cases attention with
    | idle => exact h.moves_of_begin rfl (.inr ⟨_, _, rfl⟩)
    | asked => exact h.moves_of_queue (by simp)
    | waits =>
      refine h.moves_of_answers carries ?_ (fun writing hwriting => ?_) rfl rfl
      · rw [answers]
        simp
      · refine List.mem_cons_of_mem _ ?_
        rw [← answers]
        exact List.mem_append_right _ hwriting
  | kept attention leaves =>
    cases attention with
    | idle => exact h.moves_of_begin rfl (.inr ⟨_, _, rfl⟩)
    | asked => exact h.moves_of_queue (by simp)

end Bench
end Doip
