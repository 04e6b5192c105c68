import Doip.Proofs.Bench.Progress
import Doip.Proofs.Session.Stopping

/-! # A dialogue from end to end

Whatever the interleaving of client, engine and gateway, and however both streams are cut, a
dialogue goes from stage to stage until the client has closed its session (`Finished`). Each side
learns what belongs to its step, and nothing of another round (`dialogue_delivered`). -/
namespace Doip

namespace Session

/-- Closing ends the engine, and leaves no command to take. -/
theorem link_close {s : Session} {t : Tuning} {target : Address} {e : Engine}
    (link : s.link = ⟨t, target, [], .running e⟩) (now : Instant) :
    ∃ cause, (s.close now).1.link = ⟨t, target, [], .stopped cause⟩ := by
  have hclose : (s.close now).1.link = (s.passing now .close).1 := (step_step now .close s).link
  rw [hclose, passing, passed, closing]
  by_cases hzero : s.closeTimeout = .zero
  · refine ⟨.aborted, ?_⟩
    simp [hzero, link, Link.run, Link.step, Link.stepRunning, Link.stop]
  · refine ⟨.shutdown, ?_⟩
    simp [hzero, link, Link.run, Link.step, Link.stepRunning, Link.stop, Link.takeCommand]

end Session

namespace Bench

variable {t : Tuning} {g : Dialogue} {now : Instant} {c c' : Conversation}

/-- The client has closed its session, and both sides have learnt everything. -/
structure Finished (t : Tuning) (g : Dialogue) (c : Conversation) : Prop where
  closed : c.held = false
  idle : c.waiting = false
  plan : c.plan = []
  stopped : ∃ target cause, c.session.link = ⟨t, target, [], .stopped cause⟩
  script : c.gateway.script = []
  results : c.reports.map (·.result) = g.results t.source
  values : c.gateway.results = g.values t.source

theorem Conversation.note_of_idle {c : Conversation} (idle : c.waiting = false)
    (happened : Session × Effect) :
    c.note happened =
      { c with session := happened.1, toGateway := c.toGateway ++ happened.2.sent } := by
  simp only [note]
  cases happened.2.replies with
  | nil => rfl
  | cons reply replies => simp [idle]

theorem Finished.step {move : Conversation.Move} (h : Finished t g c)
    (step : c.step now move = some c') : Finished t g c' := by
  obtain ⟨target, cause, hlink⟩ := h.stopped
  have hstopped : c.session.link.phase = .stopped cause := by rw [hlink]
  have halive : c.session.link.isAlive = false := Link.isAlive_of_stopped hstopped
  cases move with
  | client => simp [Conversation.step, Conversation.beginStep, h.idle, h.plan, h.closed] at step
  | take => simp [Conversation.step, hlink] at step
  | engineReads | engineReadsEnd => simp [Conversation.step, halive] at step
  | gateway => simp [Conversation.step, Gateway.move, h.script] at step
  | deadline =>
    simp only [Conversation.step, Conversation.note_of_idle h.idle, Option.some.injEq] at step
    subst step
    refine ⟨h.closed, h.idle, h.plan, ⟨target, cause, ?_⟩, h.script, h.results, h.values⟩
    rw [Session.link_of_stopped hstopped, hlink]
  | gatewayReceives | gatewayReceivesEnd =>
    simp only [Conversation.step] at step
    split at step
    · cases step
      exact ⟨h.closed, h.idle, h.plan, h.stopped, h.script, h.results, h.values⟩
    · cases step

/-- A client that has nothing left to do closes its session. -/
theorem Shows.close {target : Address} {k : Shape} (h : Shows t target k c.view)
    (step : c.step now .client = some c') (plan : k.plan = []) (queue : k.queue = [])
    (script : k.script = []) (results : k.results = g.results t.source)
    (values : k.values = g.values t.source) : Finished t g c' := by
  obtain ⟨buffer, pendingAt, hlink⟩ := h.link
  obtain ⟨gatewayBuffer, hgateway⟩ := h.gateway
  have hwaiting : c.waiting = false := h.waiting.trans (h.idle step)
  have hplan : c.plan = [] := h.plan.trans plan
  have hheld : c.held = true := h.held
  have hsession : c.session.link = ⟨t, target, [], .running (k.engine buffer pendingAt)⟩ := by
    rw [← queue]
    exact hlink
  obtain ⟨cause, hclosed⟩ := Session.link_close hsession now
  simp only [Conversation.step, Conversation.beginStep, hwaiting, hplan, hheld, Conversation.closed,
    Conversation.note_of_idle hwaiting, if_true, Bool.false_eq_true, if_false,
    Option.some.injEq] at step
  subst step
  exact ⟨rfl, rfl, rfl, ⟨target, cause, hclosed⟩,
    (congrArg Gateway.script hgateway).trans script, h.results.trans results,
    (congrArg Gateway.results hgateway).trans values⟩

/-! ## A run -/

/-- At every deadline an activation that waits is not due. -/
def Conversation.ActivatesInTime : List (Instant × Conversation.Move) → Conversation → Prop
  | [], _ => True
  | (now, move) :: moves, c =>
    (move = .deadline →
      ∀ wait ∈ c.session.link.engine.activation, isDue now wait.deadline = false) ∧
        ∀ c' ∈ c.step now move, ActivatesInTime moves c'

instance Conversation.decidableActivatesInTime :
    (moves : List (Instant × Conversation.Move)) → (c : Conversation) →
      Decidable (Conversation.ActivatesInTime moves c)
  | [], _ => .isTrue trivial
  | (now, move) :: moves, c =>
    have : ∀ c', Decidable (ActivatesInTime moves c') := decidableActivatesInTime moves
    inferInstanceAs (Decidable ((move = .deadline →
      ∀ wait ∈ c.session.link.engine.activation, isDue now wait.deadline = false) ∧
        ∀ c' ∈ c.step now move, ActivatesInTime moves c'))

theorem Talks.step {move : Conversation.Move} (enough : 9 ≤ t.maxPayload.toNat)
    (sound : ∀ x ∈ g.rounds, x.Sound t.maxPayload) (h : Talks t g c.view)
    (inTime : move = .deadline →
      ∀ wait ∈ c.session.link.engine.activation, isDue now wait.deadline = false)
    (step : c.step now move = some c') : Talks t g c'.view ∨ Finished t g c' := by
  obtain ⟨k, toEngine, toGateway, stage, hshows, hcarries⟩ := h
  obtain ⟨buffer, pendingAt, hlink⟩ := hshows.link
  obtain ⟨gatewayBuffer, hgateway⟩ := hshows.gateway
  have hsession : c.session.link = ⟨t, g.target, k.queue, .running (k.engine buffer pendingAt)⟩ :=
    hlink
  cases move with
  | client =>
    rcases stage.client hshows hcarries step with htalks | hdone
    · exact .inl htalks
    · obtain ⟨hresults, hvalues, hscript, hqueue⟩ := stage.complete hdone
      exact .inr (hshows.close step hdone hqueue hscript hresults hvalues)
  | take => exact .inl (stage.take hshows hcarries step)
  | engineReads count =>
    obtain ⟨k', toEngine', stage', both⟩ :=
      (Stage.handles sound now toGateway).read stage hshows hcarries step
    exact .inl (stage'.talks both)
  | engineReadsEnd =>
    have hconnected : c.gateway.connected = true := congrArg Gateway.connected hgateway
    simp [Conversation.step, hconnected] at step
  | deadline =>
    have hearly : k.Early now := by
      refine stage.early fun wait hwait => inTime rfl wait ?_
      rw [hsession]
      exact hwait
    exact .inl (stage.talks (hshows.deadline hcarries hearly step))
  | gatewayReceives count => exact .inl (stage.talks (hshows.gatewayReceives hcarries step))
  | gatewayReceivesEnd =>
    have halive : c.session.link.isAlive = true := by
      rw [hsession]
      rfl
    simp [Conversation.step, halive] at step
  | gateway => exact .inl (stage.gateway enough hshows hcarries step)

theorem Talks.run (enough : 9 ≤ t.maxPayload.toNat)
    (sound : ∀ x ∈ g.rounds, x.Sound t.maxPayload) {moves : List (Instant × Conversation.Move)}
    (h : Talks t g c.view ∨ Finished t g c) (inTime : Conversation.ActivatesInTime moves c)
    (run : Conversation.run moves c = some c') : Talks t g c'.view ∨ Finished t g c' := by
  induction moves generalizing c with
  | nil =>
    cases run
    exact h
  | cons x moves ih =>
    obtain ⟨now, move⟩ := x
    obtain ⟨next, hstep, hrun⟩ := Option.bind_eq_some_iff.mp run
    refine ih ?_ (inTime.2 next hstep) hrun
    rcases h with htalks | hfinished
    · exact htalks.step enough sound inTime.1 hstep
    · exact .inr (hfinished.step hstep)

/-! ## What comes of it -/

/-- What both sides have learnt is right as far as it goes. As long as the client has something to
do, somebody can move; when it has nothing left to do, it has learnt everything, and so has its
gateway. -/
structure Delivered (source : Address) (g : Dialogue) (c : Conversation) : Prop where
  client : c.reports.map (·.result) <+: g.results source
  gateway : c.gateway.results <+: g.values source
  moves : c.plan ≠ [] → c.Moves
  complete : c.plan = [] → c.reports.map (·.result) = g.results source ∧
    c.gateway.results = g.values source ∧ c.gateway.script = []

theorem Stage.delivered {k : Shape} {toEngine toGateway : List Message}
    (stage : Stage t g k toEngine toGateway) (h : Shows t g.target k c.view)
    (carries : Carries t toEngine toGateway c.view) : Delivered t.source g c := by
  obtain ⟨buffer, hgateway⟩ := h.gateway
  have hresults : c.reports.map (·.result) = k.results := h.results
  have hplan : c.plan = k.plan := h.plan
  have hvalues : c.gateway.results = k.values := congrArg Gateway.results hgateway
  have hscript : c.gateway.script = k.script := congrArg Gateway.script hgateway
  obtain ⟨hclient, hserver⟩ := stage.prefixes
  refine ⟨hresults ▸ hclient, hvalues ▸ hserver, fun _ => stage.moves h carries, fun done => ?_⟩
  obtain ⟨hall, hevery, hover, -⟩ := stage.complete (hplan ▸ done)
  exact ⟨hresults.trans hall, hvalues.trans hevery, hscript.trans hover⟩

theorem Finished.delivered (h : Finished t g c) : Delivered t.source g c :=
  ⟨⟨[], by rw [List.append_nil, h.results]⟩, ⟨[], by rw [List.append_nil, h.values]⟩,
    fun busy => absurd h.plan busy, fun _ => ⟨h.results, h.values, h.script⟩⟩

theorem talks_opened (source : Address) (settings : Settings) (g : Dialogue) :
    Talks (.ofSettings source settings) g
      (Conversation.opened source g.target settings g.plan (g.script source)).view := by
  refine ⟨_, [], [], .opening, ?_, ?_⟩
  · exact ⟨rfl, rfl, rfl, rfl, rfl, rfl, rfl, ⟨[], none, rfl⟩, ⟨[], rfl⟩⟩
  · exact ⟨rfl, rfl, by simp, by simp, rfl⟩

theorem Gateway.userData_wire (source target : Address) (data : Octets) :
    userData (Gateway.wire (.diagnostic ⟨source, target, data⟩)) = data := rfl

/-- The rounds do not disturb each other. However the two sides take turns and however their
streams are cut, each sees what the dialogue says, as long as the activation is answered in time:
the gateway's steps succeed and read the requests, the sends are acknowledged, and each receive
brings the frame of its own response. Nobody gets stuck before that. The gateway stays connected
after its last step. -/
theorem dialogue_delivered (source : Address) (settings : Settings) (g : Dialogue)
    (enough : 9 ≤ settings.maxPayloadLength.toNat)
    (sound : ∀ x ∈ g.rounds, x.Sound settings.maxPayloadLength)
    (moves : List (Instant × Conversation.Move)) (c : Conversation)
    (inTime : Conversation.ActivatesInTime moves
      (.opened source g.target settings g.plan (g.script source)))
    (run : Conversation.run moves
      (.opened source g.target settings g.plan (g.script source)) = some c) :
    Delivered source g c ∧ ∀ x ∈ g.rounds,
      userData (Gateway.wire (.diagnostic ⟨g.target, source, x.response⟩)) = x.response := by
  have hstart := talks_opened source settings g
  refine ⟨?_, fun x _ => Gateway.userData_wire _ _ _⟩
  rcases Talks.run enough sound (.inl hstart) inTime run with
    ⟨k, toEngine, toGateway, stage, hshows, hcarries⟩ | hfinished
  · exact stage.delivered hshows hcarries
  · exact hfinished.delivered

/-- A request that is answered after a pending, and one that is answered at once. -/
def twoRounds : Dialogue where
  target := 0x0680
  activation := .default
  rounds := [
    ⟨[0x3E, 0x00], [[0x7F, 0x3E, 0x78]], [0x7E, 0x00]⟩,
    ⟨[0x22, 0xF1, 0x90], [], [0x62, 0xF1, 0x90, 0x41]⟩]

/-- The first response arrives before its receive and in the same read as the pending; the second
receive waits for its response. -/
def twoRoundsMoves : List (Instant × Conversation.Move) :=
  ([.client, .take, .gatewayReceives 5, .gatewayReceives 10, .gateway, .deadline, .engineReads 17,
    .client, .take, .gatewayReceives 14, .gateway, .gateway, .gateway, .gateway,
    .engineReads 20, .engineReads 22, .client, .take,
    .client, .take, .gatewayReceives 15, .gateway, .gateway, .engineReads 13,
    .client, .take, .gateway, .engineReads 16, .client] : List Conversation.Move).map (0, ·)

theorem twoRounds_delivered :
    ∃ c, Conversation.run twoRoundsMoves (.opened 0x0E00 twoRounds.target {}
        twoRounds.plan (twoRounds.script 0x0E00)) = some c ∧ c.plan = [] ∧
      Delivered 0x0E00 twoRounds c := by
  have hrun : (Conversation.run twoRoundsMoves (.opened 0x0E00 twoRounds.target {}
      twoRounds.plan (twoRounds.script 0x0E00))).map (·.plan) = some [] := by decide +kernel
  obtain ⟨c, hc, hplan⟩ := Option.map_eq_some_iff.mp hrun
  have hsound : ∀ x ∈ twoRounds.rounds, x.Sound ({} : Settings).maxPayloadLength := by
    intro x hx
    have henough : 9 ≤ ({} : Settings).maxPayloadLength.toNat := by decide
    rcases List.mem_pair.mp hx with rfl | rfl
    · exact Round.sound_of_usual henough (by simp) (by decide) (by decide) (by decide) (by decide)
    · exact Round.sound_of_usual henough (by simp) (by decide) (by decide) (by decide) (by decide)
  exact ⟨c, hc, hplan, (dialogue_delivered 0x0E00 {} twoRounds (by decide) hsound
    twoRoundsMoves c (by decide +kernel) hc).1⟩

end Bench
end Doip
