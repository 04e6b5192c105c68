import Doip.Bench.Conversation
import Doip.Proofs.Session.Passing

/-! # What a conversation does, one act at a time

One read may complete many frames, and the client's step is finished after all of them. To follow
the frames one by one a conversation is looked at without the flags in its reports: in such a
`View` it makes no difference whether the client notes what its engine does after each act or
after all of them (`performAll_note`). -/
namespace Doip

namespace Session

/-- The link performs an act, and its answers are handed over. -/
def perform (now : Instant) (a : Link.Act) (s : Session) : Session × Effect :=
  deliver { s with link := (s.link.act now a).1 } (s.link.act now a).2

/-- The link performs several acts before the answers are handed over. -/
def performAll (acts : List (Instant × Link.Act)) (s : Session) : Session × Effect :=
  deliver { s with link := (Link.actAll acts s.link).1 } (Link.actAll acts s.link).2

theorem performAll_cons (now : Instant) (a : Link.Act) (acts : List (Instant × Link.Act))
    (s : Session) :
    s.performAll ((now, a) :: acts) =
      (((s.perform now a).1.performAll acts).1,
        (s.perform now a).2 ++ ((s.perform now a).1.performAll acts).2) := by
  have hlink : (s.perform now a).1.link = (s.link.act now a).1 := rfl
  have hboth := deliver_append { s with link := (Link.actAll acts (s.link.act now a).1).1 }
    (s.link.act now a).2 (Link.actAll acts (s.link.act now a).1).2
  unfold performAll
  rw [hlink]
  exact hboth

theorem passOn_eq_performAll (now : Instant) (event : Link.Event) (s : Session) :
    s.passOn now event = s.performAll ((s.link.acts event).map (now, ·)) := by
  unfold passOn performAll
  rw [Link.step_eq_actAll]

theorem passOn_eq_perform {now : Instant} {event : Link.Event} {a : Link.Act} {s : Session}
    (h : s.link.acts event = [a]) : s.passOn now event = s.perform now a := by
  unfold passOn perform
  rw [Link.step_of_single h]

end Session

namespace Bench

/-- A conversation without the flags in the client's reports. -/
structure View where
  session : Session
  held : Bool
  waiting : Bool
  plan : List ClientStep
  strict : Bool
  results : List ClientResult
  gateway : Gateway
  toEngine : Octets
  toGateway : Octets

def Conversation.view (c : Conversation) : View where
  session := c.session
  held := c.held
  waiting := c.waiting
  plan := c.plan
  strict := c.strict
  results := c.reports.map (·.result)
  gateway := c.gateway
  toEngine := c.toEngine
  toGateway := c.toGateway

namespace View

/-- The client finishes its current step. -/
def finish (result : ClientResult) (v : View) : View :=
  { v with
    waiting := false
    plan := if v.strict && result.isFailure then [] else v.plan.tail
    results := v.results ++ [result] }

/-- Takes over the session; an answer finishes the step of a client that waits. -/
def note (happened : Session × Effect) (v : View) : View :=
  let v := { v with
    session := happened.1
    toGateway := v.toGateway ++ happened.2.sent }
  match happened.2.replies with
  | [] => v
  | reply :: _ => if v.waiting then v.finish (.answer reply.answer) else v

/-- The client's link performs an act. -/
def perform (now : Instant) (a : Link.Act) (v : View) : View := v.note (v.session.perform now a)

def performAll : List (Instant × Link.Act) → View → View
  | [], v => v
  | (now, a) :: acts, v => performAll acts (v.perform now a)

theorem performAll_append (first others : List (Instant × Link.Act)) (v : View) :
    v.performAll (first ++ others) = (v.performAll first).performAll others := by
  induction first generalizing v with
  | nil => rfl
  | cons x first ih => exact ih _

theorem note_none (v : View) : v.note (v.session, .none) = v := by
  simp only [note, Effect.none, List.append_nil]

/-- Only the first answer is noted, at whatever time. -/
theorem note_append (s s' : Session) (a b : Effect) (v : View) :
    v.note (s', a ++ b) = (v.note (s, a)).note (s', b) := by
  obtain ⟨replies, sent⟩ := a
  obtain ⟨others, rest⟩ := b
  change v.note (s', ⟨replies ++ others, sent ++ rest⟩) = _
  cases replies with
  | nil => simp only [note, List.nil_append, List.append_assoc]
  | cons reply replies =>
    by_cases hwaits : v.waiting = true
    · cases others with
      | nil => simp [note, finish, hwaits]
      | cons other others => simp [note, finish, hwaits]
    · cases others with
      | nil => simp [note, hwaits]
      | cons other others => simp [note, hwaits]

/-- A note reaches beyond the client's own steps only by what is sent. -/
theorem note_reach (happened : Session × Effect) (v : View) :
    (v.note happened).session = happened.1 ∧ (v.note happened).gateway = v.gateway ∧
      (v.note happened).toEngine = v.toEngine ∧
      (v.note happened).toGateway = v.toGateway ++ happened.2.sent := by
  unfold note
  dsimp only
  split
  · exact ⟨rfl, rfl, rfl, rfl⟩
  · split <;> exact ⟨rfl, rfl, rfl, rfl⟩

@[simp] theorem session_note (happened : Session × Effect) (v : View) :
    (v.note happened).session = happened.1 := (note_reach happened v).1

theorem performAll_note (acts : List (Instant × Link.Act)) (v : View) :
    v.note (v.session.performAll acts) = v.performAll acts := by
  induction acts generalizing v with
  | nil =>
    have hnothing : v.session.performAll [] = (v.session, .none) := Session.deliver_none _
    rw [hnothing, note_none]
    rfl
  | cons x acts ih =>
    obtain ⟨now, a⟩ := x
    rw [Session.performAll_cons, note_append (v.session.perform now a).1, performAll, ← ih]
    unfold perform
    rw [session_note]

end View

namespace Conversation

variable {c c' : Conversation} {now : Instant}

theorem view_finish (result : ClientResult) (c : Conversation) :
    (c.finish result).view = c.view.finish result := by
  simp [finish, view, View.finish]

theorem view_note (happened : Session × Effect) (c : Conversation) :
    (c.note happened).view = c.view.note happened := by
  simp only [note, View.note]
  cases happened.2.replies with
  | nil => rfl
  | cons reply replies =>
    have hview : c.view.waiting = c.waiting := rfl
    simp only [hview]
    by_cases hwaits : c.waiting = true
    · rw [if_pos hwaits, if_pos hwaits, view_finish]
      rfl
    · rw [if_neg hwaits, if_neg hwaits]
      rfl

theorem view_take (h : c.step now .take = some c') :
    c.session.link.queue ≠ [] ∧ c'.view = c.view.perform now .take := by
  simp only [step] at h
  split at h
  · cases h
  · rename_i hqueue
    cases h
    refine ⟨hqueue, ?_⟩
    rw [view_note, View.perform]
    exact congrArg c.view.note (Session.passOn_eq_perform rfl)

/-- The engine reads one octet at least: it dispatches the frames that are complete now, and keeps
the rest. -/
theorem view_engineReads {count : Nat} (h : c.step now (.engineReads count) = some c') :
    c.toEngine.take count ≠ [] ∧
      c'.view = { c.view with toEngine := c.toEngine.drop count }.performAll
        ((c.session.link.acts (.read (c.toEngine.take count))).map (now, ·)) := by
  simp only [step] at h
  split at h
  · rename_i hcond
    obtain ⟨-, hpos, hle⟩ := hcond
    cases h
    refine ⟨?_, ?_⟩
    · intro hnil
      have hlength := congrArg List.length hnil
      rw [List.length_take] at hlength
      simp only [List.length_nil] at hlength
      omega
    · rw [view_note, ← View.performAll_note]
      exact congrArg (View.note · _)
        (Session.passOn_eq_performAll now (.read (c.toEngine.take count)) c.session)
  · cases h

theorem view_gateway (h : c.step now .gateway = some c') :
    ∃ g octets, c.gateway.move c.reports.length = some (g, octets) ∧
      c'.view = { c.view with gateway := g, toEngine := c.toEngine ++ octets } := by
  obtain ⟨⟨g, octets⟩, hmove, rfl⟩ := Option.map_eq_some_iff.mp h
  exact ⟨g, octets, hmove, rfl⟩

end Conversation
end Bench
end Doip
