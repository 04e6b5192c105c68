import Doip.Proofs.Session.Passing
import Doip.Proofs.Link.Collecting

/-! # Collections and their callers

The engine ends a collection at its own deadline, which starts when it takes the call. The
caller's patience starts with the call and lasts longer by the margin. So a caller whose call
is taken within the margin, and whose engine looks at its deadlines when they come, gets what
has been collected and no timeout (`collect_answered`). -/
namespace Doip
namespace Session

/-- A collection in a run: what happens until its caller asks for it, then until the engine takes
it, and then until it ends. -/
structure Course where
  before : List (Instant × Event)
  askedAt : Instant
  id : CallId
  window : Duration
  waiting : List (Instant × Event)
  takenAt : Instant
  during : List (Instant × Event)

namespace Course

/-- What happens until the engine takes the call. -/
def queued (c : Course) : List (Instant × Event) :=
  c.before ++ (c.askedAt, .ask c.id (.collect (some c.window))) :: c.waiting

def events (c : Course) : List (Instant × Event) := c.queued ++ (c.takenAt, .take) :: c.during

/-- The inbox when the engine takes the call, and what arrives after that. -/
def frames (c : Course) (start : Session) : List Octets :=
  Link.collected (history c.queued start) c.takenAt
    (history c.during (run (c.queued ++ [(c.takenAt, .take)]) start).1) start.link

/-- The call is accepted, and nothing is late. -/
structure Punctual (c : Course) (start : Session) (deadline : Instant) : Prop where
  /-- The session does not refuse the call, and the clock can hold its caller's deadline. -/
  bounded : ∃ bound own, start.bound? c.window = some bound ∧
    Instant.add? c.askedAt bound = some own
  opens : Link.Opens (run c.queued start).1.link c.takenAt c.id c.window deadline
  /-- The engine takes the call before the margin is over. A margin of a millisecond is enough
  where it takes calls at once. -/
  prompt : (∀ x ∈ c.waiting, x.1 ≤ c.takenAt) ∧ c.takenAt < c.askedAt + start.margin.nanos
  /-- At its deadline the next thing is the expiry that ends the collection. -/
  inTime : ∀ x ∈ c.during, x.1 ≤ deadline ∧ (x.2 = .deadline → x.1 < deadline)
  alive : (run c.events start).1.link.isAlive = true

end Course

variable {c : Course} {start : Session} {deadline : Instant}

/-- The caller's patience outlasts the collection. -/
theorem Course.Punctual.deadline_lt (h : c.Punctual start deadline) {bound : Duration}
    {own : Instant} (hbound : start.bound? c.window = some bound)
    (hown : Instant.add? c.askedAt bound = some own) : deadline < own := by
  have hdeadline := Engine.deadline_of_collectionEnd? h.opens.accepted
  rw [tuning_run] at hdeadline
  rw [hdeadline, Instant.eq_of_add? hown, nanos_of_bound? hbound]
  calc c.takenAt + c.window.nanos + start.link.tuning.grace.nanos
    _ < c.askedAt + start.margin.nanos + c.window.nanos + start.link.tuning.grace.nanos :=
      Nat.add_lt_add_right (Nat.add_lt_add_right h.prompt.2 _) _
    _ = c.askedAt + (c.window.nanos + start.link.tuning.grace.nanos + start.margin.nanos) := by
      ac_rfl

/-- The call is accepted, and its caller waits until `own`. -/
theorem awaited_asked {s : Session} {now own : Instant} {id : CallId} {window bound : Duration}
    (hs : Awaited id (fun _ => False) s) (hbound : s.bound? window = some bound)
    (hown : Instant.add? now bound = some own) :
    Awaited id (· = own) (s.step now (.ask id (.collect (some window)))).1 ∧
      Hears id [(now, .ask id (.collect (some window)))] s := by
  have hweak : Awaited id (· = own) s :=
    ⟨hs.heard, fun p hp hcall => (hs.patience p hp hcall).elim⟩
  have accepted : ∀ request, Event.ask id (.collect (some window)) = .ask id request →
      s.call? request ≠ none := by
    intro request heq
    cases heq
    simp [call?, hbound]
  have patient : ∀ p ∈ s.newPatience now (.ask id (.collect (some window))), p.call = id →
      p.deadline = own := by
    intro p hp _
    simp only [newPatience, hbound, Option.toList_some, List.map_cons, List.map_nil,
      List.mem_singleton, hown, Option.getD_some] at hp
    rw [hp]
  obtain ⟨hnext, hreplies⟩ := (step_step now _ s).awaited hweak accepted patient (by simp)
  exact ⟨hnext, hears_single hreplies⟩

/-- The caller hears every answer until the collection ends, and waits for the next one. -/
theorem Course.Punctual.awaited (h : c.Punctual start deadline)
    (hstart : Awaited c.id (fun _ => False) start) (distinct : (asked c.events).Nodup) :
    (∃ due, Awaited c.id due (run c.events start).1) ∧ Hears c.id c.events start := by
  obtain ⟨bound, own, hbound, hown⟩ := h.bounded
  have hlt := h.deadline_lt hbound hown
  have hsplit : c.events = c.before ++ ([(c.askedAt, .ask c.id (.collect (some c.window)))] ++
      (c.waiting ++ (c.takenAt, .take) :: c.during)) := by
    simp [Course.events, Course.queued]
  rw [hsplit, asked_append, asked_append] at distinct
  obtain ⟨-, hlater, hother⟩ := List.nodup_append.mp distinct
  have hbefore : c.id ∉ asked c.before := fun hmem =>
    hother c.id hmem c.id (List.mem_append_left _ (List.mem_singleton_self _)) rfl
  have hrest : c.id ∉ asked (c.waiting ++ (c.takenAt, .take) :: c.during) := fun hmem =>
    (List.nodup_append.mp hlater).2.2 c.id (List.mem_singleton_self _) c.id hmem rfl
  -- nothing happens as late as the end of the caller's patience, not even the expiry
  have hpatient : ∀ x ∈ c.waiting ++ (c.takenAt, .take) :: c.during, x.1 < own := by
    have htaken : c.takenAt ≤ deadline := by
      rw [Engine.deadline_of_collectionEnd? h.opens.accepted, Nat.add_assoc]
      exact Nat.le_add_right _ _
    intro x hx
    refine Nat.lt_of_le_of_lt ?_ hlt
    rcases List.mem_append.mp hx with hwaiting | hx
    · exact Nat.le_trans (h.prompt.1 x hwaiting) htaken
    · rcases List.mem_cons.mp hx with rfl | hduring
      · exact htaken
      · exact (h.inTime x hduring).1
  obtain ⟨hknown, hfirst⟩ := hstart.run c.before start hbefore fun x hx he d hd => hd.elim
  rw [← bound?_run c.before] at hbound
  obtain ⟨hasked, hsecond⟩ := awaited_asked hknown hbound hown
  obtain ⟨hend, hthird⟩ := hasked.run _ _ hrest fun x hx _ d hd => hd ▸ hpatient x hx
  rw [hsplit]
  refine ⟨⟨(· = own), ?_⟩, hears_append hfirst (hears_append hsecond hthird)⟩
  rw [run_append, run_append]
  exact hend

theorem Course.history_events (c : Course) (start : Session) :
    history c.events start = history c.queued start ++ (c.takenAt, .take) ::
      history c.during (run (c.queued ++ [(c.takenAt, .take)]) start).1 := by
  have hsplit : c.events = c.queued ++ [(c.takenAt, .take)] ++ c.during := by
    simp [Course.events]
  rw [hsplit, history_append, history_append, history_take, List.append_assoc]
  rfl

/-- The collection gathers its frames until it ends. -/
theorem Course.Punctual.gathers {source target : Address} {settings : Settings}
    (h : c.Punctual (opened source target settings) deadline) (distinct : (asked c.events).Nodup) :
    Link.Gathers c.id deadline (c.frames (opened source target settings))
      (Link.run (passedAll c.events (opened source target settings))
        (opened source target settings).link).1
      (Link.run (passedAll c.events (opened source target settings))
        (opened source target settings).link).2 := by
  generalize hstart : opened source target settings = start at h ⊢
  have hlink : start.link = .opened (.ofSettings source settings) target := by
    rw [← hstart]
    rfl
  have hrun := Link.run_eq_actAll (passedAll c.events start) start.link
  have hdistinct : (Link.issued (history c.events start)).Nodup := by
    rw [history, Link.issued_history]
    exact (requested_sublist c.events start).nodup distinct
  have halive := h.alive
  rw [link_run] at halive
  have hopens := h.opens
  rw [← link_actAll] at hopens
  change Link.run _ _ = Link.actAll (history c.events start) start.link at hrun
  rw [c.history_events] at hrun hdistinct
  unfold Course.frames
  rw [hlink] at hrun halive hopens ⊢
  refine Link.gathers_of_opens hrun.symm hdistinct hopens halive ?_
  rintro ⟨now, a⟩ hx rfl
  have hdeadline := deadline_of_mem_passedAll (Link.deadline_of_mem_history hx)
  exact (h.inTime _ hdeadline).2 rfl

theorem Course.mem_asked (c : Course) : c.id ∈ asked c.events := by
  unfold Course.events Course.queued
  rw [asked_append, asked_append]
  exact List.mem_append_left _ (List.mem_append_right _ List.mem_cons_self)

/-- The expiry that ends a collection answers its caller, who waits for nothing more. -/
theorem awaited_expired {id : CallId} {due : Instant → Prop} {now : Instant} {s : Session}
    (hs : Awaited id due s) (hanswered : id ∈ (s.link.act now .expire).2.answered) :
    Awaited id (fun _ => False) (s.step now .deadline).1 ∧ Hears id [(now, .deadline)] s := by
  have hlink : s.link.step now .deadline = s.link.act now .expire := Link.step_of_single rfl
  rw [← hlink] at hanswered
  obtain ⟨-, hreplies⟩ := (step_step now .deadline s).awaited hs (by simp) (by simp [newPatience])
    (by simp)
  have hs' : Awaited id due { s with link := (s.link.step now .deadline).1 } :=
    ⟨hs.heard, hs.patience⟩
  exact ⟨hs'.answered hanswered, hears_single hreplies⟩

/-- A caller whose collection is accepted and not late gets what has been collected: this is the
only answer to the call. -/
theorem collect_answered {source target : Address} {settings : Settings}
    (h : c.Punctual (opened source target settings) deadline) {expiredAt : Instant}
    (due : deadline ≤ expiredAt) (after : List (Instant × Event))
    (distinct : (asked (c.events ++ (expiredAt, .deadline) :: after)).Nodup) :
    (run (c.events ++ (expiredAt, .deadline) :: after)
      (opened source target settings)).2.replies.filter (·.call = c.id) =
      [⟨c.id, .frames (c.frames (opened source target settings))⟩] := by
  have hrequested := (requested_sublist _ (opened source target settings)).nodup distinct
  rw [asked_append] at distinct
  obtain ⟨hfirst, -, hother⟩ := List.nodup_append.mp distinct
  have hafter : c.id ∉ asked after := fun hmem => hother c.id c.mem_asked c.id hmem rfl
  have hgathers := h.gathers hfirst
  have hnobody : Awaited c.id (fun _ => False) (opened source target settings) :=
    ⟨List.not_mem_nil, fun p hp => absurd hp List.not_mem_nil⟩
  obtain ⟨⟨own, hwaits⟩, hhears⟩ := h.awaited hnobody hfirst
  have hanswered := hgathers.answered due
  rw [← link_run] at hanswered
  obtain ⟨hdone, hexpired⟩ := awaited_expired hwaits hanswered
  obtain ⟨-, hlater⟩ := hdone.run after _ hafter fun x hx he d hd => hd.elim
  have hall : Hears c.id (c.events ++ ([(expiredAt, .deadline)] ++ after))
      (opened source target settings) :=
    hears_append hhears (hears_append hexpired hlater)
  rw [passedAll_append] at hrequested
  have hlinks := Link.filter_run_of_gathers hrequested hgathers due
  rw [← hlinks]
  exact hall.trans (by rw [passedAll_append]; rfl)

/-- A collection returns, at the first expiry at its deadline or after it, the inbox and then every
response that has arrived since it was taken, as they were read. If it is not late, its caller
gets this answer and no other. -/
theorem collections_return_their_windows (source target : Address) (settings : Settings) :
    (∀ events past l effect before now during id window deadline,
      (Link.requested events).Nodup →
      Link.Point events (opened source target settings).link past l effect →
      past = before ++ (now, .take) :: during →
      Link.Opens (Link.actAll before (opened source target settings).link).1 now id window deadline →
      (∀ x ∈ during, x.2 = .expire → x.1 < deadline) → l.isAlive = true →
      Link.Gathers id deadline
          (Link.collected before now during (opened source target settings).link) l effect ∧
        Link.AsReceived (Link.collected before now during (opened source target settings).link)
          events past (opened source target settings).link ∧
        deadline = now + window.nanos + settings.multiResponseGrace.nanos) ∧
    ∀ (c : Course) deadline expiredAt after,
      (asked (c.events ++ (expiredAt, .deadline) :: after)).Nodup →
      c.Punctual (opened source target settings) deadline → deadline ≤ expiredAt →
      (run (c.events ++ (expiredAt, .deadline) :: after)
        (opened source target settings)).2.replies.filter (·.call = c.id) =
        [⟨c.id, .frames (c.frames (opened source target settings))⟩] := by
  refine ⟨?_, ?_⟩
  · rintro events past l effect before now during id window deadline distinct point rfl opens early
      alive
    refine ⟨?_, Link.asReceived_of_opens point, ?_⟩
    · exact Link.gathers_of_opens point.reached (point.distinct distinct) opens alive early
    · have hdeadline := Engine.deadline_of_collectionEnd? opens.accepted
      rw [Link.tuning_actAll] at hdeadline
      exact hdeadline
  · intro c deadline expiredAt after distinct punctual due
    exact collect_answered punctual due after distinct

/-- While a collection is open another one is opened and ends, a receive waits, the target changes,
and a response pending comes of it. -/
def overlapping : Course where
  before := [(0, .read [0x02, 0xFD, 0x80, 0x01, 0, 0, 0, 5, 0x06, 0x80, 0x0E, 0x00, 0x50])]
  askedAt := 1
  id := 1
  window := .ofMillis 20
  waiting := []
  takenAt := 1
  during := [(2, .ask 2 (.receive none)), (2, .take), (3, .ask 3 (.collect (some (.ofMillis 10)))),
    (3, .take), (4, .setTarget 0x0690),
    (5, .read [0x02, 0xFD, 0x80, 0x01, 0, 0, 0, 7, 0x06, 0x90, 0x0E, 0x00, 0x7F, 0x31, 0x78,
      0x02, 0xFD, 0x80, 0x01, 0, 0, 0, 5, 0x06, 0x90, 0x0E, 0x00, 0x51, 0x02]),
    (260000003, .deadline),
    (260000004, .read [0xFD, 0x80, 0x01, 0, 0, 0, 5, 0x06, 0xA0, 0x0E, 0x00, 0x52])]

theorem overlapping_collected :
    Link.Gathers 1 270000001
        [[0x02, 0xFD, 0x80, 0x01, 0, 0, 0, 5, 0x06, 0x80, 0x0E, 0x00, 0x50],
          [0x02, 0xFD, 0x80, 0x01, 0, 0, 0, 5, 0x06, 0x90, 0x0E, 0x00, 0x51],
          [0x02, 0xFD, 0x80, 0x01, 0, 0, 0, 5, 0x06, 0xA0, 0x0E, 0x00, 0x52]]
        (Link.run (passedAll overlapping.events (opened 0x0E00 0x0680 {}))
          (opened 0x0E00 0x0680 {}).link).1
        (Link.run (passedAll overlapping.events (opened 0x0E00 0x0680 {}))
          (opened 0x0E00 0x0680 {}).link).2 ∧
      (run (overlapping.events ++ (270000001, .deadline) :: [(3000000000, .losePatience)])
        (opened 0x0E00 0x0680 {})).2.replies.filter (·.call = 1) =
        [⟨1, .frames [[0x02, 0xFD, 0x80, 0x01, 0, 0, 0, 5, 0x06, 0x80, 0x0E, 0x00, 0x50],
          [0x02, 0xFD, 0x80, 0x01, 0, 0, 0, 5, 0x06, 0x90, 0x0E, 0x00, 0x51],
          [0x02, 0xFD, 0x80, 0x01, 0, 0, 0, 5, 0x06, 0xA0, 0x0E, 0x00, 0x52]]⟩] := by
  have hframes : overlapping.frames (opened 0x0E00 0x0680 {}) =
      [[0x02, 0xFD, 0x80, 0x01, 0, 0, 0, 5, 0x06, 0x80, 0x0E, 0x00, 0x50],
        [0x02, 0xFD, 0x80, 0x01, 0, 0, 0, 5, 0x06, 0x90, 0x0E, 0x00, 0x51],
        [0x02, 0xFD, 0x80, 0x01, 0, 0, 0, 5, 0x06, 0xA0, 0x0E, 0x00, 0x52]] := by decide +kernel
  rw [← hframes]
  have opens : Link.Opens (run overlapping.queued (opened 0x0E00 0x0680 {})).1.link 1 1
      (.ofMillis 20) 270000001 := ⟨by decide +kernel, by decide +kernel, by decide +kernel⟩
  have alive : (run overlapping.events (opened 0x0E00 0x0680 {})).1.link.isAlive = true := by
    decide +kernel
  refine ⟨?_, ?_⟩
  · have point := Link.point_run (passedAll overlapping.events (opened 0x0E00 0x0680 {}))
      (opened 0x0E00 0x0680 {}).link
    rw [← link_actAll] at opens
    rw [link_run] at alive
    exact ((collections_return_their_windows 0x0E00 0x0680 {}).1 _ _ _ _ _ _ _ _ _ _
      (by decide +kernel) point (overlapping.history_events _) opens (by decide +kernel) alive).1
  · refine (collections_return_their_windows 0x0E00 0x0680 {}).2 overlapping 270000001 270000001 _
      (by decide) ⟨?_, opens, by decide, by decide, alive⟩ (by decide)
    exact ⟨.ofMillis 2270, 2270000001, by decide +kernel, by decide +kernel⟩

end Session
end Doip
