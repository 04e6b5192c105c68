import Doip.Proofs.Link.Binding
import Doip.Proofs.Link.Collecting
import Doip.Proofs.Link.Stopping
import Doip.Proofs.Session.Settlement

/-! # A stop is final

When the engine of a session stops, every caller who waits is told the cause. After that the
session is a closed door: it is not open and will not be, refuses calls and targets, writes
nothing, and closing it again makes no difference that anyone could notice (`Over`,
`stopping_is_final`). -/
namespace Doip

/-- The requests that a session with these settings passes on. -/
def Request.Admissible (settings : Settings) : Request → Prop
  | .activate _ | .receive _ => True
  | .send data _ => data.length + Session.addressesLength ≤ settings.maxPayloadLength.toNat
  | .collect none => False
  | .collect (some window) =>
    window.nanos + settings.multiResponseGrace.nanos + settings.callerMargin.nanos ≤
      Duration.limit

namespace Session

variable {now : Instant} {event : Event} {s s' : Session} {cause : Stop} {id : CallId}

/-! ## The acts of an event -/

/-- At this event the link gets to the state `l`, and then it performs the act `a`. -/
def Performs (now : Instant) (event : Event) (s : Session) (l : Link) (a : Link.Act) : Prop :=
  ∃ before, before ++ [(now, a)] <+: history [(now, event)] s ∧ (Link.actAll before s.link).1 = l

theorem passing_eq_actAll (now : Instant) (event : Event) (s : Session) :
    s.passing now event = Link.actAll (history [(now, event)] s) s.link := by
  rw [history, ← Link.run_eq_actAll, passedAll]
  simp only [passedAll, List.append_nil]
  rfl

theorem time_of_performed {before : List (Instant × Link.Act)} {time : Instant} {a : Link.Act}
    (h : before ++ [(time, a)] <+: history [(now, event)] s) : time = now := by
  have hmem : (time, a) ∈ history [(now, event)] s := h.subset (by simp)
  obtain ⟨earlier, passed, later, hpassed, -⟩ := Link.mem_history hmem
  simp only [passedAll, List.append_nil] at hpassed
  have hevent : (time, passed) ∈ (s.passed now event).map (now, ·) := by
    rw [hpassed]
    exact List.mem_append_right _ List.mem_cons_self
  obtain ⟨_, -, heq⟩ := List.mem_map.mp hevent
  cases heq
  rfl

theorem mem_replies_passing {r : Reply} :
    r ∈ (s.passing now event).2.replies ↔
      ∃ l a, Performs now event s l a ∧ r ∈ (l.act now a).2.replies := by
  rw [passing_eq_actAll, Link.mem_replies_actAll]
  constructor
  · rintro ⟨before, time, a, hpart, hr⟩
    obtain rfl := time_of_performed hpart
    exact ⟨_, a, ⟨before, hpart, rfl⟩, hr⟩
  · rintro ⟨l, a, ⟨before, hpart, rfl⟩, hr⟩
    exact ⟨before, now, a, hpart, hr⟩

theorem exists_stop (alive : s.link.isAlive = true)
    (dead : (s.passing now event).1.phase = .stopped cause) :
    ∃ l a, Performs now event s l a ∧ l.isAlive = true ∧
      (l.act now a).1.phase = .stopped cause := by
  rw [passing_eq_actAll] at dead
  obtain ⟨before, time, a, hpart, hstop⟩ := Link.exists_stop alive dead
  obtain rfl := time_of_performed hpart
  exact ⟨_, a, ⟨before, hpart, rfl⟩, hstop⟩

/-- Whoever waits when the engine stops is told the cause, unless he has given up. -/
theorem mem_replies_of_stop (alive : s.link.isAlive = true)
    (dead : (s.step now event).1.link.phase = .stopped cause) :
    ∃ l a, Performs now event s l a ∧ l.isAlive = true ∧ (l.act now a).1.phase = .stopped cause ∧
      ∀ id ∈ l.engine.waiting ++ Link.queuedIn l.queue, id ∉ s.givenUp →
        ⟨id, .failed cause.failure⟩ ∈ (s.step now event).2.replies := by
  have hlink : (s.step now event).1.link = (s.passing now event).1 := (step_step now event s).link
  rw [hlink] at dead
  have hstays : s.passing now event ≠ (s.link, .none) := by
    intro hsame
    rw [hsame] at dead
    rw [Link.isAlive_of_stopped dead] at alive
    cases alive
  rcases step_cases now event s with ⟨id, request, reason, rfl, no, -⟩ | rfl | ⟨-, passes⟩
  · exact absurd (passing_of_nothing (passed_of_refused no)) hstays
  · exact absurd (passing_of_nothing rfl) hstays
  · obtain ⟨l, a, performs, running, stops⟩ := exists_stop alive dead
    refine ⟨l, a, performs, running, stops, fun id hid hheard => ?_⟩
    obtain ⟨heffect, -⟩ := (Link.step_act now a l).ends running stops
    have hreply : ⟨id, .failed cause.failure⟩ ∈ (l.act now a).2.replies := by
      rw [heffect]
      exact List.mem_map.mpr ⟨id, hid, rfl⟩
    rw [passes.replies]
    refine List.mem_filter.mpr ⟨mem_replies_passing.mpr ⟨l, a, performs, hreply⟩, ?_⟩
    simpa using hheard

/-! ## A session without an engine -/

section
variable (stopped : s.link.phase = .stopped cause)
include stopped

theorem link_of_stopped (events : List (Instant × Event)) : (run events s).1.link = s.link := by
  rw [link_run, Link.run_of_ended stopped]

theorem sent_of_stopped (events : List (Instant × Event)) : (run events s).2.sent = [] := by
  rw [sent_run, Link.run_of_ended stopped]

theorem isOpen_of_stopped : s.isOpen = false := by
  rw [isOpen, Link.isAlive_of_stopped stopped, Bool.and_false]

theorem setTarget_of_stopped (now : Instant) (target : Address) :
    s.setTarget target = .error .engineStopped ∧ s.step now (.setTarget target) = (s, .none) := by
  have hrefused : s.setTarget target = .error .engineStopped := by
    simp only [setTarget, stopped]
  exact ⟨hrefused, by simp only [step, hrefused]⟩

theorem ask_of_stopped {request : Request} {call : Call} (accepted : s.call? request = some call)
    (heard : id ∉ s.givenUp) (now : Instant) :
    (s.ask now id request).2 = .reply id (.failed .engineStopped) := by
  have hpassing : s.passing now (.ask id request) =
      (s.link, ⟨[⟨id, .failed .engineStopped⟩], []⟩) := by
    simp only [passing, passed, accepted]
    exact Link.run_of_ended stopped _
  rcases step_cases now (.ask id request) s with ⟨_, _, reason, heq, no, -⟩ | heq | ⟨-, passes⟩
  · cases heq
    rw [accepted] at no
    cases no
  · cases heq
  · have hreplies : (s.ask now id request).2.replies = _ := passes.replies
    have hsent : (s.ask now id request).2.sent = _ := passes.sent
    rw [hpassing] at hreplies hsent
    calc (s.ask now id request).2
      _ = ⟨(s.ask now id request).2.replies, (s.ask now id request).2.sent⟩ := rfl
      _ = .reply id (.failed .engineStopped) := by
        rw [hreplies, hsent]
        simp [Effect.reply, heard]

end

theorem call?_of_admissible {source target : Address} {settings : Settings}
    (events : List (Instant × Event)) {request : Request}
    (admissible : request.Admissible settings) :
    ∃ call, (run events (opened source target settings)).1.call? request = some call := by
  cases request with
  | activate type => exact ⟨_, rfl⟩
  | receive timeout => exact ⟨_, rfl⟩
  | send data timeout =>
    refine ⟨_, if_neg ?_⟩
    rw [tuning_run]
    exact Nat.not_lt.mpr admissible
  | collect timeout =>
    cases timeout with
    | none => exact admissible.elim
    | some window =>
      simp only [Request.Admissible] at admissible
      obtain ⟨sum, hsum⟩ : ∃ sum, window.add? settings.multiResponseGrace = some sum :=
        Duration.exists_add? ((Nat.le_add_right _ _).trans admissible)
      rw [← Duration.nanos_of_add? hsum] at admissible
      obtain ⟨bound, hadd⟩ := Duration.exists_add? admissible
      have hbound : (run events (opened source target settings)).1.bound? window = some bound := by
        rw [bound?_run]
        exact Option.bind_eq_some_iff.mpr ⟨sum, hsum, hadd⟩
      refine ⟨.collect window, ?_⟩
      rw [call?, hbound, Option.map_some]

/-! ## Closing once more -/

/-- What callers see of a session at once, without a call to the engine. -/
def view (s : Session) : Bool × Address × Address × String × (Address → Except Failure Unit) :=
  (s.isOpen, s.source, s.target, s.text, fun target => (s.setTarget target).map fun _ => ())

/-- No caller and no gateway can ever tell one session from the other. -/
def Alike (s s' : Session) : Prop :=
  ∀ events, (run events s).2 = (run events s').2 ∧ (run events s).1.view = (run events s').1.view

/-- What a session does does not depend on whether routing is active. -/
theorem step_activated (now : Instant) (event : Event) (s : Session) (b : Bool) :
    ∃ b', step now event { s with activated := b } =
      ({ (s.step now event).1 with activated := b' }, (s.step now event).2) := by
  cases event with
  | ask id request =>
    cases request with
    | activate type => exact ⟨_, rfl⟩
    | receive timeout => exact ⟨_, rfl⟩
    | send data timeout =>
      simp only [step, ask, send]
      split
      · exact ⟨b, rfl⟩
      · exact ⟨_, rfl⟩
    | collect timeout =>
      cases timeout with
      | none => exact ⟨b, rfl⟩
      | some window =>
        simp only [step, ask, collect]
        split
        · exact ⟨b, rfl⟩
        · exact ⟨_, rfl⟩
  | setTarget target =>
    simp only [step, setTarget]
    cases s.link.phase with
    | running e => exact ⟨b, rfl⟩
    | stopped cause => exact ⟨b, rfl⟩
  | close => exact ⟨(s.close now).1.activated, rfl⟩
  | shutdown => exact ⟨(s.shutdown now).1.activated, rfl⟩
  | losePatience => exact ⟨b, rfl⟩
  | take => exact ⟨_, rfl⟩
  | read octets => exact ⟨_, rfl⟩
  | readFailed text => exact ⟨_, rfl⟩
  | deadline => exact ⟨_, rfl⟩

theorem run_activated (events : List (Instant × Event)) (s : Session) (b : Bool) :
    ∃ b', run events { s with activated := b } =
      ({ (run events s).1 with activated := b' }, (run events s).2) := by
  induction events generalizing s b with
  | nil => exact ⟨b, rfl⟩
  | cons x events ih =>
    obtain ⟨now, event⟩ := x
    obtain ⟨b', hstep⟩ := step_activated now event s b
    obtain ⟨b'', hrest⟩ := ih (s.step now event).1 b'
    refine ⟨b'', ?_⟩
    simp only [run, hstep, hrest]

theorem text_congr (link : s'.link = s.link) (isOpen : s'.isOpen = s.isOpen) :
    s'.text = s.text := by
  unfold text source target
  rw [link, isOpen]

theorem view_activated (stopped : s.link.phase = .stopped cause) (b : Bool) :
    view { s with activated := b } = s.view := by
  have hopen : isOpen { s with activated := b } = s.isOpen := by
    rw [isOpen_of_stopped stopped]
    exact isOpen_of_stopped stopped
  have htext : text { s with activated := b } = s.text := text_congr rfl hopen
  unfold view
  rw [hopen, htext]
  simp only [source, target, setTarget, stopped]

theorem alike_of_stopped (stopped : s.link.phase = .stopped cause) (b : Bool) :
    Alike s { s with activated := b } := by
  intro events
  obtain ⟨b', hrun⟩ := run_activated events s b
  have hlink : (run events s).1.link.phase = .stopped cause := by
    rw [link_of_stopped stopped]
    exact stopped
  rw [hrun]
  exact ⟨rfl, (view_activated hlink b').symm⟩

/-- To shut down a stopped session, or to close it, only makes sure that it is not active. -/
theorem close_of_stopped (stopped : s.link.phase = .stopped cause) (idle : s.link.queue = [])
    (now : Instant) :
    s.step now .shutdown = ({ s with activated := false }, .none) ∧
      s.step now .close = ({ s with activated := false }, .none) := by
  have hpass : ∀ event, event = .requestShutdown ∨ event = .abort →
      passOn now event { s with activated := false } = ({ s with activated := false }, .none) := by
    rintro event (rfl | rfl)
    all_goals
      simp only [passOn, Link.step, stopped]
      exact deliver_none _
  have hshutdown : s.step now .shutdown = ({ s with activated := false }, .none) :=
    hpass _ (.inl rfl)
  have hbegin : s.beginClose now = ({ s with activated := false }, .none) := by
    unfold beginClose
    split
    · exact hpass _ (.inr rfl)
    · exact hshutdown
  refine ⟨hshutdown, ?_⟩
  simp only [step, close, hbegin, takeAll, idle, List.length_nil, takeCommands]
  rfl

/-! ## The end of a session's engine -/

/-- What holds of a session whose engine has stopped while the target was `target`. Up to now the
calls `past` have been made and `effect` is what the session has done. -/
structure Over (settings : Settings) (target : Address) (past : List CallId) (s : Session)
    (effect : Effect) : Prop where
  isOpen : s.isOpen = false
  target : s.target = target
  fixed : ∀ now address, s.setTarget address = .error .engineStopped ∧
    s.step now (.setTarget address) = (s, .none)
  refuses : ∀ now id (request : Request), request.Admissible settings → id ∉ past →
    (s.ask now id request).2 = .reply id (.failed .engineStopped)
  /-- No call is left. -/
  idle : s.held = [] ∧ s.patience = []
  answered : ∀ id ∈ past, effect.answered.count id = 1
  closed : ∀ now, ∀ event ∈ [Event.shutdown, .close],
    (s.step now event).2 = .none ∧ Alike s (s.step now event).1

theorem queue_of_stopped {source target : Address} {settings : Settings}
    (events : List (Instant × Event))
    (h : (run events (opened source target settings)).1.link.phase = .stopped cause) :
    (run events (opened source target settings)).1.link.queue = [] := by
  rw [← link_actAll] at h ⊢
  refine Link.queue_of_stopped _ _ ?_ cause h
  intro cause hstop
  cases hstop

theorem over_of_stopped {source target : Address} {settings : Settings}
    {events : List (Instant × Event)} (distinct : (asked events).Nodup)
    (stopped : (run events (opened source target settings)).1.link.phase = .stopped cause) :
    Over settings (run events (opened source target settings)).1.target (asked events)
      (run events (opened source target settings)).1
      (run events (opened source target settings)).2 := by
  have hserved := served_run source target settings events distinct
  have hqueue := queue_of_stopped events stopped
  have hheld : (run events (opened source target settings)).1.held = [] := by
    rw [held, hqueue, Link.engine_of_stopped stopped]
    rfl
  have hpending : (run events (opened source target settings)).1.pending = [] := by
    rw [pending, hheld]
    rfl
  refine ⟨isOpen_of_stopped stopped, rfl, setTarget_of_stopped stopped, ?_, ⟨hheld, ?_⟩, ?_, ?_⟩
  · intro now id request admissible hnew
    obtain ⟨call, hcall⟩ :
        ∃ call, (run events (opened source target settings)).1.call? request = some call :=
      call?_of_admissible events admissible
    exact ask_of_stopped stopped hcall (fun hgone => hnew (hserved.mem_past (.inr hgone))) now
  · refine List.eq_nil_iff_forall_not_mem.mpr fun p hp => ?_
    have hwaits := hserved.patient p hp
    rw [hpending] at hwaits
    cases hwaits
  · intro id hid
    have hcount := hserved.settled.count_eq id
    rw [hpending, List.append_nil] at hcount
    rw [← hcount]
    exact List.count_eq_one_of_mem distinct hid
  · intro now event hevent
    obtain ⟨hshutdown, hclose⟩ := close_of_stopped stopped hqueue now
    have hstep : (run events (opened source target settings)).1.step now event =
        ({ (run events (opened source target settings)).1 with activated := false }, .none) := by
      rcases List.mem_pair.mp hevent with rfl | rfl
      · exact hshutdown
      · exact hclose
    rw [hstep]
    exact ⟨rfl, alike_of_stopped stopped false⟩

/-- The engine stops at `event`. -/
structure Ending where
  earlier : List (Instant × Event)
  now : Instant
  event : Event
  later : List (Instant × Event)

namespace Ending

def events (x : Ending) : List (Instant × Event) := x.earlier ++ (x.now, x.event) :: x.later

/-- The session that the event finds, and the one that it leaves. -/
def before (x : Ending) (start : Session) : Session := (run x.earlier start).1

def after (x : Ending) (start : Session) : Session := ((x.before start).step x.now x.event).1

structure Stops (x : Ending) (start : Session) (cause : Stop) : Prop where
  distinct : (asked x.events).Nodup
  alive : (x.before start).link.isAlive = true
  dead : (x.after start).link.phase = .stopped cause

/-- Every call that waits or is queued when the engine stops has the cause as its only answer, now
and later, unless its caller has given up before. -/
def Reported (x : Ending) (start : Session) (cause : Stop) : Prop :=
  ∃ l a, Performs x.now x.event (x.before start) l a ∧ l.isAlive = true ∧
    (l.act x.now a).1.phase = .stopped cause ∧
    ∀ id ∈ l.engine.waiting ++ Link.queuedIn l.queue, id ∉ (x.before start).givenUp →
      (run x.events start).2.replies.filter (·.call = id) = [⟨id, .failed cause.failure⟩]

theorem run_events (x : Ending) (start : Session) :
    run x.events start = ((run x.later (x.after start)).1,
      (run x.earlier start).2 ++ (((x.before start).step x.now x.event).2 ++
        (run x.later (x.after start)).2)) := by
  rw [events, run_append]
  rfl

theorem Stops.reported {x : Ending} {source target : Address} {settings : Settings}
    (h : x.Stops (opened source target settings) cause) :
    x.Reported (opened source target settings) cause := by
  obtain ⟨l, a, performs, running, stops, hreplies⟩ := mem_replies_of_stop h.alive h.dead
  refine ⟨l, a, performs, running, stops, fun id hid hheard => ?_⟩
  have hserved := served_run source target settings x.events h.distinct
  have honce := (List.nodup_append.mp (hserved.settled.nodup_iff.mp h.distinct)).1
  have hmem : ⟨id, .failed cause.failure⟩ ∈
      (run x.events (opened source target settings)).2.replies := by
    rw [run_events]
    simp only [Effect.replies_append, List.mem_append]
    exact .inr (.inl (hreplies id hid hheard))
  exact Effect.filter_call_of_nodup honce hmem

end Ending

/-- An event stops a link for the cause that `cause?` names, and the act that does it fails with
this cause whatever waits or is queued. After that the link only refuses calls. In a session every
caller gets to know, and from then on the session is over. -/
theorem stopping_is_final (source target : Address) (settings : Settings) :
    (∀ (l : Link) (now : Instant) (event : Link.Event) (cause : Stop), l.isAlive = true →
      ((l.step now event).1.phase = .stopped cause ↔ l.cause? event = some cause)) ∧
    (∀ (l : Link) (now : Instant) (a : Link.Act) (cause : Stop), l.isAlive = true →
      (l.act now a).1.phase = .stopped cause → (l.act now a).2 = ⟨l.failures cause.failure, []⟩) ∧
    (∀ (l : Link) (events : List (Instant × Link.Event)) (cause : Stop),
      l.phase = .stopped cause → Link.run events l = (l, ⟨Link.refusals events, []⟩)) ∧
    ∀ (x : Ending) (cause : Stop), x.Stops (opened source target settings) cause →
      x.Reported (opened source target settings) cause ∧
      (run x.later (x.after (opened source target settings))).2.sent = [] ∧
      Over settings (x.after (opened source target settings)).target (asked x.events)
        (run x.events (opened source target settings)).1
        (run x.events (opened source target settings)).2 := by
  refine ⟨?_, ?_, ?_, ?_⟩
  · intro l now event cause alive
    exact Link.stops_iff_cause? alive now event cause
  · intro l now a cause alive dead
    exact ((Link.step_act now a l).ends alive dead).1
  · intro l events cause stopped
    exact Link.run_of_ended stopped events
  · intro x cause h
    refine ⟨h.reported, sent_of_stopped h.dead x.later, ?_⟩
    have hlink := link_of_stopped h.dead x.later
    have hend : (run x.events (opened source target settings)).1 =
        (run x.later (x.after (opened source target settings))).1 := by rw [x.run_events]
    have htarget : (run x.events (opened source target settings)).1.target =
        (x.after (opened source target settings)).target := by
      rw [hend]
      exact congrArg Link.target hlink
    have hstopped : (run x.events (opened source target settings)).1.link.phase =
        .stopped cause := by
      rw [hend, hlink]
      exact h.dead
    rw [← htarget]
    exact over_of_stopped h.distinct hstopped

/-- Calls of all kinds wait and one is queued when the engine reads an acknowledgement and then
octets that are no header. -/
def brokenOff : Ending where
  earlier := [(0, .ask 1 (.activate .default)), (0, .take), (1, .ask 2 (.send [0x3E] none)),
    (1, .take), (2, .ask 3 (.receive none)), (2, .take),
    (3, .ask 4 (.collect (some (.ofMillis 10)))), (3, .take), (4, .ask 5 (.receive none))]
  now := 5
  event := .read [0x02, 0xFD, 0x80, 0x02, 0, 0, 0, 5, 0x06, 0x80, 0x0E, 0x00, 0x00,
    0x02, 0xFC, 0x80, 0x01, 0, 0, 0, 0]
  later := [(6, .ask 6 (.send [0x3E] none)), (7, .setTarget 0x0690), (8, .take), (9, .close),
    (10, .ask 7 (.receive none))]

theorem brokenOff_stops : brokenOff.Stops (opened 0x0E00 0x0680 {})
    (.parse "Invalid protocol version pattern: 0x02/0xFC") :=
  ⟨by decide, by decide +kernel, by decide +kernel⟩

theorem brokenOff_over :
    (brokenOff.before (opened 0x0E00 0x0680 {})).link.cause?
        (.read [0x02, 0xFC, 0, 0, 0, 0, 0, 0]) =
        some (.parse "Invalid protocol version pattern: 0x02/0xFC") ∧
      Link.run [(11, .request 8 (.receive none))] (brokenOff.after (opened 0x0E00 0x0680 {})).link =
        ((brokenOff.after (opened 0x0E00 0x0680 {})).link,
          ⟨[⟨8, .failed (.connectFailed "background engine is not running")⟩], []⟩) ∧
      brokenOff.Reported (opened 0x0E00 0x0680 {})
        (.parse "Invalid protocol version pattern: 0x02/0xFC") ∧
      Over {} 0x0680 [1, 2, 3, 4, 5, 6, 7] (run brokenOff.events (opened 0x0E00 0x0680 {})).1
        (run brokenOff.events (opened 0x0E00 0x0680 {})).2 := by
  obtain ⟨causes, -, ended, closed⟩ := stopping_is_final 0x0E00 0x0680 {}
  refine ⟨?_, ended _ [(11, .request 8 (.receive none))] _ brokenOff_stops.dead, ?_, ?_⟩
  · exact (causes _ 5 _ _ brokenOff_stops.alive).mp (by decide +kernel)
  · exact (closed brokenOff _ brokenOff_stops).1
  · have target : (brokenOff.after (opened 0x0E00 0x0680 {})).target = 0x0680 := by decide +kernel
    have hover := (closed brokenOff _ brokenOff_stops).2.2
    rw [target] at hover
    exact hover

/-- Whoever waits gets to know the cause, and only the acknowledged send has ended well. -/
example : (run brokenOff.events (opened 0x0E00 0x0680 {})).2.replies =
    let gone : Answer := .failed (.parse "Invalid protocol version pattern: 0x02/0xFC")
    [⟨2, .acknowledged⟩, ⟨1, gone⟩, ⟨3, gone⟩, ⟨4, gone⟩, ⟨5, gone⟩,
      ⟨6, .failed .engineStopped⟩, ⟨7, .failed .engineStopped⟩] := by
  decide +kernel

end Session
end Doip
