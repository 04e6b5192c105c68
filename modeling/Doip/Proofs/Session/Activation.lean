import Doip.Proofs.Session.Output
import Doip.Proofs.Session.Stopping

/-! # A session is open only behind an activation

The verdict of the gateway ends the activation that waits, and nothing else gives it an answer of
that kind (`Turn.verdict`). A success sets a flag that the session keeps; no later activation
takes it away, whatever becomes of it, but closing does. So a session is open exactly if one of
its activations has been granted, nobody has closed it since, and its engine runs
(`open_behind_activation`). -/
namespace Doip

/-- What a routing activation response says to the tester `source`. -/
inductive Verdict (source : Address) (r : ActivationResponse) : Answer → Prop where
  | granted (code : r.code.value = 0x10 ∨ r.code.value = 0x11) (own : r.tester = source) :
      Verdict source r .activated
  /-- Somebody else's activation. -/
  | foreign (code : r.code.value = 0x10 ∨ r.code.value = 0x11) (other : r.tester ≠ source) :
      Verdict source r (.failed (.activationMismatch source r.tester))
  | denied (code : ¬(r.code.value = 0x10 ∨ r.code.value = 0x11)) :
      Verdict source r (.failed (.activationDenied r.code))

/-- The answers that are verdicts on an activation. -/
def Answer.isVerdict : Answer → Bool
  | .activated | .failed (.activationDenied _) | .failed (.activationMismatch _ _) => true
  | _ => false

theorem ActivationCode.isSuccess_iff (code : ActivationCode) :
    code.isSuccess = true ↔ code.value = 0x10 ∨ code.value = 0x11 := by
  simp [isSuccess]

namespace Engine

variable {t : Tuning} {target : Address} {now : Instant} {e e' : Engine} {input : Input}
  {effect : Effect}

theorem verdict_iff {r : ActivationResponse} {answer : Answer} :
    Verdict t.source r answer ↔ answer = activationAnswer t r := by
  have hsuccess := r.code.isSuccess_iff
  unfold activationAnswer
  constructor
  · rintro (⟨code, own⟩ | ⟨code, other⟩ | ⟨code⟩)
    · simp [hsuccess.mpr code, own]
    · simp [hsuccess.mpr code, other]
    · simp [Bool.eq_false_iff.mpr (mt hsuccess.mp code)]
  · rintro rfl
    by_cases code : r.code.isSuccess = true
    · by_cases own : r.tester = t.source
      · simpa [code, own] using Verdict.granted (hsuccess.mp code) own
      · simpa [code, own] using Verdict.foreign (hsuccess.mp code) own
    · simpa [code] using Verdict.denied (mt hsuccess.mpr code)

/-- Only a routing activation response gives a verdict, and to the activation that waits. -/
theorem Turn.verdict (h : Turn t target now e input e' effect) {reply : Reply}
    (hr : reply ∈ effect.replies) (hv : reply.answer.isVerdict = true) :
    ∃ f r wait, input = .dispatch f ∧ f.message = .ok (.activationResponse r) ∧
      e.activation = some wait ∧ wait.call = reply.call ∧ Verdict t.source r reply.answer := by
  cases h with
  | @activationAnswered f r wait message waits =>
    rw [List.mem_singleton.mp hr]
    exact ⟨f, r, wait, rfl, message, waits, rfl, verdict_iff.mpr rfl⟩
  | sendSettled message settles =>
    rw [List.mem_singleton.mp hr] at hv
    cases settles <;> cases hv
  | expired =>
    simp only [expire, List.mem_append, List.mem_map, timedOut] at hr
    obtain ((⟨w, -, rfl⟩ | ⟨w, -, rfl⟩) | ⟨w, -, rfl⟩) | ⟨c, -, rfl⟩ := hr
    all_goals cases hv
  | activationStarted | sent | waited | collectionOpened | skipped | aliveAnswered | extended
  | remembered | gathered | kept | refilled => cases hr
  | _ =>
    rw [List.mem_singleton.mp hr] at hv
    cases hv

end Engine

namespace Link

variable {now : Instant} {l l' : Link} {a : Act} {effect : Effect} {id : CallId}

/-- At the act `a` a routing activation response arrives, and the activation `id` waits for it. -/
structure Answers (l : Link) (a : Act) (id : CallId) (r : ActivationResponse) : Prop where
  waits : l.engine.waits .activation = [id]
  response : ∃ f, a = .dispatch f ∧ f.message = .ok (.activationResponse r)

/-- An activation waits, and the engine is about to take the next one. -/
structure Busy (l : Link) (id : CallId) (type : ActivationType) : Prop where
  waits : l.engine.waits .activation ≠ []
  head : l.queue.head? = some (.call id (.activate type))

theorem activation_of_waits (h : l.engine.waits .activation = [id]) :
    ∃ e wait, l.phase = .running e ∧ e.activation = some wait ∧ wait.call = id := by
  cases hp : l.phase with
  | running e =>
    rw [engine_of_running hp] at h
    cases ha : e.activation with
    | none => simp [Engine.waits, ha] at h
    | some wait => exact ⟨e, wait, rfl, ha, by simpa [Engine.waits, ha] using h⟩
  | stopped cause =>
    rw [engine_of_stopped hp] at h
    cases h

/-- The second activation fails, and nothing else happens: the first one waits on as before. -/
theorem act_of_busy {type : ActivationType} (h : l.Busy id type) (now : Instant) :
    l.act now .take = ({ l with queue := l.queue.tail },
      .reply id (.failed (.invalidArgument "routing activation already in progress"))) := by
  obtain ⟨tuning, target, queue, phase⟩ := l
  obtain ⟨hwaits, hhead⟩ := h
  obtain ⟨rest, rfl⟩ := List.head?_eq_some_iff.mp hhead
  cases phase with
  | stopped cause => exact absurd rfl hwaits
  | running e =>
    cases ha : e.activation with
    | none => exact absurd (by simp [engine, Engine.waits, ha]) hwaits
    | some wait =>
      simp [act, actRunning, takeCommand, Engine.start, Engine.startActivation, ha]

theorem Step.verdict (h : Step now l a l' effect) {reply : Reply} (hr : reply ∈ effect.replies)
    (hv : reply.answer.isVerdict = true) :
    ∃ r, Answers l a reply.call r ∧ Verdict l.tuning.source r reply.answer := by
  have hstop : ∀ {cause : Stop} {e : Engine} {queue : List Command},
      reply ∉ e.failAll cause.failure ++ failQueued cause.failure queue := by
    intro cause e queue hmem
    rw [answer_of_stop hmem] at hv
    cases cause <;> cases hv
  cases h with
  | refused =>
    rw [List.mem_singleton.mp hr] at hv
    cases hv
  | taken alive head turn =>
    obtain ⟨f, r, wait, hinput, -⟩ := turn.verdict hr hv
    cases hinput
  | worked alive input_eq turn =>
    obtain ⟨f, r, wait, rfl, message, waits, hcall, verdict⟩ := turn.verdict hr hv
    have ha : a = .dispatch f := by
      cases a <;> cases input_eq
      rfl
    refine ⟨r, ⟨?_, f, ha, message⟩, verdict⟩
    simp [engine_of_running alive, Engine.waits, waits, hcall]
  | stopped | shutDown => exact absurd hr hstop
  | requested | shutdownRequested | retargeted | idle | ended => cases hr

/-- The verdict of a response is the answer of the activation that waits for it. -/
theorem Answers.effect_eq {r : ActivationResponse} (h : Answers l a id r) {answer : Answer}
    (verdict : Verdict l.tuning.source r answer) (now : Instant) :
    (l.act now a).2 = .reply id answer := by
  obtain ⟨hwaits, f, rfl, message⟩ := h
  obtain ⟨e, wait, alive, ha, rfl⟩ := activation_of_waits hwaits
  simp [act, alive, actRunning, work, Engine.handle, Engine.dispatch, message,
    Engine.onActivationResponse, ha, Engine.verdict_iff.mp verdict]

/-- An activation gets a verdict exactly if it waits when the response arrives that says so. -/
theorem verdict_iff_answers {answer : Answer} (hv : answer.isVerdict = true) :
    ⟨id, answer⟩ ∈ (l.act now a).2.replies ↔
      ∃ r, Answers l a id r ∧ Verdict l.tuning.source r answer := by
  constructor
  · intro hr
    exact (step_act now a l).verdict hr hv
  · rintro ⟨r, answers, verdict⟩
    rw [answers.effect_eq verdict now]
    exact List.mem_singleton_self _

/-- Of the activations that are taken one at most waits. -/
theorem waits_alone {t : Tuning} {target : Address} {past : List (Instant × Act)}
    (distinct : (issued past).Nodup) {other : CallId}
    (hid : id ∈ takenOf .activation past (opened t target))
    (hother : other ∈ takenOf .activation past (opened t target))
    (waits : id ∉ (actAll past (opened t target)).2.answered)
    (otherWaits : other ∉ (actAll past (opened t target)).2.answered) : id = other := by
  have hwaits : ∀ id ∈ takenOf .activation past (opened t target),
      id ∉ (actAll past (opened t target)).2.answered →
      id ∈ (actAll past (opened t target)).1.engine.activation.toList.map (·.call) := by
    intro id hid hopen
    obtain ⟨⟨id', call⟩, hcall, rfl⟩ := List.mem_map.mp hid
    obtain ⟨htaken, hkind⟩ := List.mem_filter.mp hcall
    have hkind : call.kind = .activation := by simpa using hkind
    rcases placed_of_taken rfl distinct htaken with ⟨hdone, -⟩ | ⟨-, hplace, -⟩
    · exact absurd hdone hopen
    · rw [hkind] at hplace
      exact hplace
  have hone := hwaits id hid waits
  have htwo := hwaits other hother otherWaits
  -- there is room for one
  cases ha : (actAll past (opened t target)).1.engine.activation with
  | none => simp [ha] at hone
  | some wait =>
    simp only [ha, Option.toList_some, List.map_cons, List.map_nil, List.mem_singleton] at hone htwo
    rw [hone, htwo]

end Link

namespace Session

variable {now : Instant} {event : Event} {s : Session} {id : CallId}

/-! ## The flag -/

/-- Whether callers end the session with this event. -/
def Event.closes : Event → Bool
  | .shutdown | .close => true
  | _ => false

/-- Nobody ends the session. -/
def Unclosed (events : List (Instant × Event)) : Prop := ∀ x ∈ events, x.2.closes = false

instance (events : List (Instant × Event)) : Decidable (Unclosed events) :=
  inferInstanceAs (Decidable (∀ x ∈ events, x.2.closes = false))

/-- At this event an activation succeeds. -/
def Succeeds (now : Instant) (event : Event) (s : Session) : Prop :=
  ∃ id, ⟨id, .activated⟩ ∈ (s.step now event).2.replies

/-- In a run an activation has succeeded, and nobody has ended the session since. -/
def Activated (events : List (Instant × Event)) (start : Session) : Prop :=
  ∃ earlier now event later, events = earlier ++ (now, event) :: later ∧
    Succeeds now event (run earlier start).1 ∧ Unclosed later

theorem flag_deliver (s : Session) (effect : Effect) :
    (s.deliver effect).1.activated = true ↔
      s.activated = true ∨ ∃ id, ⟨id, .activated⟩ ∈ (s.deliver effect).2.replies := by
  simp only [deliver, Bool.or_eq_true, List.any_eq_true, decide_eq_true_eq]
  refine or_congr_right ⟨?_, ?_⟩
  · rintro ⟨⟨id, answer⟩, hr, rfl⟩
    exact ⟨id, hr⟩
  · rintro ⟨id, hr⟩
    exact ⟨_, hr, rfl⟩

theorem flag_refuse (id : CallId) (failure : Failure) (s : Session) :
    (s.refuse id failure).1.activated = true ↔
      s.activated = true ∨ ∃ id', ⟨id', .activated⟩ ∈ (s.refuse id failure).2.replies := by
  simp [refuse, Effect.reply]

theorem flag_ask (now : Instant) (id : CallId) (request : Request) (s : Session) :
    (s.ask now id request).1.activated = true ↔
      s.activated = true ∨ ∃ id', ⟨id', .activated⟩ ∈ (s.ask now id request).2.replies := by
  cases request with
  | activate type => exact flag_deliver _ _
  | receive timeout => exact flag_deliver _ _
  | send data timeout =>
    simp only [ask, send]
    split
    · exact flag_refuse _ _ _
    · exact flag_deliver _ _
  | collect timeout =>
    cases timeout with
    | none => exact flag_refuse _ _ _
    | some window =>
      simp only [ask, collect]
      split
      · exact flag_refuse _ _ _
      · exact flag_deliver _ _

/-- A success sets the flag. Otherwise it stays, unless callers end the session. -/
theorem flag_step (now : Instant) (event : Event) (s : Session) :
    (s.step now event).1.activated = true ↔
      (s.activated = true ∧ event.closes = false) ∨ Succeeds now event s := by
  have hkept : event.closes = false → ((s.step now event).1.activated = true ↔
      s.activated = true ∨ Succeeds now event s) → ((s.step now event).1.activated = true ↔
        (s.activated = true ∧ event.closes = false) ∨ Succeeds now event s) := by
    intro hopen h
    rw [h, and_iff_left hopen]
  have hended : ∀ {s' : Session} {effect : Effect}, event.closes = true → s'.activated = false →
      s.step now event = s'.deliver effect → ((s.step now event).1.activated = true ↔
        (s.activated = true ∧ event.closes = false) ∨ Succeeds now event s) := by
    intro s' effect hcloses hflag hstep
    rw [Succeeds, hstep, flag_deliver, hflag, hcloses]
    simp
  cases event with
  | ask id request => exact hkept rfl (flag_ask now id request s)
  | setTarget target =>
    refine hkept rfl ?_
    rw [Succeeds, setTarget_eq]
    exact flag_deliver _ _
  | losePatience => exact hkept rfl (by simp [Succeeds, step, losePatience, Engine.timedOut])
  | take | read | readFailed | deadline => exact hkept rfl (flag_deliver _ _)
  | shutdown => exact hended rfl rfl rfl
  | close => exact hended rfl rfl (close_eq now s)

theorem activated_cons {events : List (Instant × Event)} :
    Activated ((now, event) :: events) s ↔
      (Succeeds now event s ∧ Unclosed events) ∨ Activated events (s.step now event).1 := by
  constructor
  · rintro ⟨earlier, time, b, later, heq, hsucceeds, hopen⟩
    rcases List.cons_eq_append_iff.mp heq with ⟨rfl, hrest⟩ | ⟨rest, rfl, hrest⟩
    · cases hrest
      exact .inl ⟨hsucceeds, hopen⟩
    · exact .inr ⟨rest, time, b, later, hrest, hsucceeds, hopen⟩
  · rintro (⟨hsucceeds, hopen⟩ | ⟨earlier, time, b, later, rfl, hsucceeds, hopen⟩)
    · exact ⟨[], now, event, events, rfl, hsucceeds, hopen⟩
    · exact ⟨(now, event) :: earlier, time, b, later, rfl, hsucceeds, hopen⟩

theorem unclosed_cons {x : Instant × Event} {events : List (Instant × Event)} :
    Unclosed (x :: events) ↔ x.2.closes = false ∧ Unclosed events := List.forall_mem_cons

theorem flag_run (events : List (Instant × Event)) (s : Session) :
    (run events s).1.activated = true ↔
      (s.activated = true ∧ Unclosed events) ∨ Activated events s := by
  induction events generalizing s with
  | nil => simp [run, Unclosed, Activated]
  | cons x events ih =>
    obtain ⟨now, event⟩ := x
    have hrun : (run ((now, event) :: events) s).1 = (run events (s.step now event).1).1 := rfl
    rw [hrun, ih, flag_step, activated_cons, unclosed_cons]
    tauto

/-! ## Where a success comes from -/

/-- The activation `id` is granted at an event: it has been asked for and waits, and the session
reads a routing activation response with a code of success for its own address. -/
def Granted (earlier : List (Instant × Event)) (now : Instant) (event : Event) (start : Session)
    (id : CallId) : Prop :=
  (∃ time type, (time, .ask id (.activate type)) ∈ earlier) ∧
    ∃ octets l f r, event = .read octets ∧
      Performs now event (run earlier start).1 l (.dispatch f) ∧
      l.engine.waits .activation = [id] ∧ f.message = .ok (.activationResponse r) ∧
      (r.code.value = 0x10 ∨ r.code.value = 0x11) ∧ r.tester = start.source

theorem read_of_dispatch {l : Link} {event : Link.Event} {f : Frame}
    (h : .dispatch f ∈ l.acts event) : ∃ octets, event = .read octets := by
  cases event with
  | read octets => exact ⟨octets, rfl⟩
  | _ => cases List.mem_singleton.mp h

theorem read_of_performed {l : Link} {f : Frame} (h : Performs now event s l (.dispatch f)) :
    ∃ octets, event = .read octets := by
  obtain ⟨before, hpart, -⟩ := h
  have hmem : (now, .dispatch f) ∈ history [(now, event)] s := hpart.subset (by simp)
  obtain ⟨first, passed, others, hpassed, hacts⟩ := Link.mem_history hmem
  obtain ⟨octets, rfl⟩ := read_of_dispatch hacts
  have hread : .read octets ∈ s.passed now event := by
    have hall : (now, .read octets) ∈ passedAll [(now, event)] s := by
      rw [hpassed]
      exact List.mem_append_right _ List.mem_cons_self
    simpa [passedAll] using hall
  cases event with
  | read octets => exact ⟨octets, rfl⟩
  | close => rcases passed_close hread with h | h | h <;> cases h
  | ask id request =>
    obtain ⟨call, -, hcall⟩ := List.mem_map.mp hread
    cases hcall
  | _ => simp [Session.passed] at hread

/-- What the link has done in a run when an event makes it perform an act. -/
theorem past_of_performed {earlier : List (Instant × Event)} {l : Link} {a : Link.Act}
    (h : Performs now event (run earlier s).1 l a) :
    ∃ past, past <+: history (earlier ++ [(now, event)]) s ∧ (Link.actAll past s.link).1 = l := by
  obtain ⟨before, hpart, rfl⟩ := h
  refine ⟨history earlier s ++ before, ?_, ?_⟩
  · rw [history_append]
    exact (List.prefix_append_right_inj _).mpr ((List.prefix_append _ _).trans hpart)
  · rw [Link.actAll_append, link_actAll]

theorem performs_of_activated (h : ⟨id, .activated⟩ ∈ (s.step now event).2.replies) :
    ∃ l a r, Performs now event s l a ∧ l.Answers a id r ∧
      Verdict l.tuning.source r .activated := by
  rcases step_cases now event s with ⟨_, _, _, rfl, -, hstep⟩ | rfl | ⟨-, passes⟩
  · rw [hstep] at h
    cases List.mem_singleton.mp h
  · obtain ⟨p, -, hp⟩ := List.mem_map.mp h
    cases hp
  · rw [passes.replies] at h
    obtain ⟨l, a, performs, hr⟩ := mem_replies_passing.mp (List.mem_filter.mp h).1
    obtain ⟨r, answers, verdict⟩ := (Link.verdict_iff_answers rfl).mp hr
    exact ⟨l, a, r, performs, answers, verdict⟩

section
variable {source target : Address} {settings : Settings} {earlier events : List (Instant × Event)}

/-- Whoever waits for an activation has asked for it. -/
theorem asked_of_waits {past : List (Instant × Link.Act)}
    (part : past <+: history events (opened source target settings))
    (h : id ∈ (Link.actAll past (opened source target settings).link).1.engine.waits .activation) :
    ∃ time type, (time, .ask id (.activate type)) ∈ events := by
  obtain ⟨call, htaken, hkind⟩ := Link.taken_of_waits rfl h
  obtain ⟨first, time, request, others, rfl, hcall⟩ := ask_of_taken rfl part htaken
  cases call with
  | activate type =>
    obtain rfl := request_of_activate hcall
    exact ⟨time, type, List.mem_append_right _ List.mem_cons_self⟩
  | _ => cases hkind

theorem granted_of_activated (h : ⟨id, .activated⟩ ∈
    ((run earlier (opened source target settings)).1.step now event).2.replies) :
    Granted earlier now event (opened source target settings) id := by
  obtain ⟨l, a, r, performs, ⟨hwaits, f, rfl, message⟩, verdict⟩ := performs_of_activated h
  obtain ⟨octets, rfl⟩ := read_of_performed performs
  obtain ⟨past, hpart, rfl⟩ := past_of_performed performs
  have hmem := hwaits ▸ List.mem_singleton_self id
  obtain ⟨time, type, hask⟩ := asked_of_waits hpart hmem
  rw [Link.tuning_actAll] at verdict
  obtain ⟨code, own⟩ := verdict
  refine ⟨⟨time, type, ?_⟩, octets, _, f, r, rfl, performs, hwaits, message, code, own⟩
  simpa using hask

theorem distinct_of_asked (distinct : (asked events).Nodup) {past : List (Instant × Link.Act)}
    (part : past <+: history events (opened source target settings)) :
    (Link.issued past).Nodup := by
  refine Link.distinct_of_prefix part ?_
  rw [history, Link.issued_history]
  exact (requested_sublist events (opened source target settings)).nodup distinct

/-- The caller of an activation never gives up, and hears what the link answers. -/
theorem hears_activation {type : ActivationType} (distinct : (asked events).Nodup)
    (h : (now, .ask id (.activate type)) ∈ events) :
    Hears id events (opened source target settings) := by
  obtain ⟨first, others, rfl⟩ := List.append_of_mem h
  rw [asked_append] at distinct
  have hfirst : id ∉ asked first := by
    intro hmem
    exact (List.nodup_append.mp distinct).2.2 id hmem id List.mem_cons_self rfl
  have hothers : id ∉ asked others := by
    have hnodup := (List.nodup_append.mp distinct).2.1
    exact (List.nodup_cons.mp hnodup).1
  have hstart : Awaited id (fun _ => False) (opened source target settings) :=
    ⟨List.not_mem_nil, fun _ hp => by cases hp⟩
  obtain ⟨hasks, hearsFirst⟩ := hstart.run first _ hfirst fun _ _ _ _ hnever => hnever.elim
  obtain ⟨hwaits, hreplies⟩ := (step_step now (.ask id (.activate type)) _).awaited hasks
    (fun request he => by cases he; simp [call?]) (fun _ hp => by cases hp)
    (fun he => by cases he)
  obtain ⟨-, hearsOthers⟩ := hwaits.run others _ hothers fun _ _ _ _ hnever => hnever.elim
  have hearsNow : Hears id [(now, .ask id (.activate type))]
      (run first (opened source target settings)).1 := hears_single hreplies
  exact hears_append hearsFirst (hears_append hearsNow hearsOthers)

end

/-! ## Open sessions -/

theorem isOpen_iff {s : Session} :
    s.isOpen = true ↔ s.link.isAlive = true ∧ s.activated = true := by
  rw [isOpen, Bool.and_eq_true, and_comm]

theorem isOpen_run (events : List (Instant × Event)) (s : Session) :
    (run events s).1.isOpen = true ↔ (run events s).1.link.isAlive = true ∧
      ((s.activated = true ∧ Unclosed events) ∨ Activated events s) := by
  rw [isOpen_iff, flag_run]

/-- What the activations of a run make of the session. -/
structure Guarded (events : List (Instant × Event)) (start : Session) : Prop where
  /-- Of the activations that the engine has taken one at most has no answer. -/
  alone : ∀ past, past <+: history events start →
    ∀ id ∈ Link.takenOf .activation past start.link,
      ∀ other ∈ Link.takenOf .activation past start.link,
        id ∉ (Link.actAll past start.link).2.answered →
          other ∉ (Link.actAll past start.link).2.answered → id = other
  heard : ∀ now id type, (now, .ask id (.activate type)) ∈ events → Hears id events start
  granted : ∀ earlier now event later id, events = earlier ++ (now, event) :: later →
    ⟨id, .activated⟩ ∈ ((run earlier start).1.step now event).2.replies →
      Granted earlier now event start id
  isOpen : (run events start).1.isOpen = true ↔
    (run events start).1.link.isAlive = true ∧ Activated events start
  /-- A caller may set the flag later than the engine answers. From then on it counts. -/
  late : ∀ earlier later noted, events = earlier ++ later →
    noted = { (run earlier start).1 with activated := true } →
      ((run later noted).1.isOpen = true ↔
        (run events start).1.link.isAlive = true ∧ (Unclosed later ∨ Activated later noted))

/-- An activation that is taken while another one waits is refused and leaves everything else as
it is. Verdicts come of routing activation responses only, and say what these say. In every run a
session is open exactly as long as its engine runs and nobody has closed it since one of its
activations was granted. -/
theorem open_behind_activation (source target : Address) (settings : Settings) :
    (∀ (l : Link) (now : Instant) (id : CallId) (type : ActivationType), l.Busy id type →
      l.act now .take = ({ l with queue := l.queue.tail },
        .reply id (.failed (.invalidArgument "routing activation already in progress")))) ∧
    (∀ (l : Link) (now : Instant) (a : Link.Act) (id : CallId) (answer : Answer),
      answer.isVerdict = true → (⟨id, answer⟩ ∈ (l.act now a).2.replies ↔
        ∃ r, l.Answers a id r ∧ Verdict l.tuning.source r answer)) ∧
    ∀ events, (asked events).Nodup → Guarded events (opened source target settings) := by
  refine ⟨fun l now id type busy => Link.act_of_busy busy now,
    fun l now a id answer hv => Link.verdict_iff_answers hv, fun events distinct => ?_⟩
  refine ⟨?_, ?_, ?_, ?_, ?_⟩
  · intro past part id hid other hother
    exact Link.waits_alone (distinct_of_asked distinct part) hid hother
  · intro now id type hask
    exact hears_activation distinct hask
  · intro earlier now event later id _ hr
    exact granted_of_activated hr
  · rw [isOpen_run]
    simp [opened]
  · rintro earlier later noted rfl rfl
    obtain ⟨b, hrun⟩ := run_activated later (run earlier (opened source target settings)).1 true
    have hlink : (run later { (run earlier (opened source target settings)).1 with
        activated := true }).1.link =
          (run (earlier ++ later) (opened source target settings)).1.link := by
      rw [hrun, run_append]
    rw [isOpen_run, hlink]
    simp

/-- While an activation waits another one is taken. The first one is granted, and a third one is
denied later. -/
def deniedLaterRun : List (Instant × Event) :=
  [(0, .ask 1 (.activate .default)), (0, .take), (1, .ask 2 (.activate .centralSecurity)),
    (1, .take), (2, .read [0x02, 0xFD, 0x00, 0x06, 0, 0, 0, 9, 0x0E, 0x00, 0x06, 0x80, 0x10, 0, 0,
      0, 0]), (3, .ask 3 (.activate .default)), (3, .take),
    (4, .read [0x02, 0xFD, 0x00, 0x06, 0, 0, 0, 9, 0x0E, 0x00, 0x06, 0x80, 0x06, 0, 0, 0, 0])]

theorem deniedLaterRun_open :
    let start := opened 0x0E00 0x0680 {}
    let busy := (run (deniedLaterRun.take 3) start).1.link
    busy.act 1 .take = ({ busy with queue := busy.queue.tail },
        .reply 2 (.failed (.invalidArgument "routing activation already in progress"))) ∧
      (∃ time type, (time, .ask 1 (.activate type)) ∈ deniedLaterRun.take 4) ∧
      ⟨3, .failed (.activationDenied ⟨0x06⟩)⟩ ∈ (run deniedLaterRun start).2.replies ∧
      (run deniedLaterRun start).1.isOpen = true := by
  intro start busy
  obtain ⟨refused, -, guarded⟩ := open_behind_activation 0x0E00 0x0680 {}
  have hguarded := guarded deniedLaterRun (by decide)
  have hsplit : deniedLaterRun = deniedLaterRun.take 4 ++ (2, .read [0x02, 0xFD, 0x00, 0x06, 0, 0,
      0, 9, 0x0E, 0x00, 0x06, 0x80, 0x10, 0, 0, 0, 0]) :: deniedLaterRun.drop 5 := rfl
  have hgranted := hguarded.granted _ _ _ _ 1 hsplit (by decide +kernel)
  refine ⟨refused _ 1 2 .centralSecurity ⟨by decide +kernel, by decide +kernel⟩, hgranted.1,
    by decide +kernel, hguarded.isOpen.mpr ⟨by decide +kernel, ?_⟩⟩
  exact ⟨_, _, _, _, hsplit, ⟨1, by decide +kernel⟩, by decide⟩

end Session
end Doip
