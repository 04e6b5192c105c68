import Doip.Proofs.Link.Receipts
import Doip.Proofs.Frame.Reassembly

/-! # What a collection returns

A collection starts with the inbox and takes every response that arrives until its deadline,
whatever else waits and whichever target is set (`Turn.collecting`). The deadline of another
collection does not concern it. So the first expiry at its deadline or after it returns exactly
these responses (`gathers_of_opens`). They are parts of what has been read: a frame is
returned as the octets that it took on the wire (`encodeAll_dispatched`). -/
namespace Doip

/-- If no call is answered twice, an answer is the only one to its call. -/
theorem Effect.filter_call_of_nodup {effect : Effect} {r : Reply} (once : effect.answered.Nodup)
    (hr : r ∈ effect.replies) : effect.replies.filter (·.call = r.call) = [r] := by
  obtain ⟨before, after, heq⟩ := List.append_of_mem hr
  have hsplit : effect.answered = before.map (·.call) ++ r.call :: after.map (·.call) := by
    rw [Effect.answered, heq, List.map_append, List.map_cons]
  rw [hsplit, List.nodup_middle, List.nodup_cons] at once
  have hothers : ∀ x ∈ before ++ after, x.call ≠ r.call := by
    intro x hx he
    refine once.1 ?_
    rw [← List.map_append, ← he]
    exact List.mem_map_of_mem hx
  rw [heq, List.filter_append, List.filter_cons_of_pos (by simp)]
  rw [List.filter_eq_nil_iff.mpr, List.filter_eq_nil_iff.mpr, List.nil_append]
  · intro x hx
    simpa using hothers x (List.mem_append_right _ hx)
  · intro x hx
    simpa using hothers x (List.mem_append_left _ hx)

theorem Effect.filter_call_of_not_answered {effect : Effect} {id : CallId}
    (h : id ∉ effect.answered) : effect.replies.filter (·.call = id) = [] := by
  refine List.filter_eq_nil_iff.mpr fun r hr => ?_
  have hne : r.call ≠ id := fun he => h (he ▸ List.mem_map_of_mem hr)
  simpa using hne

namespace Engine

variable {t : Tuning} {target : Address} {now : Instant} {e e' : Engine} {input : Input}
  {effect : Effect}

theorem deadline_of_collectionEnd? {window : Duration} {deadline : Instant}
    (h : collectionEnd? t now window = some deadline) :
    deadline = now + window.nanos + t.grace.nanos := by
  obtain ⟨sum, hsum, hend⟩ := Option.bind_eq_some_iff.mp h
  rw [Instant.eq_of_add? hend, Duration.nanos_of_add? hsum, Nat.add_assoc]

theorem arriving_of_unrelated {f : Frame} (h : ∀ m, f.message ≠ .ok (.diagnostic m)) :
    (Input.dispatch f).arriving t = [] := by
  simp [Input.arriving, Frame.response?_of_unrelated h]

theorem arriving_of_pending? {f : Frame} {m : Diagnostic} (h : f.pending? t = some m) :
    (Input.dispatch f).arriving t = [] := by
  simp [Input.arriving, Frame.response?_of_pending? h]

/-- An open collection takes what arrives, until its deadline. -/
theorem Turn.collecting (h : Turn t target now e input e' effect) {c : Collection}
    (hc : c ∈ e.collections) (early : input = .expire → now < c.deadline) :
    { c with frames := c.frames ++ input.arriving t } ∈ e'.collections := by
  have hkeep : input.arriving t = [] → e.collections ⊆ e'.collections →
      { c with frames := c.frames ++ input.arriving t } ∈ e'.collections := by
    intro hnothing hsub
    rw [hnothing, List.append_nil]
    exact hsub hc
  cases h with
  | gathered response =>
    rw [arriving_of_response? response]
    exact List.mem_map.mpr ⟨c, hc, rfl⟩
  | handed _ _ closed | kept _ closed =>
    rw [closed] at hc
    cases hc
  | expired =>
    refine List.mem_filter.mpr ⟨?_, ?_⟩
    · simpa [Input.arriving] using hc
    · simpa using early rfl
  | collectionOpened => exact hkeep rfl (List.subset_append_left _ _)
  | skipped other => exact hkeep (by simp [Input.arriving, other]) (List.Subset.refl _)
  | aliveAnswered message | activationAnswered message | activationNacked message
  | sendNacked message | receiveFailed message =>
    exact hkeep (arriving_of_unrelated (by simp [message])) (List.Subset.refl _)
  | sendSettled message settles =>
    refine hkeep (arriving_of_unrelated fun m hm => ?_) (List.Subset.refl _)
    rw [message] at hm
    cases settles <;> cases hm
  | extended pending | remembered pending =>
    exact hkeep (arriving_of_pending? pending) (List.Subset.refl _)
  | _ => exact hkeep rfl (List.Subset.refl _)

/-- The inbox holds responses in the order of their arrival. -/
theorem Turn.inbox_sublist (h : Turn t target now e input e' effect) :
    e'.inbox.Sublist (e.inbox ++ input.arriving t) := by
  cases h with
  | sent | collectionOpened => exact List.nil_sublist _
  | claimed split =>
    rw [split]
    refine List.Sublist.trans ?_ (List.sublist_append_left _ _)
    exact (List.Sublist.refl _).append (List.sublist_cons_self _ _)
  | kept response =>
    rw [arriving_of_response? response]
    exact buffered_inbox_sublist _ _
  | _ => exact List.sublist_append_left _ _

theorem Turn.buffer (h : Turn t target now e input e' effect) (hkeep : ∀ rest, input ≠ .keep rest) :
    e'.buffer = e.buffer := by
  cases h with
  | refilled => exact absurd rfl (hkeep _)
  | _ => rfl

/-- The expiry at its deadline answers a collection with what it holds. -/
theorem mem_replies_expire {c : Collection} (hc : c ∈ e.collections) (due : c.deadline ≤ now) :
    ⟨c.call, .frames c.frames⟩ ∈ (e.expire now).2.replies := by
  have hcomplete : c ∈ e.collections.filter (·.deadline ≤ now) :=
    List.mem_filter.mpr ⟨hc, by simpa using due⟩
  exact List.mem_append_right _ (List.mem_map.mpr ⟨c, hcomplete, rfl⟩)

end Engine

namespace Link

variable {now : Instant} {l l' : Link} {a : Act} {effect : Effect}

theorem Step.collecting (h : Step now l a l' effect) {c : Collection}
    (hc : c ∈ l.engine.collections) (alive' : l'.isAlive = true)
    (early : a = .expire → now < c.deadline) :
    { c with frames := c.frames ++ arriving l now a } ∈ l'.engine.collections := by
  rcases h.turn_or_same with ⟨input, hinput, turn⟩ | ⟨hnone, hsame | ⟨cause, hstop⟩⟩
  · rw [arriving_of_some hinput]
    refine turn.collecting hc fun hexpire => ?_
    rw [hexpire] at hinput
    exact early (act_of_input? hinput rfl)
  · rw [arriving_of_none hnone, List.append_nil, hsame]
    exact hc
  · simp [isAlive, hstop] at alive'

theorem Step.inbox_sublist (h : Step now l a l' effect) :
    l'.engine.inbox.Sublist (l.engine.inbox ++ arriving l now a) := by
  rcases h.turn_or_same with ⟨input, hinput, turn⟩ | ⟨-, hsame | ⟨cause, hstop⟩⟩
  · rw [arriving_of_some hinput]
    exact turn.inbox_sublist
  · rw [hsame]
    exact List.sublist_append_left _ _
  · rw [engine_of_stopped hstop]
    exact List.nil_sublist _

/-! ## A run -/

theorem arrived_concat (past : List (Instant × Act)) (now : Instant) (a : Act) (start : Link) :
    arrived (past ++ [(now, a)]) start =
      arrived past start ++ arriving (actAll past start).1 now a :=
  log_concat _ _ _ _ _

theorem not_mem_readActs (octets : Octets) (l : Link) : Act.expire ∉ l.readActs octets := by
  intro h
  unfold readActs at h
  split at h
  · cases h
  · split at h
    · simp at h
    · rcases List.mem_append.mp h with hframe | hlast
      · obtain ⟨f, -, hf⟩ := List.mem_map.mp hframe
        cases hf
      · split at hlast <;> simp at hlast

theorem deadline_of_mem_history {now : Instant} {events : List (Instant × Event)} {l : Link}
    (h : (now, .expire) ∈ history events l) : (now, .deadline) ∈ events := by
  obtain ⟨before, event, later, rfl, hact⟩ := mem_history h
  cases event with
  | read octets => exact absurd hact (not_mem_readActs octets _)
  | deadline => exact List.mem_append_right _ List.mem_cons_self
  | _ => simp [acts] at hact

/-- An open collection holds, after what it held before, what has arrived since. -/
theorem collecting_actAll {c : Collection} (during : List (Instant × Act)) (l : Link)
    (hc : c ∈ l.engine.collections) (alive : (actAll during l).1.isAlive = true)
    (early : ∀ x ∈ during, x.2 = .expire → x.1 < c.deadline) :
    { c with frames := c.frames ++ arrived during l } ∈
      (actAll during l).1.engine.collections := by
  induction during using List.reverseRecOn with
  | nil => simpa [arrived, log, actAll] using hc
  | append_singleton during x ih =>
    obtain ⟨now, a⟩ := x
    rw [actAll_concat] at alive ⊢
    have hstep := step_act now a (actAll during l).1
    -- from the end: a link that runs after an act ran before it, so that nothing has stopped it
    have hbefore := ih (hstep.wasAlive alive) fun y hy => early y (List.mem_append_left _ hy)
    have hnow := early (now, a) (List.mem_append_right _ (List.mem_singleton_self _))
    rw [arrived_concat, ← List.append_assoc]
    exact hstep.collecting hbefore alive hnow

theorem inbox_sublist (past : List (Instant × Act)) (start : Link) :
    (actAll past start).1.engine.inbox.Sublist (start.engine.inbox ++ arrived past start) := by
  induction past using List.reverseRecOn with
  | nil => exact List.sublist_append_left _ _
  | append_singleton past x ih =>
    obtain ⟨now, a⟩ := x
    rw [actAll_concat, arrived_concat, ← List.append_assoc]
    exact (step_act now a _).inbox_sublist.trans (ih.append (List.Sublist.refl _))

/-- The engine is about to take a collection, which will end at `deadline`. -/
structure Opens (l : Link) (now : Instant) (id : CallId) (window : Duration)
    (deadline : Instant) : Prop where
  alive : l.isAlive = true
  head : l.queue.head? = some (.call id (.collect window))
  accepted : Engine.collectionEnd? l.tuning now window = some deadline

/-- A collection holds these frames and has not been answered. An expiry before its deadline
leaves it so; the next one returns the frames. -/
structure Gathers (id : CallId) (deadline : Instant) (frames : List Octets) (l : Link)
    (effect : Effect) : Prop where
  isOpen : ⟨id, deadline, frames⟩ ∈ l.engine.collections
  unanswered : id ∉ effect.answered
  early : ∀ now, now < deadline → id ∉ (l.act now .expire).2.answered
  late : ∀ now, deadline ≤ now →
    (l.act now .expire).2.replies.filter (·.call = id) = [⟨id, .frames frames⟩]

theorem Opens.collections {id : CallId} {window : Duration} {deadline : Instant}
    (h : Opens l now id window deadline) :
    ⟨id, deadline, l.engine.inbox⟩ ∈ (l.act now .take).1.engine.collections := by
  obtain ⟨e, alive⟩ := running_of_isAlive h.alive
  obtain ⟨queue, hqueue⟩ := List.head?_eq_some_iff.mp h.head
  have haccepted := h.accepted
  simp [act, alive, actRunning, takeCommand, hqueue, Engine.start, Engine.startCollection,
    haccepted, engine]

theorem mem_waiting_of_isOpen {c : Collection} (hc : c ∈ l.engine.collections) :
    c.call ∈ l.engine.waiting :=
  Engine.mem_waiting.mpr ⟨.collection, List.mem_map_of_mem hc⟩

theorem running_of_isOpen {c : Collection} (hc : c ∈ l.engine.collections) :
    ∃ e, l.phase = .running e := by
  cases hp : l.phase with
  | running e => exact ⟨e, rfl⟩
  | stopped cause =>
    rw [engine_of_stopped hp] at hc
    cases hc

theorem gathers_of_isOpen {t : Tuning} {target : Address} {past : List (Instant × Act)}
    {c : Collection} (h : actAll past (opened t target) = (l, effect))
    (distinct : (issued past).Nodup) (hc : c ∈ l.engine.collections) :
    Gathers c.call c.deadline c.frames l effect := by
  obtain ⟨e, alive⟩ := running_of_isOpen hc
  have hnext : ∀ now, actAll (past ++ [(now, .expire)]) (opened t target) =
      ((l.act now .expire).1, effect ++ (l.act now .expire).2) := by
    intro now
    rw [actAll_concat, h]
  have hdistinct : ∀ now, (issued (past ++ [(now, .expire)])).Nodup := by
    intro now
    have hsame : issued (past ++ [(now, .expire)]) = issued past := by simp [issued, Act.issued]
    rwa [hsame]
  refine ⟨hc, not_answered_of_waiting h distinct (mem_waiting_of_isOpen hc), ?_, ?_⟩
  · intro now hlt hanswered
    have halive : (l.act now .expire).1.isAlive = true := by
      simp [act, alive, actRunning, work, isAlive]
    have hlater := (step_act now .expire l).collecting hc halive fun _ => hlt
    refine not_answered_of_waiting (hnext now) (hdistinct now) (mem_waiting_of_isOpen hlater) ?_
    rw [Effect.answered_append]
    exact List.mem_append_right _ hanswered
  · intro now hle
    have honce := (settled_of_nodup (hnext now) (hdistinct now)).once
    rw [Effect.answered_append] at honce
    rw [engine_of_running alive] at hc
    have hanswer : ⟨c.call, .frames c.frames⟩ ∈ (l.act now .expire).2.replies := by
      have hexpire := Engine.mem_replies_expire hc hle
      simpa [act, alive, actRunning, work, Engine.handle] using hexpire
    exact Effect.filter_call_of_nodup (List.nodup_append.mp honce).2.1 hanswer

/-- The inbox when the engine takes a collection, and what arrives after that. -/
def collected (before : List (Instant × Act)) (now : Instant) (during : List (Instant × Act))
    (start : Link) : List Octets :=
  (actAll before start).1.engine.inbox ++ arrived during (actAll (before ++ [(now, .take)]) start).1

theorem gathers_of_opens {t : Tuning} {target : Address} {before during : List (Instant × Act)}
    {id : CallId} {window : Duration} {deadline : Instant}
    (h : actAll (before ++ (now, .take) :: during) (opened t target) = (l, effect))
    (distinct : (issued (before ++ (now, .take) :: during)).Nodup)
    (opens : Opens (actAll before (opened t target)).1 now id window deadline)
    (alive : l.isAlive = true) (early : ∀ x ∈ during, x.2 = .expire → x.1 < deadline) :
    Gathers id deadline (collected before now during (opened t target)) l effect := by
  have hl : l = (actAll during (actAll (before ++ [(now, .take)]) (opened t target)).1).1 := by
    have hsplit := actAll_split before during (now, .take) (opened t target)
    rwa [h] at hsplit
  have hopen := opens.collections
  rw [← congrArg Prod.fst (actAll_concat before now .take (opened t target))] at hopen
  rw [hl] at alive
  have hcollecting := collecting_actAll during _ hopen alive early
  rw [← hl] at hcollecting
  exact gathers_of_isOpen h distinct hcollecting

theorem Gathers.answered {id : CallId} {deadline : Instant} {frames : List Octets}
    (h : Gathers id deadline frames l effect) (due : deadline ≤ now) :
    id ∈ (l.act now .expire).2.answered := by
  have hmem := List.mem_of_mem_filter (h.late now due ▸ List.mem_singleton_self _)
  exact List.mem_map.mpr ⟨_, hmem, rfl⟩

/-- The first expiry at its deadline or after it gives a collection its only answer. -/
theorem filter_run_of_gathers {t : Tuning} {target : Address}
    {events after : List (Instant × Event)} {id : CallId} {deadline : Instant}
    {frames : List Octets}
    (distinct : (requested (events ++ (now, .deadline) :: after)).Nodup)
    (gathers : Gathers id deadline frames (run events (opened t target)).1
      (run events (opened t target)).2) (due : deadline ≤ now) :
    (run (events ++ (now, .deadline) :: after) (opened t target)).2.replies.filter (·.call = id) =
      [⟨id, .frames frames⟩] := by
  have hlate := gathers.late now due
  have hstep : (run events (opened t target)).1.step now .deadline =
      (run events (opened t target)).1.act now .expire := step_of_single rfl
  rw [← issued_history _ (opened t target)] at distinct
  have hsettled := settled_of_nodup (run_eq_actAll _ (opened t target)).symm distinct
  have honce := hsettled.once
  rw [run_append] at honce
  rw [run_append]
  simp only [run, hstep, Effect.answered_append] at honce ⊢
  have hanswered := gathers.answered due
  have hlater : id ∉ (run after ((run events (opened t target)).1.act now .expire).1).2.answered := by
    have hboth := (List.nodup_append.mp honce).2.1
    exact fun hmem => (List.nodup_append.mp hboth).2.2 id hanswered id hmem rfl
  simp only [Effect.replies_append, List.filter_append, hlate,
    Effect.filter_call_of_not_answered gathers.unanswered,
    Effect.filter_call_of_not_answered hlater, List.nil_append, List.append_nil]

/-! ## What has been read -/

/-- The frames that the engine has dispatched. -/
def dispatched (past : List (Instant × Act)) : List Frame := past.filterMap (·.2.frame?)

def Event.octets : Event → Octets
  | .read octets => octets
  | _ => []

/-- The octets that the gateway has sent in a run. -/
def received (events : List (Instant × Event)) : Octets := events.flatMap (·.2.octets)

theorem dispatched_append (first others : List (Instant × Act)) :
    dispatched (first ++ others) = dispatched first ++ dispatched others :=
  List.filterMap_append

theorem dispatched_map (now : Instant) (acts : List Act) :
    dispatched (acts.map (now, ·)) = acts.filterMap Act.frame? := by
  simp [dispatched, List.filterMap_map]

/-- Every response that arrives is the encoding of a frame that is dispatched. -/
theorem arrived_sublist (past : List (Instant × Act)) (start : Link) :
    (arrived past start).Sublist ((dispatched past).map Frame.encode) := by
  induction past using List.reverseRecOn with
  | nil => exact List.Sublist.refl _
  | append_singleton past x ih =>
    obtain ⟨now, a⟩ := x
    rw [arrived_concat, dispatched_append, List.map_append]
    refine ih.append ?_
    cases hp : (actAll past start).1.phase with
    | stopped cause => simp [arriving, hp]
    | running e =>
      cases a with
      | dispatch f =>
        simp only [arriving, hp, Engine.Input.arriving]
        split
        · exact List.Sublist.refl _
        · exact List.nil_sublist _
      | _ => simp [arriving, hp]

theorem frames_readActs {e : Engine} (alive : l.phase = .running e) {octets : Octets}
    (hne : octets ≠ []) : (l.readActs octets).filterMap Act.frame? =
      (reassemble l.tuning.maxPayload (e.buffer ++ octets)).frames := by
  simp only [readActs, alive, if_neg hne, List.filterMap_append, List.filterMap_map]
  split <;> simp [Act.frame?, Function.comp_def]

theorem dispatched_of_stopped {cause : Stop} (h : l.phase = .stopped cause)
    (events : List (Instant × Event)) : dispatched (history events l) = [] := by
  induction events with
  | nil => rfl
  | cons x events ih =>
    obtain ⟨now, event⟩ := x
    have hsame : (l.step now event).1 = l := by
      cases event <;> simp [step, h]
    rw [history, dispatched_append, hsame, ih, List.append_nil, dispatched_map]
    cases event <;> simp [acts, readActs, h, Act.frame?]

theorem Step.buffer (h : Step now l a l' effect) (hkeep : ∀ rest, a ≠ .keep rest) :
    l'.engine.buffer = l.engine.buffer ∨ ∃ cause, l'.phase = .stopped cause := by
  rcases h.turn_or_same with ⟨input, hinput, turn⟩ | ⟨-, hsame⟩
  · refine .inl (turn.buffer fun rest hrest => ?_)
    rw [hrest] at hinput
    exact hkeep rest (act_of_input? hinput rfl)
  · exact hsame.imp_left (congrArg Engine.buffer)

/-- An event dispatches what it brings or keeps it in the buffer, unless the engine stops. -/
structure Absorbs (now : Instant) (event : Event) (l : Link) (rest : Octets) : Prop where
  complete : Frame.encodeAll ((l.acts event).filterMap Act.frame?) ++ rest =
    l.engine.buffer ++ event.octets
  kept : (l.step now event).1.engine.buffer = rest ∨
    ∃ cause, (l.step now event).1.phase = .stopped cause

theorem absorbs_of_single {event : Event} (hacts : l.acts event = [a]) (hframe : a.frame? = none)
    (hkeep : ∀ rest, a ≠ .keep rest) (hoctets : event.octets = []) :
    Absorbs now event l l.engine.buffer := by
  refine ⟨by simp [hacts, hframe, hoctets], ?_⟩
  rw [step_of_single hacts]
  exact (step_act now a l).buffer hkeep

theorem absorbs_read {e : Engine} (alive : l.phase = .running e) {octets : Octets}
    (hne : octets ≠ []) :
    Absorbs now (.read octets) l (reassemble l.tuning.maxPayload (e.buffer ++ octets)).rest := by
  refine ⟨?_, ?_⟩
  · change Frame.encodeAll ((l.readActs octets).filterMap Act.frame?) ++ _ = _
    rw [frames_readActs alive hne, encode_reassemble, engine_of_running alive]
    rfl
  · simp only [step, alive, stepRunning, readOctets, if_neg hne, Engine.absorb]
    split
    · rename_i heq
      simp only [Prod.mk.injEq] at heq
      obtain ⟨⟨rfl, -⟩, -⟩ := heq
      exact .inl rfl
    · exact .inr ⟨_, rfl⟩

theorem absorbs (now : Instant) (event : Event) {l : Link} {e : Engine}
    (alive : l.phase = .running e) : ∃ rest, Absorbs now event l rest := by
  cases event with
  | read octets =>
    by_cases hne : octets = []
    · have hacts : l.acts (.read octets) = [.stop .endOfStream] := by
        simp [acts, readActs, alive, hne]
      exact ⟨_, absorbs_of_single hacts rfl (by simp) hne⟩
    · exact ⟨_, absorbs_read alive hne⟩
  | _ => exact ⟨_, absorbs_of_single rfl rfl (by simp) rfl⟩

/-- The frames that are dispatched stand, one after the other, at the front of what is read. -/
theorem encodeAll_dispatched (events : List (Instant × Event)) (l : Link) :
    Frame.encodeAll (dispatched (history events l)) <+: l.engine.buffer ++ received events := by
  induction events generalizing l with
  | nil => exact List.nil_prefix
  | cons x events ih =>
    obtain ⟨now, event⟩ := x
    cases hp : l.phase with
    | stopped cause =>
      rw [dispatched_of_stopped hp]
      exact List.nil_prefix
    | running e =>
      obtain ⟨rest, complete, kept⟩ := absorbs now event hp
      have hreceived : received ((now, event) :: events) = event.octets ++ received events := rfl
      rw [history, dispatched_append, dispatched_map, hreceived, ← List.append_assoc, ← complete]
      rw [Frame.encodeAll, List.flatMap_append, List.append_assoc]
      refine (List.prefix_append_right_inj _).mpr ?_
      -- what this event leaves in the buffer stands in front of what the others bring
      rcases kept with rfl | ⟨cause, hstop⟩
      · exact ih _
      · rw [dispatched_of_stopped hstop]
        exact List.nil_prefix

/-- These responses are ones that have arrived, in their order and each once; and what arrives is
returned as the octets that stood on the wire. -/
structure AsReceived (frames : List Octets) (events : List (Instant × Event))
    (past : List (Instant × Act)) (start : Link) : Prop where
  inOrder : frames.Sublist (arrived past start)
  encoded : (arrived past start).Sublist ((dispatched past).map Frame.encode)
  onWire : Frame.encodeAll (dispatched past) <+: received events

theorem asReceived_of_opens {t : Tuning} {target : Address} {events : List (Instant × Event)}
    {before during : List (Instant × Act)}
    (point : Point events (opened t target) (before ++ (now, .take) :: during) l effect) :
    AsReceived (collected before now during (opened t target)) events
      (before ++ (now, .take) :: during) (opened t target) := by
  refine ⟨?_, arrived_sublist _ _, ?_⟩
  · have hinbox : (actAll before (opened t target)).1.engine.inbox.Sublist
        (arrived before (opened t target)) := inbox_sublist before (opened t target)
    have hsplit : arrived (before ++ (now, .take) :: during) (opened t target) =
        arrived (before ++ [(now, .take)]) (opened t target) ++
          arrived during (actAll (before ++ [(now, .take)]) (opened t target)).1 := by
      rw [List.append_cons, arrived, log_append]
      rfl
    rw [hsplit, arrived_concat]
    exact (hinbox.trans (List.sublist_append_left _ _)).append (List.Sublist.refl _)
  · obtain ⟨rest, hrest⟩ := point.isPast
    have hall := encodeAll_dispatched events (opened t target)
    rw [← hrest, dispatched_append, Frame.encodeAll, List.flatMap_append] at hall
    exact (List.prefix_append _ _).trans hall

end Link
end Doip
