import Doip.Proofs.Link.Output
import Doip.Proofs.Link.Timers

/-! # Nobody times out early

From the moment at which a call is taken the engine grants it spans of time: its own timeout, what
is left of a response pending that came before, and a new span at each response pending while it
waits longest. A deadline never moves to an earlier time (`Step.heldUntil`), so that the end of
each span is a lower bound for the time of the timeout (`nobody_times_out_early`). -/
namespace Doip
namespace Link

/-! ## The order of time -/

/-- The acts of a run follow each other in time as its events do. -/
theorem history_ordered {events : List (Instant × Event)}
    (ordered : (events.map (·.1)).Pairwise (· ≤ ·)) (start : Link) :
    ((history events start).map (·.1)).Pairwise (· ≤ ·) := by
  induction events generalizing start with
  | nil => exact List.Pairwise.nil
  | cons x events ih =>
    obtain ⟨now, event⟩ := x
    rw [List.map_cons, List.pairwise_cons] at ordered
    rw [history, List.map_append, List.map_map, List.pairwise_append]
    refine ⟨?_, ih ordered.2 _, ?_⟩
    · exact List.pairwise_map.mpr (List.pairwise_of_forall fun _ _ => Nat.le_refl now)
    · intro first hfirst later hlater
      obtain ⟨a, -, rfl⟩ := List.mem_map.mp hfirst
      obtain ⟨⟨time, b⟩, hb, rfl⟩ := List.mem_map.mp hlater
      obtain ⟨before, event', after, rfl, -⟩ := mem_history hb
      exact ordered.1 time (by simp)

variable {now : Instant} {l l' : Link} {a : Act} {effect : Effect} {id : CallId}
  {instant : ℕ∞} {deadline deadline' : Option Instant}

theorem running_of_input? {input : Engine.Input} (h : l.input? a = some input) :
    ∃ e, l.phase = .running e := by
  cases hp : l.phase with
  | running e => exact ⟨e, rfl⟩
  | stopped cause => simp [input?, hp] at h

theorem Step.timely (h : Step now l a l' effect) (ht : Engine.Timely l.tuning now l.engine) :
    Engine.Timely l.tuning now l'.engine := by
  rcases h.turn_or_same with ⟨input, -, turn⟩ | ⟨-, hsame | ⟨cause, hstop⟩⟩
  · exact turn.timely ht
  · rw [hsame]
    exact ht
  · rw [engine_of_stopped hstop]
    exact Engine.timely_initial _ _

/-- The call `id` waits until `instant` at least, if it waits with a deadline at all. -/
def HeldUntil (id : CallId) (instant : ℕ∞) (l : Link) : Prop :=
  ∀ deadline, (id, deadline) ∈ l.engine.timers → instant ≤ endOf deadline

/-- Until when a call waits is never put forward. -/
theorem Step.heldUntil (h : Step now l a l' effect) (ht : Engine.Timely l.tuning now l.engine)
    (held : HeldUntil id instant l) (hnew : id ∉ (taking l now a).map (·.1)) :
    HeldUntil id instant l' := by
  intro deadline' hmem
  rcases h.turn_or_same with ⟨input, hinput, turn⟩ | ⟨-, hsame | ⟨cause, hstop⟩⟩
  · rcases turn.timer_origin ht hmem with ⟨deadline, hold, hle⟩ | ⟨call, rfl, -⟩
    · exact (held deadline hold).trans hle
    · rw [taking_of_start hinput] at hnew
      exact absurd (List.mem_singleton_self id) hnew
  · rw [hsame] at hmem
    exact held deadline' hmem
  · rw [engine_of_stopped hstop] at hmem
    cases hmem

/-! ## Calls and their deadlines in a run -/

section
variable {t : Tuning} {target : Address} {past first since : List (Instant × Act)}

theorem timely_actAll (ordered : (past.map (·.1)).Pairwise (· ≤ ·))
    (hnow : ∀ x ∈ past, x.1 ≤ now) :
    Engine.Timely t now (actAll past (opened t target)).1.engine := by
  induction past using List.reverseRecOn generalizing now with
  | nil => exact Engine.timely_initial t now
  | append_singleton past x ih =>
    obtain ⟨time, a⟩ := x
    rw [List.map_append, List.pairwise_append] at ordered
    have hpast : ∀ x ∈ past, x.1 ≤ time := fun x hx =>
      ordered.2.2 _ (List.mem_map_of_mem hx) _ (by simp)
    have htuning : (actAll past (opened t target)).1.tuning = t :=
      tuning_actAll past (opened t target)
    have hstep := (step_act time a (actAll past (opened t target)).1).timely
      (htuning.symm ▸ ih ordered.1 hpast)
    rw [htuning] at hstep
    rw [actAll_concat]
    exact hstep.mono (hnow (time, a) (by simp))

theorem timely_before (t : Tuning) (target : Address)
    (ordered : ((past ++ [(now, a)]).map (·.1)).Pairwise (· ≤ ·)) :
    Engine.Timely (actAll past (opened t target)).1.tuning now
      (actAll past (opened t target)).1.engine := by
  rw [List.map_append, List.pairwise_append] at ordered
  have hpast : ∀ x ∈ past, x.1 ≤ now := fun x hx =>
    ordered.2.2 _ (List.mem_map_of_mem hx) _ (by simp)
  rw [tuning_actAll]
  exact timely_actAll ordered.1 hpast

theorem taken_concat (past : List (Instant × Act)) (now : Instant) (a : Act) (start : Link) :
    taken (past ++ [(now, a)]) start =
      taken past start ++ taking (actAll past start).1 now a :=
  log_concat taking past now a start

theorem taken_subset {start : Link} (part : first <+: past) :
    taken first start ⊆ taken past start := by
  obtain ⟨since, rfl⟩ := part
  rw [taken, taken, log_append]
  exact List.subset_append_left _ _

theorem nodup_taken (distinct : (issued past).Nodup) :
    ((taken past (opened t target)).map (·.1)).Nodup :=
  (List.nodup_append.mp
    (nodup_taken_queued (rfl : actAll past (opened t target) = _) distinct)).1

/-- No call is taken twice. -/
theorem not_taking_of_taken (distinct : (issued (past ++ [(now, a)])).Nodup)
    (htaken : id ∈ (taken past (opened t target)).map (·.1)) :
    id ∉ (taking (actAll past (opened t target)).1 now a).map (·.1) := by
  intro htaking
  have hnodup : ((taken (past ++ [(now, a)]) (opened t target)).map (·.1)).Nodup :=
    nodup_taken distinct
  rw [taken_concat, List.map_append] at hnodup
  exact (List.nodup_append.mp hnodup).2.2 id htaken id htaking rfl

theorem held_since (ordered : ((first ++ since).map (·.1)).Pairwise (· ≤ ·))
    (distinct : (issued (first ++ since)).Nodup)
    (htaken : id ∈ (taken first (opened t target)).map (·.1))
    (held : HeldUntil id instant (actAll first (opened t target)).1) :
    HeldUntil id instant (actAll (first ++ since) (opened t target)).1 := by
  induction since using List.reverseRecOn with
  | nil => rwa [List.append_nil]
  | append_singleton since x ih =>
    obtain ⟨time, a⟩ := x
    rw [← List.append_assoc] at ordered distinct ⊢
    have htime := timely_before t target ordered
    rw [List.map_append, List.pairwise_append] at ordered
    have hpast := distinct_of_prefix (List.prefix_append _ _) distinct
    have htaken' : id ∈ (taken (first ++ since) (opened t target)).map (·.1) :=
      List.map_subset _ (taken_subset (List.prefix_append _ _)) htaken
    rw [actAll_concat]
    exact (step_act time a _).heldUntil htime (ih ordered.1 hpast)
      (not_taking_of_taken distinct htaken')

theorem nodup_waiting (distinct : (issued past).Nodup) :
    (actAll past (opened t target)).1.engine.waiting.Nodup := by
  refine List.nodup_iff_count.mpr fun id => ?_
  have := count_le_one (rfl : actAll past (opened t target) = _) distinct id
  omega

theorem taken_of_waiting (h : id ∈ (actAll past (opened t target)).1.engine.waiting) :
    id ∈ (taken past (opened t target)).map (·.1) := by
  obtain ⟨kind, hkind⟩ := Engine.mem_waiting.mp h
  obtain ⟨call, hcall, -⟩ := taken_of_waits rfl hkind
  exact List.mem_map.mpr ⟨_, hcall, rfl⟩

theorem call_unique {call call' : Call} (distinct : (issued past).Nodup)
    (h : (id, call) ∈ taken past (opened t target))
    (h' : (id, call') ∈ taken past (opened t target)) : call = call' :=
  congrArg Prod.snd (List.inj_on_of_nodup_map (nodup_taken distinct) h h' rfl)

/-- Receives wait with the timeouts of their calls. -/
theorem taken_of_receive {w : ReceiveWait}
    (hw : w ∈ (actAll past (opened t target)).1.engine.receives) :
    (w.call, .receive w.timeout) ∈ taken past (opened t target) := by
  induction past using List.reverseRecOn generalizing w with
  | nil => cases hw
  | append_singleton past x ih =>
    obtain ⟨time, a⟩ := x
    rw [actAll_concat] at hw
    rw [taken_concat]
    rcases (step_act time a (actAll past (opened t target)).1).turn_or_same with
      ⟨input, hinput, turn⟩ | ⟨-, hsame | ⟨cause, hstop⟩⟩
    · rcases turn.receive_origin hw with ⟨old, hold, hcall, htimeout⟩ | rfl
      · rw [← hcall, ← htimeout]
        exact List.mem_append_left _ (ih hold)
      · rw [taking_of_start hinput]
        exact List.mem_append_right _ (List.mem_singleton_self _)
    · rw [hsame] at hw
      exact List.mem_append_left _ (ih hw)
    · rw [engine_of_stopped hstop] at hw
      cases hw

/-! ## What a call is granted -/

/-- What the engine grants a call when it takes it. -/
theorem starts_of_taking {call : Call} (ordered : ((past ++ [(now, a)]).map (·.1)).Pairwise (· ≤ ·))
    (distinct : (issued past).Nodup)
    (htaking : (id, call) ∈ taking (actAll past (opened t target)).1 now a)
    (hmem : (id, deadline) ∈ (actAll (past ++ [(now, a)]) (opened t target)).1.engine.timers) :
    Engine.Starts t now (actAll past (opened t target)).1.engine call deadline := by
  have hinput := input?_of_taking htaking
  have hfresh := fresh_of_nodup rfl distinct hinput
  rw [actAll_concat] at hmem
  rcases (step_act now a (actAll past (opened t target)).1).turn_or_same with
    ⟨input, hinput', turn⟩ | ⟨hnone, -⟩
  · rw [hinput] at hinput'
    cases hinput'
    have htimely := timely_before t target ordered
    rcases turn.timer_origin htimely hmem with ⟨deadline', hold, -⟩ | ⟨_, heq, hs⟩
    · have hnew := hfresh.new id (by simp [Engine.Input.calls])
      exact absurd (Engine.mem_waiting_of_timers hold) hnew
    · cases heq
      rwa [tuning_actAll] at hs
  · rw [hinput] at hnone
    cases hnone

/-- What a response pending grants the receive that waits longest. -/
theorem held_of_prolongs {timeout : Duration} (distinct : (issued (past ++ [(now, a)])).Nodup)
    (hcall : (id, .receive (some timeout)) ∈ taken past (opened t target))
    (hfirst : ((actAll past (opened t target)).1.engine.waits .receive).head? = some id)
    (hprolongs : (actAll past (opened t target)).1.prolongs a = true) :
    HeldUntil id (endOf (deadlineAfter now (some (timeout.longer t.p2Star))))
      (actAll (past ++ [(now, a)]) (opened t target)).1 := by
  intro deadline hmem
  have hpast := distinct_of_prefix (List.prefix_append _ _) distinct
  have hnodup : (actAll (past ++ [(now, a)]) (opened t target)).1.engine.waiting.Nodup :=
    nodup_waiting distinct
  rw [actAll_concat] at hmem hnodup
  rw [Engine.waits, List.head?_map, Option.map_eq_some_iff] at hfirst
  obtain ⟨w, hw, rfl⟩ := hfirst
  have hsame := call_unique hpast hcall (taken_of_receive (List.mem_of_mem_head? hw))
  simp only [Call.receive.injEq] at hsame
  obtain ⟨input, hinput, hp⟩ := (Option.any_eq_true _ _).mp hprolongs
  rcases (step_act now a (actAll past (opened t target)).1).turn_or_same with
    ⟨input', hinput', turn⟩ | ⟨hnone, -⟩
  · rw [hinput] at hinput'
    cases hinput'
    have hnext := turn.receives_of_prolongs hp hw
    rw [tuning_actAll] at hnext
    have htimer : (w.call, deadlineAfter now (some (timeout.longer t.p2Star))) ∈
        ((actAll past (opened t target)).1.act now a).1.engine.timers := by
      refine List.mem_append_right _ (List.mem_map.mpr ⟨_, hnext, ?_⟩)
      rw [ReceiveWait.deadline_extend hsame.symm, Engine.call_extend]
      rfl
    exact le_of_eq (congrArg endOf (Engine.deadline_unique hnodup htimer hmem))
  · rw [hinput] at hnone
    cases hnone

end

theorem Step.due_of_timedOut (h : Step now l a l' effect)
    (hr : Engine.timedOut id ∈ effect.replies) :
    ∃ deadline, (id, deadline) ∈ l.engine.timers ∧ endOf deadline ≤ (now : ℕ∞) := by
  have hstop : ∀ (cause : Stop) (e : Engine) (queue : List Command),
      Engine.timedOut id ∉ e.failAll cause.failure ++ failQueued cause.failure queue := by
    intro cause e queue hmem
    have hfailure := answer_of_stop hmem
    cases cause <;> simp [Engine.timedOut, Stop.failure, Failure.engineStopped] at hfailure
  cases h with
  | taken alive head turn | worked alive input_eq turn =>
    rw [engine_of_running alive]
    exact (turn.due_of_timedOut hr).2
  | stopped | shutDown => exact absurd hr (hstop _ _ _)
  | _ => simp [Effect.reply, Effect.none, Engine.timedOut, Failure.engineStopped] at hr

/-! ## Timeouts -/

/-- The call `id`, which times out at `now` after the acts `before`, has waited for every span
that it was granted. -/
structure WaitedOut (id : CallId) (before : List (Instant × Act)) (start : Link)
    (now : Instant) : Prop where
  taken : id ∈ (taken before start).map (·.1)
  /-- It has a timeout, counted from when it was taken, that the clock can hold. -/
  own : AtEach (fun earlier time a => ∀ call, (id, call) ∈ taking (actAll earlier start).1 time a →
    ∃ timeout, call.timeout? start.tuning = some timeout ∧ Elapsed time timeout.nanos now) before
  /-- Each response pending of the target that came while it waited longest. -/
  pending : ∀ timeout, (id, .receive (some timeout)) ∈ Link.taken before start →
    AtEach (fun earlier time a =>
      ((actAll earlier start).1.engine.waits .receive).head? = some id →
      (actAll earlier start).1.prolongs a = true →
      Elapsed time (max timeout.nanos start.tuning.p2Star.nanos) now) before
  /-- The response pending that was remembered when it was taken. -/
  remembered : AtEach (fun earlier time a => ∀ timeout seen,
    (id, .receive timeout) ∈ taking (actAll earlier start).1 time a →
    Remembered earlier start seen → Elapsed seen start.tuning.p2Star.nanos now) before

section
variable {t : Tuning} {target : Address} {before first : List (Instant × Act)}
  (ordered : ((before ++ [(now, a)]).map (·.1)).Pairwise (· ≤ ·))
  (distinct : (issued before).Nodup)
  (hr : Engine.timedOut id ∈ ((actAll before (opened t target)).1.act now a).2.replies)
include ordered distinct hr

/-- A call that times out has waited until every instant until which it was held. -/
theorem le_of_timedOut (hpart : first <+: before)
    (htaken : id ∈ (taken first (opened t target)).map (·.1))
    (held : HeldUntil id instant (actAll first (opened t target)).1) : instant ≤ (now : ℕ∞) := by
  obtain ⟨since, rfl⟩ := hpart
  rw [List.map_append, List.pairwise_append] at ordered
  obtain ⟨deadline, hmem, hdue⟩ := (step_act now a _).due_of_timedOut hr
  exact (held_since ordered.1 distinct htaken held deadline hmem).trans hdue

/-- Until when the engine grants a call to wait when it takes it, that long the call waits. -/
theorem starts_le_of_timedOut {earlier : List (Instant × Act)} {time : Instant} {b : Act}
    {call : Call} (hpart : earlier ++ [(time, b)] <+: before)
    (htaking : (id, call) ∈ taking (actAll earlier (opened t target)).1 time b)
    (hinstant : ∀ deadline,
      Engine.Starts t time (actAll earlier (opened t target)).1.engine call deadline →
        instant ≤ endOf deadline) : instant ≤ (now : ℕ∞) := by
  have hearlier := distinct_of_prefix ((List.prefix_append _ _).trans hpart) distinct
  have hordered := ordered.sublist ((hpart.trans (List.prefix_append _ _)).map _).sublist
  have htaken : id ∈ (taken (earlier ++ [(time, b)]) (opened t target)).map (·.1) := by
    rw [taken_concat]
    exact List.mem_map.mpr ⟨_, List.mem_append_right _ htaking, rfl⟩
  exact le_of_timedOut ordered distinct hr hpart htaken
    fun deadline hmem => hinstant deadline (starts_of_taking hordered hearlier htaking hmem)

theorem own_of_timedOut {earlier : List (Instant × Act)} {time : Instant} {b : Act} {call : Call}
    (hpart : earlier ++ [(time, b)] <+: before)
    (htaking : (id, call) ∈ taking (actAll earlier (opened t target)).1 time b) :
    ∃ timeout, call.timeout? t = some timeout ∧ Elapsed time timeout.nanos now := by
  have hle := starts_le_of_timedOut ordered distinct hr hpart htaking fun _ starts => starts.own
  cases htimeout : call.timeout? t with
  | none =>
    rw [htimeout] at hle
    exact absurd hle (by simp [deadlineAfter])
  | some timeout =>
    rw [htimeout] at hle
    exact ⟨timeout, rfl, elapsed_iff.mpr hle⟩

theorem pending_of_timedOut {earlier : List (Instant × Act)} {time : Instant} {b : Act}
    {timeout : Duration} (hcall : (id, .receive (some timeout)) ∈ taken before (opened t target))
    (hpart : earlier ++ [(time, b)] <+: before)
    (hfirst : ((actAll earlier (opened t target)).1.engine.waits .receive).head? = some id)
    (hprolongs : (actAll earlier (opened t target)).1.prolongs b = true) :
    Elapsed time (max timeout.nanos t.p2Star.nanos) now := by
  have hwaiting : id ∈ (actAll earlier (opened t target)).1.engine.waiting :=
    Engine.mem_waiting.mpr ⟨.receive, List.mem_of_mem_head? hfirst⟩
  have htaken := taken_of_waiting hwaiting
  have hearlier : earlier <+: before := (List.prefix_append _ _).trans hpart
  have hdistinct := distinct_of_prefix hpart distinct
  -- names differ, so that the receive that waits is the one in question
  have hcall' : (id, .receive (some timeout)) ∈ taken earlier (opened t target) := by
    obtain ⟨⟨id', call⟩, hmem, rfl⟩ := List.mem_map.mp htaken
    rwa [call_unique distinct hcall (taken_subset hearlier hmem)]
  have hle := le_of_timedOut ordered distinct hr hpart
    (List.map_subset _ (taken_subset (List.prefix_append _ _)) htaken)
    (held_of_prolongs hdistinct hcall' hfirst hprolongs)
  rw [← elapsed_iff, Duration.nanos_longer] at hle
  exact hle

theorem remembered_of_timedOut {earlier : List (Instant × Act)} {time seen : Instant} {b : Act}
    {timeout : Option Duration} (hpart : earlier ++ [(time, b)] <+: before)
    (htaking : (id, .receive timeout) ∈ taking (actAll earlier (opened t target)).1 time b)
    (hremembered : Remembered earlier (opened t target) seen) :
    Elapsed seen t.p2Star.nanos now := by
  obtain ⟨e, alive⟩ := running_of_input? (input?_of_taking htaking)
  have hseen := (pendingAt_iff_remembered earlier alive seen).mpr hremembered
  rw [← engine_of_running alive] at hseen
  exact elapsed_iff.mpr (starts_le_of_timedOut ordered distinct hr hpart htaking
    fun _ starts => starts.remembered timeout rfl seen hseen)

theorem waitedOut_of_timedOut : WaitedOut id before (opened t target) now := by
  obtain ⟨deadline, hmem, -⟩ := (step_act now a _).due_of_timedOut hr
  refine ⟨taken_of_waiting (Engine.mem_waiting_of_timers hmem), ?_, ?_, ?_⟩
  · refine atEach_iff.mpr fun earlier time b hpart call htaking => ?_
    exact own_of_timedOut ordered distinct hr hpart htaking
  · refine fun timeout hcall => atEach_iff.mpr fun earlier time b hpart hfirst hprolongs => ?_
    exact pending_of_timedOut ordered distinct hr hcall hpart hfirst hprolongs
  · refine atEach_iff.mpr fun earlier time b hpart timeout seen htaking hremembered => ?_
    exact remembered_of_timedOut ordered distinct hr hpart htaking hremembered

end

/-- While a call waits its deadline moves to later times only. -/
theorem endOf_le_since {t : Tuning} {target : Address} {first since : List (Instant × Act)}
    (ordered : ((first ++ since).map (·.1)).Pairwise (· ≤ ·))
    (distinct : (issued (first ++ since)).Nodup)
    (hmem : (id, deadline) ∈ (actAll first (opened t target)).1.engine.timers)
    (hmem' : (id, deadline') ∈ (actAll (first ++ since) (opened t target)).1.engine.timers) :
    endOf deadline ≤ endOf deadline' := by
  have hfirst := distinct_of_prefix (List.prefix_append first since) distinct
  have htaken := taken_of_waiting (Engine.mem_waiting_of_timers hmem)
  have held : HeldUntil id (endOf deadline) (actAll first (opened t target)).1 := fun _ hother =>
    le_of_eq (congrArg endOf (Engine.deadline_unique (nodup_waiting hfirst) hmem hother))
  exact held_since ordered distinct htaken held deadline' hmem'

/-- In a run whose events follow each other in time, the deadline of a call that waits never moves
to an earlier time, and whoever times out has waited for every span that was granted: a call
without a timeout, or with one that the clock cannot hold, does not time out at all. -/
theorem nobody_times_out_early (t : Tuning) (target : Address) (events : List (Instant × Event))
    (distinct : (requested events).Nodup) (ordered : (events.map (·.1)).Pairwise (· ≤ ·)) :
    (∀ past since, past ++ since <+: history events (opened t target) →
      ∀ id deadline deadline', (id, deadline) ∈ (actAll past (opened t target)).1.engine.timers →
        (id, deadline') ∈ (actAll (past ++ since) (opened t target)).1.engine.timers →
          endOf deadline ≤ endOf deadline') ∧
    AtEach (fun before now a => ∀ id,
      Engine.timedOut id ∈ ((actAll before (opened t target)).1.act now a).2.replies →
        WaitedOut id before (opened t target) now) (history events (opened t target)) := by
  have hordered := history_ordered ordered (opened t target)
  have hdistinct : (issued (history events (opened t target))).Nodup := by
    rwa [issued_history]
  have hpart : ∀ {part}, part <+: history events (opened t target) →
      (part.map (·.1)).Pairwise (· ≤ ·) ∧ (issued part).Nodup :=
    fun h => ⟨hordered.sublist (h.map _).sublist, distinct_of_prefix h hdistinct⟩
  refine ⟨fun past since h id deadline deadline' hmem hmem' => ?_, atEach_iff.mpr ?_⟩
  · exact endOf_le_since (hpart h).1 (hpart h).2 hmem hmem'
  · intro before now a h id hr
    exact waitedOut_of_timedOut (hpart h).1 (hpart ((List.prefix_append _ _).trans h)).2 hr

/-- A receive that two response pendings hold beyond its own timeout, and then the deadline. -/
def exhaustedRun : List (Instant × Event) := announcedRun ++ [(13000000000, .deadline)]

theorem exhaustedRun_waitedOut :
    WaitedOut 1 (history announcedRun (opened (.ofSettings 0x0E00 {}) 0x0680))
      (opened (.ofSettings 0x0E00 {}) 0x0680) 13000000000 := by
  have hall := (nobody_times_out_early (.ofSettings 0x0E00 {}) 0x0680 exhaustedRun (by decide)
    (by decide)).2
  have hreply : Engine.timedOut 1 ∈ ((actAll (history announcedRun
      (opened (.ofSettings 0x0E00 {}) 0x0680)) (opened (.ofSettings 0x0E00 {}) 0x0680)).1.act
        13000000000 .expire).2.replies := by decide +kernel
  refine atEach_iff.mp hall _ _ .expire ?_ 1 hreply
  rw [exhaustedRun, history_append]
  exact List.prefix_rfl

end Link
end Doip
