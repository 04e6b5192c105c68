import Doip.Proofs.Link.PendingChain

/-! # Which target a receive follows

The target may change while a receive waits. The engine looks at it anew for each frame, so
that a receive follows the target of the moment: `Turn.frameSource?_eq` says this of the
responses that receives return, `Turn.source_of_moves` of the response pendings that move their
deadlines. What was the target when the receive was taken does not count. So a receive is bound
to that one exactly as long as it is the target whenever something happens to the receive
(`bound_iff_target_kept`). -/
namespace Doip
namespace Engine

variable {t : Tuning} {target : Address} {now : Instant} {e e' : Engine} {input : Input}
  {effect : Effect}

/-- Receives return responses of the target only. -/
theorem Turn.frameSource?_eq {id : CallId} {octets : Octets}
    (h : Turn t target now e input e' effect) (hr : ⟨id, .frame octets⟩ ∈ effect.replies) :
    frameSource? octets = some target := by
  cases h with
  | claimed split others source =>
    cases List.mem_singleton.mp hr
    exact source
  | handed response source =>
    cases List.mem_singleton.mp hr
    rw [frameSource?_of_response? response, source]
  | sendSettled message settles =>
    cases List.mem_singleton.mp hr
    cases settles
  | @activationAnswered f r wait =>
    have := plain_activationAnswer (t := t) wait.call r _ hr
    simp [Answer.isPlain] at this
  | expired =>
    have := List.filterMap_eq_nil_iff.mp (returned_expire now e) _ hr
    simp [Answer.frame?] at this
  | _ => simp [Effect.reply, Effect.none, Effect.send] at hr

/-- The deadline of a receive that waits differs after a turn from what it was before. -/
def Moves (id : CallId) (e e' : Engine) : Prop :=
  ∃ w ∈ e.receives, ∃ w' ∈ e'.receives, w.call = id ∧ w'.call = id ∧ w'.deadline ≠ w.deadline

theorem not_moves_of_subset {id : CallId} (hnodup : (e.waits .receive).Nodup)
    (hsub : e'.receives ⊆ e.receives) : ¬Moves id e e' := by
  rintro ⟨w, hw, w', hw', hcall, hcall', hne⟩
  have heq := List.inj_on_of_nodup_map hnodup (hsub hw') hw (hcall'.trans hcall.symm)
  exact hne (by rw [heq])

/-- Only a response pending of the target moves the deadline of a receive. -/
theorem Turn.source_of_moves {id : CallId} (h : Turn t target now e input e' effect)
    (hnodup : (e.waits .receive).Nodup) (hnew : id ∉ input.calls.map (·.1))
    (hmoves : Moves id e e') :
    ∃ f m, input = .dispatch f ∧ f.pending? t = some m ∧ m.source = target := by
  cases h with
  | extended pending source => exact ⟨_, _, rfl, pending, source⟩
  | @waited id' timeout absent =>
    obtain ⟨w, hw, w', hw', hcall, hcall', hne⟩ := hmoves
    rcases List.mem_append.mp hw' with hold | hlast
    · have heq := List.inj_on_of_nodup_map hnodup hold hw (hcall'.trans hcall.symm)
      exact absurd (by rw [heq]) hne
    · rw [List.mem_singleton.mp hlast, call_receiveWait] at hcall'
      exact absurd hcall' (fun he => hnew (by simp [Input.calls, he]))
  | receiveFailed _ _ waits | handed _ _ _ waits =>
    refine absurd hmoves (not_moves_of_subset hnodup ?_)
    rw [waits]
    exact List.subset_cons_self _ _
  | expired =>
    exact absurd hmoves (not_moves_of_subset hnodup (expire_receives_sublist now e).subset)
  | _ => exact absurd hmoves (not_moves_of_subset hnodup (List.Subset.refl _))

/-- Only the memory of a response pending gives a new receive another deadline than its own. -/
theorem Turn.remembers {id : CallId} {call : Call} {w : ReceiveWait}
    (h : Turn t target now e (.start id call) e' effect) (hw : w ∈ e'.receives)
    (hnew : w ∉ e.receives) (hne : w.deadline ≠ deadlineAfter now w.timeout) :
    ∃ seen, e.pendingAt = some seen := by
  cases h with
  | waited absent =>
    have hlast := (List.mem_append.mp hw).resolve_left hnew
    rw [List.mem_singleton] at hlast
    cases hp : e.pendingAt with
    | none => exact absurd (by rw [hlast, hp]; rfl) hne
    | some seen => exact ⟨seen, rfl⟩
  | _ => exact absurd hw hnew

end Engine

namespace Link

variable {now : Instant} {l l' : Link} {a : Act} {effect : Effect}

theorem Step.frameSource?_eq {id : CallId} {octets : Octets} (h : Step now l a l' effect)
    (hr : ⟨id, .frame octets⟩ ∈ effect.replies) : frameSource? octets = some l.target := by
  cases h with
  | taken alive head turn => exact turn.frameSource?_eq hr
  | worked alive input_eq turn => exact turn.frameSource?_eq hr
  | stopped | shutDown =>
    have := plain_stop _ _ _ _ hr
    simp [Answer.isPlain] at this
  | _ => simp [Effect.reply, Effect.none] at hr

/-- The deadline of the receive `id` moves at an act. -/
def Moves (l : Link) (now : Instant) (a : Act) (id : CallId) : Prop :=
  Engine.Moves id l.engine (l.act now a).1.engine

/-- The receive `id` is taken at an act, and its deadline is not the one of its own timeout. -/
def StartsLate (l : Link) (now : Instant) (a : Act) (id : CallId) : Prop :=
  id ∈ (taking l now a).map (·.1) ∧ ∃ w ∈ (l.act now a).1.engine.receives,
    w.call = id ∧ w.deadline ≠ deadlineAfter now w.timeout

instance (l : Link) (now : Instant) (a : Act) (id : CallId) : Decidable (Moves l now a id) :=
  inferInstanceAs (Decidable (∃ w ∈ l.engine.receives, ∃ w' ∈ (l.act now a).1.engine.receives,
    w.call = id ∧ w'.call = id ∧ w'.deadline ≠ w.deadline))

instance (l : Link) (now : Instant) (a : Act) (id : CallId) : Decidable (StartsLate l now a id) :=
  inferInstanceAs (Decidable (id ∈ (taking l now a).map (·.1) ∧
    ∃ w ∈ (l.act now a).1.engine.receives, w.call = id ∧ w.deadline ≠ deadlineAfter now w.timeout))

/-- The engine remembers the response pending `f`, which came at `seen` to the link `l`. -/
def RemembersFrame (past : List (Instant × Act)) (start : Link) (seen : Instant) (f : Frame)
    (l : Link) : Prop :=
  ∃ before since, past = before ++ (seen, .dispatch f) :: since ∧ (actAll before start).1 = l ∧
    l.reminds (.dispatch f) = true ∧ Throughout Mindful since (l.act seen (.dispatch f)).1

theorem input?_of_taking {id : CallId} {call : Call} (h : (id, call) ∈ taking l now a) :
    l.input? a = some (.start id call) := by
  unfold taking at h
  split at h
  · rename_i halive hqueue
    cases List.mem_singleton.mp h
    simp [input?, halive, hqueue]
  · cases h

theorem dispatch_of_reminds (h : l.reminds a = true) :
    ∃ f, a = .dispatch f ∧ f.isPendingOf l.tuning l.target = true := by
  obtain ⟨input, hinput, hreminds⟩ := (Option.any_eq_true _ _).mp h
  cases input with
  | dispatch f =>
    exact ⟨f, act_of_input? hinput rfl, (Bool.and_eq_true_iff.mp hreminds).1⟩
  | _ => cases hreminds

theorem isPendingOf_unique {t : Tuning} {sender other : Address} {f : Frame}
    (h : f.isPendingOf t sender = true) (h' : f.isPendingOf t other = true) : sender = other := by
  unfold Frame.isPendingOf at h h'
  cases hp : f.pending? t with
  | none => simp [hp] at h
  | some m =>
    simp only [hp, Option.any_some, decide_eq_true_eq] at h h'
    exact h.symm.trans h'

/-! ## One act -/

section
variable {t : Tuning} {target : Address} {past : List (Instant × Act)} {id : CallId}
  (h : actAll past (opened t target) = (l, effect)) (distinct : (issued past).Nodup)
include h distinct

theorem nodup_waits (kind : CallKind) : (l.engine.waits kind).Nodup := by
  refine List.nodup_iff_count.mpr fun id => ?_
  have hall := count_le_one h distinct id
  rw [Engine.waiting_eq] at hall
  simp only [List.count_append] at hall
  cases kind <;> omega

/-- Only a response pending of the target moves the deadline of a receive that waits. -/
theorem pending_of_moves (hmoves : Moves l now a id) :
    ∃ f, a = .dispatch f ∧ f.isPendingOf t l.target = true := by
  have htuning : l.tuning = t := by
    have := tuning_actAll past (opened t target)
    rwa [h] at this
  have hnodup := nodup_waits h distinct .receive
  rcases (step_act now a l).turn_or_same with
    ⟨input, hinput, turn⟩ | ⟨-, hsame | ⟨cause, hstop⟩⟩
  · have hnew : id ∉ input.calls.map (·.1) := by
      intro hid
      obtain ⟨w, hw, -, -, rfl, -⟩ := hmoves
      have hwaits : w.call ∈ l.engine.waiting :=
        Engine.mem_waiting.mpr ⟨.receive, List.mem_map_of_mem hw⟩
      exact (fresh_of_nodup h distinct hinput).new _ hid hwaits
    obtain ⟨f, m, rfl, hpending, hsource⟩ := turn.source_of_moves hnodup hnew hmoves
    refine ⟨f, act_of_input? hinput rfl, ?_⟩
    rw [htuning] at hpending
    simp [Frame.isPendingOf, hpending, hsource]
  · rw [Moves, hsame] at hmoves
    exact absurd hmoves (Engine.not_moves_of_subset hnodup (List.Subset.refl _))
  · obtain ⟨-, -, w', hw', -⟩ := hmoves
    rw [engine_of_stopped hstop] at hw'
    cases hw'

/-- Only a response pending that is remembered makes a receive start with a later deadline. -/
theorem remembered_of_startsLate (hlate : StartsLate l now a id) :
    ∃ seen, Remembered past (opened t target) seen := by
  obtain ⟨htaking, w, hw, hcall, hne⟩ := hlate
  obtain ⟨⟨own, call⟩, hcalls, rfl⟩ := List.mem_map.mp htaking
  have hinput := input?_of_taking hcalls
  rcases (step_act now a l).turn_or_quiet with
    ⟨e, e', input, alive, alive', hinput', turn⟩ | ⟨hnone, -⟩
  · rw [hinput] at hinput'
    cases hinput'
    have hnew : w ∉ e.receives := by
      intro hmem
      refine (fresh_of_nodup h distinct hinput).new own (by simp [Engine.Input.calls]) ?_
      rw [engine_of_running alive]
      exact Engine.mem_waiting.mpr ⟨.receive, List.mem_map.mpr ⟨w, hmem, hcall⟩⟩
    rw [engine_of_running alive'] at hw
    obtain ⟨seen, hseen⟩ := turn.remembers hw hnew hne
    have halive : (actAll past (opened t target)).1.phase = .running e := by rw [h, alive]
    exact ⟨seen, (pendingAt_iff_remembered past halive seen).mp hseen⟩
  · rw [hinput] at hnone
    cases hnone

end

theorem remembersFrame_of_remembered {past : List (Instant × Act)} {start : Link} {seen : Instant}
    (h : Remembered past start seen) : ∃ f l, RemembersFrame past start seen f l := by
  obtain ⟨before, a, since, heq, hreminds, hsince⟩ := h
  obtain ⟨f, rfl, -⟩ := dispatch_of_reminds hreminds
  rw [actAll_concat] at hsince
  exact ⟨f, _, before, since, heq, rfl, hreminds, hsince⟩

/-- What comes later than the response pending that is remembered is none. -/
theorem not_later_remembersFrame {before since before' since' : List (Instant × Act)}
    {start : Link} {x x' : Instant × Act} (heq : before ++ x :: since = before' ++ x' :: since')
    (hlt : before.length < before'.length)
    (hsince : Throughout Mindful since ((actAll before start).1.act x.1 x.2).1)
    (hreminds : (actAll before' start).1.reminds x'.2 = true) : False := by
  have hearly : before ++ [x] <+: before ++ x :: since := ⟨since, by simp⟩
  have hlater : before' <+: before ++ x :: since := ⟨x' :: since', heq.symm⟩
  have hlength : (before ++ [x]).length ≤ before'.length := by simpa using Nat.succ_le_of_lt hlt
  obtain ⟨between, rfl⟩ := List.prefix_of_prefix_length_le hearly hlater hlength
  -- `x'` is one of the acts since `x`, all of which leave the memory as it is
  have hbetween : since = between ++ x' :: since' := by simpa using heq
  rw [hbetween, throughout_append] at hsince
  have hmindful := hsince.2.1.1
  rw [actAll_append, actAll_concat] at hreminds
  rw [hreminds] at hmindful
  cases hmindful

/-- One response pending at most is remembered. -/
theorem remembersFrame_unique {past : List (Instant × Act)} {start l l' : Link}
    {seen seen' : Instant} {f f' : Frame} (h : RemembersFrame past start seen f l)
    (h' : RemembersFrame past start seen' f' l') : f = f' ∧ l = l' := by
  obtain ⟨before, since, heq, rfl, hreminds, hsince⟩ := h
  obtain ⟨before', since', heq', rfl, hreminds', hsince'⟩ := h'
  have hboth := heq.symm.trans heq'
  rcases Nat.lt_trichotomy before.length before'.length with hlt | hlen | hgt
  · exact (not_later_remembersFrame hboth hlt hsince hreminds').elim
  · obtain ⟨rfl, hrest⟩ := List.append_inj hboth hlen
    cases hrest
    exact ⟨rfl, rfl⟩
  · exact (not_later_remembersFrame hboth.symm hgt hsince' hreminds).elim

/-! ## A run -/

/-- The receives that the engine takes at an act, each with the target of that moment. -/
def takingReceive (l : Link) (now : Instant) (a : Act) : List (CallId × Address) :=
  ((taking l now a).filter (·.2.kind = .receive)).map fun x => (x.1, l.target)

/-- The receives that the engine has taken, with their targets. -/
def receivesTaken (past : List (Instant × Act)) (start : Link) : List (CallId × Address) :=
  log takingReceive past start

/-- The receive `id` has to do with no other sender: it returns only responses of this one, and
only response pendings of this one move its deadline, at its start or later. -/
structure BoundTo (sender : Address) (id : CallId) (past : List (Instant × Act)) (start : Link) :
    Prop where
  returned : ∀ octets, ⟨id, .frame octets⟩ ∈ (actAll past start).2.replies →
    frameSource? octets = some sender
  moved : AtEach (fun before now a => Moves (actAll before start).1 now a id →
    ∃ f, a = .dispatch f ∧ f.isPendingOf start.tuning sender = true) past
  first : AtEach (fun before now a => StartsLate (actAll before start).1 now a id →
    ∃ seen f l, RemembersFrame before start seen f l ∧ f.isPendingOf start.tuning sender = true) past

/-- `sender` is the target whenever something happens to the receive `id`: when a response is
returned to it, when its deadline moves, and when the response pending comes that it starts
with. -/
structure TargetKept (sender : Address) (id : CallId) (past : List (Instant × Act))
    (start : Link) : Prop where
  returned : AtEach (fun before now a =>
    ((actAll before start).1.act now a).2.returnedBy id ≠ [] →
    (actAll before start).1.target = sender) past
  moved : AtEach (fun before now a => Moves (actAll before start).1 now a id →
    (actAll before start).1.target = sender) past
  first : AtEach (fun before now a => StartsLate (actAll before start).1 now a id →
    ∀ seen f l, RemembersFrame before start seen f l → l.target = sender) past

theorem returnedBy_ne_nil {octets : Octets} {id : CallId}
    (h : ⟨id, .frame octets⟩ ∈ effect.replies) : effect.returnedBy id ≠ [] := by
  have hcall : (⟨id, .frame octets⟩ : Reply) ∈ effect.replies.filter (·.call = id) :=
    List.mem_filter.mpr ⟨h, by simp⟩
  exact List.ne_nil_of_mem (List.mem_filterMap.mpr ⟨_, hcall, rfl⟩)

theorem mem_replies_of_returnedBy {id : CallId} (h : effect.returnedBy id ≠ []) :
    ∃ octets, ⟨id, .frame octets⟩ ∈ effect.replies := by
  obtain ⟨octets, hmem⟩ := List.exists_mem_of_ne_nil _ h
  obtain ⟨⟨call, answer⟩, hfiltered, hframe⟩ := List.mem_filterMap.mp hmem
  obtain ⟨hr, hcall⟩ := List.mem_filter.mp hfiltered
  cases answer with
  | frame octets =>
    obtain rfl : call = id := by simpa using hcall
    exact ⟨octets, hr⟩
  | _ => cases hframe

theorem mem_replies_actAll {past : List (Instant × Act)} {start : Link} {r : Reply} :
    r ∈ (actAll past start).2.replies ↔ ∃ before now a, before ++ [(now, a)] <+: past ∧
      r ∈ ((actAll before start).1.act now a).2.replies := by
  induction past using List.reverseRecOn with
  | nil =>
    constructor
    · intro h
      cases h
    · rintro ⟨before, now, a, hpart, -⟩
      have := hpart.length_le
      simp at this
  | append_singleton past x ih =>
    obtain ⟨now, a⟩ := x
    rw [actAll_concat, Effect.replies_append, List.mem_append, ih]
    constructor
    · rintro (⟨before, now', a', hpart, hr⟩ | hr)
      · exact ⟨before, now', a', hpart.trans (List.prefix_append _ _), hr⟩
      · exact ⟨past, now, a, List.prefix_rfl, hr⟩
    · rintro ⟨before, now', a', hpart, hr⟩
      rcases List.prefix_concat_iff.mp hpart with heq | hpart
      · obtain ⟨rfl, hlast⟩ := List.append_inj' heq rfl
        cases hlast
        exact .inr hr
      · exact .inl ⟨before, now', a', hpart, hr⟩

theorem RemembersFrame.isPendingOf {past : List (Instant × Act)} {start l : Link} {seen : Instant}
    {f : Frame} (h : RemembersFrame past start seen f l) :
    f.isPendingOf start.tuning l.target = true := by
  obtain ⟨before, since, -, rfl, hreminds, -⟩ := h
  obtain ⟨f', hf, hpending⟩ := dispatch_of_reminds hreminds
  cases hf
  rwa [tuning_actAll] at hpending

section
variable {t : Tuning} {target sender : Address} {past : List (Instant × Act)} {id : CallId}

theorem boundTo_of_targetKept (distinct : (issued past).Nodup)
    (h : TargetKept sender id past (opened t target)) : BoundTo sender id past (opened t target) := by
  have hbefore : ∀ {before now a}, before ++ [(now, a)] <+: past → (issued before).Nodup :=
    fun hpart => distinct_of_prefix ((List.prefix_append _ _).trans hpart) distinct
  refine ⟨?_, atEach_iff.mpr ?_, atEach_iff.mpr ?_⟩
  · intro octets hr
    obtain ⟨before, now, a, hpart, hr⟩ := mem_replies_actAll.mp hr
    rw [(step_act now a _).frameSource?_eq hr]
    exact congrArg some (atEach_iff.mp h.returned before now a hpart (returnedBy_ne_nil hr))
  · intro before now a hpart hmoves
    obtain ⟨f, rfl, hpending⟩ := pending_of_moves rfl (hbefore hpart) hmoves
    rw [atEach_iff.mp h.moved before now _ hpart hmoves] at hpending
    exact ⟨f, rfl, hpending⟩
  · intro before now a hpart hlate
    obtain ⟨seen, hremembered⟩ := remembered_of_startsLate rfl (hbefore hpart) hlate
    obtain ⟨f, l, hframe⟩ := remembersFrame_of_remembered hremembered
    have hpending := hframe.isPendingOf
    rw [atEach_iff.mp h.first before now a hpart hlate seen f l hframe] at hpending
    exact ⟨seen, f, l, hframe, hpending⟩

theorem targetKept_of_boundTo (distinct : (issued past).Nodup)
    (h : BoundTo sender id past (opened t target)) : TargetKept sender id past (opened t target) := by
  have hbefore : ∀ {before now a}, before ++ [(now, a)] <+: past → (issued before).Nodup :=
    fun hpart => distinct_of_prefix ((List.prefix_append _ _).trans hpart) distinct
  refine ⟨atEach_iff.mpr ?_, atEach_iff.mpr ?_, atEach_iff.mpr ?_⟩
  · intro before now a hpart hreturned
    obtain ⟨octets, hr⟩ := mem_replies_of_returnedBy hreturned
    have hsource := h.returned octets (mem_replies_actAll.mpr ⟨before, now, a, hpart, hr⟩)
    rw [(step_act now a _).frameSource?_eq hr] at hsource
    exact Option.some.inj hsource
  · intro before now a hpart hmoves
    obtain ⟨f, rfl, hpending⟩ := atEach_iff.mp h.moved before now a hpart hmoves
    obtain ⟨f', hf, hpending'⟩ := pending_of_moves rfl (hbefore hpart) hmoves
    cases hf
    exact isPendingOf_unique hpending' hpending
  · intro before now a hpart hlate seen f l hframe
    obtain ⟨seen', f', l', hframe', hpending⟩ := atEach_iff.mp h.first before now a hpart hlate
    obtain ⟨rfl, rfl⟩ := remembersFrame_unique hframe hframe'
    exact isPendingOf_unique hframe.isPendingOf hpending

end

/-- A receive is bound to the target under which it was taken exactly as long as this is the
target whenever something happens to the receive. -/
theorem bound_iff_target_kept (t : Tuning) (target : Address) (events : List (Instant × Event))
    (distinct : (requested events).Nodup) (past : List (Instant × Act)) (l : Link) (effect : Effect)
    (point : Point events (opened t target) past l effect) :
    ∀ x ∈ receivesTaken past (opened t target),
      BoundTo x.2 x.1 past (opened t target) ↔ TargetKept x.2 x.1 past (opened t target) := by
  intro x _
  have hdistinct := point.distinct distinct
  exact ⟨targetKept_of_boundTo hdistinct, boundTo_of_targetKept hdistinct⟩

/-- While the target is another one, a response pending comes of each. The first target is set
again before the next response pending and the response. -/
def restoredRun : List (Instant × Event) :=
  [(0, .request 1 (.receive (some (.ofMillis 200)))), (0, .take), (1, .retarget 0x0690),
    (2, .read [0x02, 0xFD, 0x80, 0x01, 0, 0, 0, 7, 0x06, 0x80, 0x0E, 0x00, 0x7F, 0x31, 0x78]),
    (3, .retarget 0x0680),
    (4, .read [0x02, 0xFD, 0x80, 0x01, 0, 0, 0, 7, 0x06, 0x90, 0x0E, 0x00, 0x7F, 0x31, 0x78]),
    (5, .read [0x02, 0xFD, 0x80, 0x01, 0, 0, 0, 7, 0x06, 0x80, 0x0E, 0x00, 0x7F, 0x31, 0x78]),
    (6, .read [0x02, 0xFD, 0x80, 0x01, 0, 0, 0, 5, 0x06, 0x80, 0x0E, 0x00, 0x71])]

theorem restoredRun_bound :
    BoundTo 0x0680 1 (history restoredRun (opened (.ofSettings 0x0E00 {}) 0x0680))
      (opened (.ofSettings 0x0E00 {}) 0x0680) := by
  have htaken : (1, 0x0680) ∈ receivesTaken
      (history restoredRun (opened (.ofSettings 0x0E00 {}) 0x0680))
      (opened (.ofSettings 0x0E00 {}) 0x0680) := by decide +kernel
  refine (bound_iff_target_kept _ _ restoredRun (by decide) _ _ _ (point_run _ _) _ htaken).mpr
    ⟨by decide +kernel, by decide +kernel, ?_⟩
  -- nothing is remembered when the receive is taken
  have hnever : AtEach (fun before now a => ¬StartsLate (actAll before
      (opened (.ofSettings 0x0E00 {}) 0x0680)).1 now a 1)
      (history restoredRun (opened (.ofSettings 0x0E00 {}) 0x0680)) := by decide +kernel
  exact fun i hi hlate => absurd hlate (hnever i hi)

/-- The target changes while a receive waits, and the new target sends a response. -/
def divertedRun : List (Instant × Event) :=
  [(0, .request 1 (.receive none)), (0, .take), (1, .retarget 0x0690),
    (2, .read [0x02, 0xFD, 0x80, 0x01, 0, 0, 0, 6, 0x06, 0x90, 0x0E, 0x00, 0x50, 0x03])]

/-- The receive was taken under the first target and returns the response of the second. -/
theorem divertedRun_unbound :
    (requested divertedRun).Nodup ∧
      (1, 0x0680) ∈ receivesTaken (history divertedRun (opened (.ofSettings 0x0E00 {}) 0x0680))
        (opened (.ofSettings 0x0E00 {}) 0x0680) ∧
      ⟨1, .frame [0x02, 0xFD, 0x80, 0x01, 0, 0, 0, 6, 0x06, 0x90, 0x0E, 0x00, 0x50, 0x03]⟩ ∈
        (run divertedRun (opened (.ofSettings 0x0E00 {}) 0x0680)).2.replies ∧
      ¬BoundTo 0x0680 1 (history divertedRun (opened (.ofSettings 0x0E00 {}) 0x0680))
        (opened (.ofSettings 0x0E00 {}) 0x0680) := by
  have hreply : ⟨1, .frame [0x02, 0xFD, 0x80, 0x01, 0, 0, 0, 6, 0x06, 0x90, 0x0E, 0x00, 0x50,
      0x03]⟩ ∈ (run divertedRun (opened (.ofSettings 0x0E00 {}) 0x0680)).2.replies := by
    decide +kernel
  refine ⟨by decide, by decide +kernel, hreply, ?_⟩
  intro hbound
  rw [run_eq_actAll] at hreply
  have hsource := hbound.returned _ hreply
  revert hsource
  decide

/-- A response pending that is remembered names no sender: it counts for a receive that is taken
under another target. -/
example :
    StartsLate (run [(0, .read [0x02, 0xFD, 0x80, 0x01, 0, 0, 0, 7, 0x06, 0x80, 0x0E, 0x00, 0x7F,
        0x31, 0x78]), (1, .retarget 0x0690), (1, .request 1 (.receive (some (.ofMillis 200))))]
      (opened (.ofSettings 0x0E00 {}) 0x0680)).1 1 .take 1 := by
  decide +kernel

end Link
end Doip
