import Doip.Proofs.Link.Binding
import Mathlib.Data.ENat.Lattice

/-! # What a turn does to deadlines

A deadline is computed anew at each response pending, from the time of that moment, and a new
receive takes the later one of two. That this shortens no wait depends on the order of time:
`Timely` says how far the deadlines of receives can lie, and with it `Turn.timer_origin` that a
turn moves deadlines to later times only. No deadline at all is the latest of all (`endOf`). -/
namespace Doip

theorem Duration.le_longer_left (a b : Duration) : a.nanos ≤ (a.longer b).nanos := by
  rw [nanos_longer]
  exact Nat.le_max_left _ _

theorem Duration.le_longer_right (a b : Duration) : b.nanos ≤ (a.longer b).nanos := by
  rw [nanos_longer]
  exact Nat.le_max_right _ _

/-- When a deadline comes. One that does not exist never does. -/
def endOf : Option Instant → ℕ∞
  | some deadline => (deadline : ℕ∞)
  | none => ⊤

@[simp] theorem endOf_some (deadline : Instant) : endOf (some deadline) = (deadline : ℕ∞) := rfl

@[simp] theorem endOf_none : endOf none = ⊤ := rfl

theorem isDue_iff {now : Instant} {deadline : Option Instant} :
    isDue now deadline = true ↔ endOf deadline ≤ (now : ℕ∞) := by
  cases deadline with
  | none => simp [isDue]
  | some deadline => simp [isDue]

/-- The span has passed since `start`, and the clock can hold its end. -/
def Elapsed (start : Instant) (span : Nat) (now : Instant) : Prop :=
  start + span < Instant.limit ∧ start + span ≤ now

theorem elapsed_iff {start now : Instant} {span : Duration} :
    Elapsed start span.nanos now ↔ endOf (deadlineAfter start (some span)) ≤ (now : ℕ∞) := by
  simp only [Elapsed, deadlineAfter, Option.bind_some, Instant.add?]
  by_cases fits : start + span.nanos < Instant.limit
  · rw [if_pos fits, endOf_some, Nat.cast_le]
    exact and_iff_right fits
  · simp [fits]

theorem endOf_deadlineAfter_mono {start later : Instant} {span longer : Duration}
    (hstart : start ≤ later) (hspan : span.nanos ≤ longer.nanos) :
    endOf (deadlineAfter start (some span)) ≤ endOf (deadlineAfter later (some longer)) := by
  have hend : start + span.nanos ≤ later + longer.nanos := Nat.add_le_add hstart hspan
  simp only [deadlineAfter, Option.bind_some, Instant.add?]
  by_cases fits : later + longer.nanos < Instant.limit
  · rw [if_pos fits, if_pos (Nat.lt_of_le_of_lt hend fits)]
    exact Nat.cast_le.mpr hend
  · rw [if_neg fits]
    exact le_top

namespace ReceiveWait

/-- What is remembered puts the deadline off, and never brings it forward. -/
theorem endOf_extendFrom (w : ReceiveWait) (seen : Instant) (p2Star : Duration) :
    endOf (w.extendFrom seen p2Star).deadline =
      max (endOf w.deadline) (endOf (deadlineAfter seen (some p2Star))) := by
  unfold extendFrom
  split
  · rename_i own extended hown hextended
    rw [hown, hextended]
    exact Nat.mono_cast.map_max
  · rename_i hnone
    cases hown : w.deadline with
    | none => simp
    | some own =>
      cases hextended : deadlineAfter seen (some p2Star) with
      | none => simp
      | some extended => exact absurd hextended (hnone own extended hown)

@[simp] theorem timeout_extend (w : ReceiveWait) (now : Instant) (p2Star : Duration) :
    (w.extend now p2Star).timeout = w.timeout := by
  unfold extend
  split <;> rfl

theorem deadline_extend {w : ReceiveWait} {timeout : Duration} (h : w.timeout = some timeout)
    (now : Instant) (p2Star : Duration) :
    (w.extend now p2Star).deadline = deadlineAfter now (some (timeout.longer p2Star)) := by
  simp [extend, h]

end ReceiveWait

/-- How long a call waits at most. A collection does not fail when its time is over. -/
def Call.timeout? (t : Tuning) : Call → Option Duration
  | .activate _ => some t.activationTimeout
  | .send _ _ timeout => timeout
  | .receive timeout => timeout
  | .collect _ => none

namespace Engine

/-- The calls that fail when their time is over, each with its deadline. -/
def timers (e : Engine) : List (CallId × Option Instant) :=
  (e.activation.toList.map fun w => (w.call, w.deadline)) ++
    (e.acks.map fun w => (w.call, w.deadline)) ++ e.receives.map fun w => (w.call, w.deadline)

variable {t : Tuning} {target : Address} {now later : Instant} {e e' : Engine} {input : Input}
  {effect : Effect} {id : CallId} {deadline deadline' : Option Instant}

theorem timers_sublist (e : Engine) : (e.timers.map (·.1)).Sublist e.waiting := by
  simp only [timers, waiting, List.map_append, List.map_map, Function.comp_def]
  exact List.sublist_append_left _ _

theorem mem_waiting_of_timers (h : (id, deadline) ∈ e.timers) : id ∈ e.waiting :=
  (timers_sublist e).subset (List.mem_map.mpr ⟨_, h, rfl⟩)

/-- A call has one deadline. -/
theorem deadline_unique (hnodup : e.waiting.Nodup) (h : (id, deadline) ∈ e.timers)
    (h' : (id, deadline') ∈ e.timers) : deadline = deadline' := by
  have heq := List.inj_on_of_nodup_map ((timers_sublist e).nodup hnodup) h h' rfl
  exact congrArg Prod.snd heq

/-- How far the deadlines of receives can lie at `now`: what a response pending would set at this
moment is no earlier. -/
structure Timely (t : Tuning) (now : Instant) (e : Engine) : Prop where
  receives : ∀ w ∈ e.receives, ∀ timeout, w.timeout = some timeout →
    endOf w.deadline ≤ endOf (deadlineAfter now (some (timeout.longer t.p2Star)))
  seen : ∀ seen, e.pendingAt = some seen → seen ≤ now

theorem timely_initial (t : Tuning) (now : Instant) : Timely t now .initial := by
  refine ⟨fun w hw => ?_, fun seen hs => ?_⟩
  · cases hw
  · cases hs

theorem Timely.mono (h : Timely t now e) (hle : now ≤ later) : Timely t later e :=
  ⟨fun w hw timeout htimeout => (h.receives w hw timeout htimeout).trans
      (endOf_deadlineAfter_mono hle (Nat.le_refl _)),
    fun seen hseen => (h.seen seen hseen).trans hle⟩

theorem Timely.of_subset (h : Timely t now e) (hreceives : e'.receives ⊆ e.receives)
    (hseen : e'.pendingAt = e.pendingAt ∨ e'.pendingAt = none) : Timely t now e' := by
  refine ⟨fun w hw => h.receives w (hreceives hw), fun seen hs => ?_⟩
  rcases hseen with hsame | hnone
  · exact h.seen seen (hsame ▸ hs)
  · rw [hnone] at hs
    cases hs

theorem timeout_receiveWait (t : Tuning) (now : Instant) (id : CallId) (timeout : Option Duration)
    (pendingAt : Option Instant) : (receiveWait t now id timeout pendingAt).timeout = timeout := by
  unfold receiveWait
  cases pendingAt with
  | none => rfl
  | some seen =>
    simp only [ReceiveWait.extendFrom]
    split <;> rfl

theorem endOf_receiveWait_some (t : Tuning) (now : Instant) (id : CallId)
    (timeout : Option Duration) (seen : Instant) :
    endOf (receiveWait t now id timeout (some seen)).deadline =
      max (endOf (deadlineAfter now timeout)) (endOf (deadlineAfter seen (some t.p2Star))) :=
  ReceiveWait.endOf_extendFrom _ _ _

/-- A receive that is taken now starts within what a response pending would set. -/
theorem endOf_receiveWait_le {timeout : Duration} {pendingAt : Option Instant}
    (hseen : ∀ seen, pendingAt = some seen → seen ≤ now) :
    endOf (receiveWait t now id (some timeout) pendingAt).deadline ≤
      endOf (deadlineAfter now (some (timeout.longer t.p2Star))) := by
  cases pendingAt with
  | none => exact endOf_deadlineAfter_mono (Nat.le_refl _) (Duration.le_longer_left _ _)
  | some seen =>
    rw [endOf_receiveWait_some]
    exact max_le (endOf_deadlineAfter_mono (Nat.le_refl _) (Duration.le_longer_left _ _))
      (endOf_deadlineAfter_mono (hseen seen rfl) (Duration.le_longer_right _ _))

theorem Turn.timely (h : Turn t target now e input e' effect) (ht : Timely t now e) :
    Timely t now e' := by
  cases h with
  | sent => exact ht.of_subset (List.Subset.refl _) (.inr rfl)
  | waited =>
    refine ⟨fun w hw timeout htimeout => ?_, fun seen hs => by cases hs⟩
    rcases List.mem_append.mp hw with hold | hnew
    · exact ht.receives w hold timeout htimeout
    · rw [List.mem_singleton.mp hnew] at htimeout ⊢
      rw [timeout_receiveWait] at htimeout
      rw [htimeout]
      exact endOf_receiveWait_le ht.seen
  | extended pending source waits =>
    refine ⟨fun w hw timeout htimeout => ?_, ht.seen⟩
    rcases List.mem_cons.mp hw with rfl | hw
    · rw [ReceiveWait.timeout_extend] at htimeout
      rw [ReceiveWait.deadline_extend htimeout]
    · exact ht.receives w (by simp [waits, hw]) timeout htimeout
  | remembered =>
    refine ⟨ht.receives, fun seen hs => ?_⟩
    cases hs
    exact Nat.le_refl _
  | receiveFailed _ _ waits =>
    exact ht.of_subset (by simp [waits]) (.inl rfl)
  | handed _ _ _ waits => exact ht.of_subset (by simp [waits]) (.inr rfl)
  | gathered | kept =>
    refine ht.of_subset (List.Subset.refl _) ?_
    simp only [buffered]
    split
    · exact .inr rfl
    · exact .inl rfl
  | expired => exact ht.of_subset (expire_receives_sublist now e).subset (.inl rfl)
  | _ => exact ht.of_subset (List.Subset.refl _) (.inl rfl)

/-- The deadline with which a call starts to wait at `now`: no earlier than its own timeout
says, nor, for a receive, than the response pending that is remembered says. -/
structure Starts (t : Tuning) (now : Instant) (e : Engine) (call : Call)
    (deadline : Option Instant) : Prop where
  own : endOf (deadlineAfter now (call.timeout? t)) ≤ endOf deadline
  remembered : ∀ timeout, call = .receive timeout → ∀ seen, e.pendingAt = some seen →
    endOf (deadlineAfter seen (some t.p2Star)) ≤ endOf deadline

theorem starts_receiveWait (timeout : Option Duration) :
    Starts t now e (.receive timeout) (receiveWait t now id timeout e.pendingAt).deadline := by
  cases hp : e.pendingAt with
  | none =>
    refine ⟨le_refl _, fun _ _ seen hseen => ?_⟩
    rw [hp] at hseen
    cases hseen
  | some seen =>
    refine ⟨?_, fun _ _ seen' hseen => ?_⟩
    · rw [endOf_receiveWait_some]
      exact le_max_left _ _
    · rw [hp] at hseen
      cases hseen
      rw [endOf_receiveWait_some]
      exact le_max_right _ _

/-- Who waits with a deadline has waited before, with no later one, or starts to wait now. -/
theorem Turn.timer_origin (h : Turn t target now e input e' effect) (ht : Timely t now e)
    (hmem : (id, deadline') ∈ e'.timers) :
    (∃ deadline, (id, deadline) ∈ e.timers ∧ endOf deadline ≤ endOf deadline') ∨
      ∃ call, input = .start id call ∧ Starts t now e call deadline' := by
  have hkept : e'.timers ⊆ e.timers →
      ∃ deadline, (id, deadline) ∈ e.timers ∧ endOf deadline ≤ endOf deadline' :=
    fun hsub => ⟨deadline', hsub hmem, le_refl _⟩
  cases h with
  | activationStarted free =>
    simp only [timers, Option.toList_some, List.map_cons, List.map_nil, List.cons_append,
      List.nil_append, List.mem_cons] at hmem
    rcases hmem with heq | hold
    · cases heq
      exact .inr ⟨_, rfl, le_refl _, fun _ hreceive => by cases hreceive⟩
    · refine .inl ⟨deadline', ?_, le_refl _⟩
      simpa [timers, free] using hold
  | sent =>
    simp only [timers, List.map_append, List.map_cons, List.map_nil, List.mem_append,
      List.mem_singleton] at hmem
    rcases hmem with (hold | hold | heq) | hold
    · exact .inl ⟨deadline', by simp [timers, hold], le_refl _⟩
    · exact .inl ⟨deadline', by simp [timers, hold], le_refl _⟩
    · cases heq
      exact .inr ⟨_, rfl, le_refl _, fun _ hreceive => by cases hreceive⟩
    · exact .inl ⟨deadline', by simp [timers, hold], le_refl _⟩
  | waited =>
    simp only [timers, List.map_append, List.map_cons, List.map_nil, ← List.append_assoc] at hmem
    rcases List.mem_append.mp hmem with hold | hnew
    · exact .inl ⟨deadline', hold, le_refl _⟩
    · obtain ⟨hid, rfl⟩ := Prod.mk.inj (List.mem_singleton.mp hnew)
      rw [call_receiveWait] at hid
      subst hid
      exact .inr ⟨_, rfl, starts_receiveWait _⟩
  | @extended f m wait receives pending source waits =>
    -- the only deadline of a call that waits already that is computed anew
    refine .inl ?_
    simp only [timers, List.map_cons, List.mem_append, List.mem_cons] at hmem
    rcases hmem with hold | heq | hold
    · exact ⟨deadline', List.mem_append.mpr (.inl (List.mem_append.mpr hold)), le_refl _⟩
    · obtain ⟨rfl, rfl⟩ := Prod.mk.inj heq
      refine ⟨wait.deadline, by simp [timers, waits], ?_⟩
      cases htimeout : wait.timeout with
      | none => simp [ReceiveWait.extend, htimeout]
      | some timeout =>
        rw [ReceiveWait.deadline_extend htimeout]
        exact ht.receives wait (by simp [waits]) timeout htimeout
    · exact ⟨deadline', by simp [timers, waits, hold], le_refl _⟩
  | activationAnswered _ waits | activationNacked _ waits | sendSettled _ _ waits
  | sendNacked _ _ waits | receiveFailed _ _ waits | handed _ _ _ waits =>
    refine .inl (hkept ?_)
    intro x hx
    simp only [timers, waits, List.mem_append, List.map_cons, List.mem_cons, Option.toList_some,
      Option.toList_none, List.map_nil, List.not_mem_nil] at hx ⊢
    tauto
  | expired =>
    refine .inl (hkept ?_)
    simp only [timers, expire, Option.toList_filter]
    exact ((((List.filter_sublist.map _).append (List.filter_sublist.map _)).append
      (List.filter_sublist.map _))).subset
  | _ => exact .inl (hkept (List.Subset.refl _))

theorem activationAnswer_ne_timeout (t : Tuning) (r : ActivationResponse) :
    activationAnswer t r ≠ .failed .timeout := by
  unfold activationAnswer
  split
  · simp
  · split <;> simp

/-- Only a deadline that has come makes a call time out. -/
theorem Turn.due_of_timedOut (h : Turn t target now e input e' effect)
    (hr : timedOut id ∈ effect.replies) :
    input = .expire ∧ ∃ deadline, (id, deadline) ∈ e.timers ∧ endOf deadline ≤ (now : ℕ∞) := by
  cases h with
  | expired =>
    refine ⟨rfl, ?_⟩
    simp only [expire, List.mem_append, List.mem_map, List.mem_filter, timedOut] at hr
    rcases hr with ((⟨w, ⟨hw, hdue⟩, heq⟩ | ⟨w, ⟨hw, hdue⟩, heq⟩) | ⟨w, ⟨hw, hdue⟩, heq⟩) |
      ⟨c, -, heq⟩
    all_goals cases heq
    · exact ⟨w.deadline, List.mem_append_left _ (List.mem_append_left _
        (List.mem_map.mpr ⟨w, hw, rfl⟩)), isDue_iff.mp hdue⟩
    · exact ⟨w.deadline, List.mem_append_left _ (List.mem_append_right _
        (List.mem_map.mpr ⟨w, hw, rfl⟩)), isDue_iff.mp hdue⟩
    · exact ⟨w.deadline, List.mem_append_right _ (List.mem_map.mpr ⟨w, hw, rfl⟩),
        isDue_iff.mp hdue⟩
  | activationAnswered =>
    exact absurd (Reply.mk.inj (List.mem_singleton.mp hr)).2.symm (activationAnswer_ne_timeout t _)
  | sendSettled message settles =>
    cases settles <;> simp [Effect.reply, timedOut] at hr
  | _ =>
    simp [Effect.reply, Effect.none, Effect.send, timedOut, Failure.ofWireError] at hr

/-- A response pending restarts the timer of the receive that waits longest, and does nothing else
to receives. -/
theorem Turn.receives_eq_of_prolongs (h : Turn t target now e input e' effect)
    (hp : prolongs t target input = true) :
    e'.receives = e.receives.modifyHead fun w => w.extend now t.p2Star := by
  have hunrelated : ∀ {f : Frame}, (∀ m, f.message ≠ .ok (.diagnostic m)) →
      prolongs t target (.dispatch f) ≠ true := by
    intro f hf
    rw [prolongs_of_unrelated hf]
    exact Bool.false_ne_true
  cases h with
  | extended pending source waits => rw [waits, List.modifyHead_cons]
  | remembered _ _ idle => simp only [idle, List.modifyHead_nil]
  | skipped other silent =>
    obtain ⟨m, hm, hsource⟩ := (Option.any_eq_true _ _).mp hp
    exact absurd (by simpa using hsource) (silent m hm)
  | aliveAnswered message | activationAnswered message | activationNacked message
  | sendNacked message | receiveFailed message =>
    exact absurd hp (hunrelated (by simp [message]))
  | sendSettled message settles =>
    refine absurd hp (hunrelated fun m hm => ?_)
    rw [message] at hm
    cases settles <;> cases hm
  | gathered response | handed response | kept response =>
    rw [prolongs, Frame.isPendingOf_of_response? response] at hp
    cases hp
  | _ => cases hp

theorem Turn.receives_of_prolongs (h : Turn t target now e input e' effect)
    (hp : prolongs t target input = true) {w : ReceiveWait} (hw : e.receives.head? = some w) :
    w.extend now t.p2Star ∈ e'.receives := by
  obtain ⟨others, hothers⟩ := List.head?_eq_some_iff.mp hw
  rw [h.receives_eq_of_prolongs hp, hothers, List.modifyHead_cons]
  exact List.mem_cons_self

/-- Without a response pending of the target, receives wait as they did, or as they are taken. -/
theorem Turn.mem_receives_of_not_prolongs (h : Turn t target now e input e' effect)
    (hp : prolongs t target input = false) {w : ReceiveWait} (hw : w ∈ e'.receives) :
    w ∈ e.receives ∨ ∃ timeout, input = .start w.call (.receive timeout) ∧
      w = receiveWait t now w.call timeout e.pendingAt := by
  cases h with
  | waited =>
    rcases List.mem_append.mp hw with hold | hnew
    · exact .inl hold
    · rw [List.mem_singleton.mp hnew, call_receiveWait]
      exact .inr ⟨_, rfl, rfl⟩
  | extended pending source =>
    simp [prolongs, Frame.isPendingOf, pending, source] at hp
  | receiveFailed _ _ waits | handed _ _ _ waits => exact .inl (waits ▸ List.mem_cons_of_mem _ hw)
  | expired => exact .inl ((expire_receives_sublist now e).subset hw)
  | _ => exact .inl hw

/-- Receives wait with the timeouts of their calls. -/
theorem Turn.receive_origin (h : Turn t target now e input e' effect) {w : ReceiveWait}
    (hw : w ∈ e'.receives) :
    (∃ old ∈ e.receives, old.call = w.call ∧ old.timeout = w.timeout) ∨
      input = .start w.call (.receive w.timeout) := by
  cases hp : prolongs t target input with
  | true =>
    rw [h.receives_eq_of_prolongs hp] at hw
    cases hreceives : e.receives with
    | nil =>
      rw [hreceives] at hw
      cases hw
    | cons first others =>
      rw [hreceives, List.modifyHead_cons] at hw
      rcases List.mem_cons.mp hw with rfl | hold
      · exact .inl ⟨first, List.mem_cons_self, by simp, by simp⟩
      · exact .inl ⟨w, List.mem_cons_of_mem _ hold, rfl, rfl⟩
  | false =>
    rcases h.mem_receives_of_not_prolongs hp hw with hold | ⟨timeout, heq, hwait⟩
    · exact .inl ⟨w, hold, rfl, rfl⟩
    · have htimeout : w.timeout = timeout := by rw [hwait, timeout_receiveWait]
      exact .inr (htimeout ▸ heq)

end Engine
end Doip
