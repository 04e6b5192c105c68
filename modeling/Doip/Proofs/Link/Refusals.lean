import Doip.Proofs.Link.Binding

/-! # What the engine refuses, and the ends it sets

The engine refuses two calls: an activation while one waits, and a collection whose end the clock
cannot hold (`Declines`). It does nothing else about them (`act_of_declines`), and tells this to no
other call (`Step.rejects_iff`). The clock holds each end that the engine sets (`WithinClock`): a
sum that it cannot hold is noticed before it is used. -/
namespace Doip

/-- The call is refused because of what it asks for. -/
def Effect.Rejects (effect : Effect) (id : CallId) : Prop :=
  ∃ reason, ⟨id, .failed (.invalidArgument reason)⟩ ∈ effect.replies

theorem Effect.not_rejects_of_replies {effect : Effect} {id : CallId} (h : effect.replies = []) :
    ¬effect.Rejects id := by
  rintro ⟨reason, hr⟩
  rw [h] at hr
  cases hr

theorem Effect.rejects_reply {call id : CallId} {answer : Answer} :
    (Effect.reply call answer).Rejects id ↔
      call = id ∧ ∃ reason, answer = .failed (.invalidArgument reason) := by
  simp [Rejects, Effect.reply, eq_comm]

theorem Effect.not_rejects_reply {call id : CallId} {answer : Answer}
    (h : ∀ reason, answer ≠ .failed (.invalidArgument reason)) :
    ¬(Effect.reply call answer).Rejects id := by
  rw [rejects_reply]
  rintro ⟨-, reason, hanswer⟩
  exact h reason hanswer

/-! ## Sums that the clock can hold -/

theorem Instant.add?_eq_some_iff {now later : Instant} {d : Duration} :
    Instant.add? now d = some later ↔ later = now + d.nanos ∧ later < Instant.limit := by
  unfold Instant.add?
  split
  · rename_i hfits
    rw [Option.some.injEq]
    exact ⟨fun h => h ▸ ⟨rfl, hfits⟩, fun h => h.1.symm⟩
  · rename_i hlate
    refine iff_of_false nofun ?_
    rintro ⟨rfl, hfits⟩
    exact hlate hfits

/-- A deadline that the clock can hold, if there is one. -/
def Held (deadline : Option Instant) : Prop := ∀ d, deadline = some d → d < Instant.limit

theorem held_deadlineAfter (now : Instant) (timeout : Option Duration) :
    Held (deadlineAfter now timeout) := by
  intro d hd
  obtain ⟨span, -, hadd⟩ := Option.bind_eq_some_iff.mp hd
  exact (Instant.add?_eq_some_iff.mp hadd).2

theorem ReceiveWait.held_extend {w : ReceiveWait} (h : Held w.deadline) (now : Instant)
    (p2Star : Duration) : Held (w.extend now p2Star).deadline := by
  unfold extend
  split
  · rename_i timeout _
    exact held_deadlineAfter now (some (timeout.longer p2Star))
  · exact h

theorem ReceiveWait.held_extendFrom {w : ReceiveWait} (h : Held w.deadline) (seen : Instant)
    (p2Star : Duration) : Held (w.extendFrom seen p2Star).deadline := by
  unfold extendFrom
  split
  · rename_i own extended hown hextended
    rintro d ⟨⟩
    exact max_lt (h _ hown) (held_deadlineAfter _ _ _ hextended)
  · nofun

namespace Engine

variable {t : Tuning} {target : Address} {now : Instant} {e e' : Engine} {input : Input}
  {effect : Effect} {id : CallId} {window : Duration} {deadline : Instant}

/-- The end of a collection is the exact sum. If this is no duration, the clock cannot hold it
either. -/
theorem collectionEnd?_eq_some_iff :
    collectionEnd? t now window = some deadline ↔
      deadline = now + window.nanos + t.grace.nanos ∧ deadline < Instant.limit := by
  have hlimits : Instant.limit ≤ Duration.limit := by decide
  constructor
  · intro h
    obtain ⟨sum, hsum, hend⟩ := Option.bind_eq_some_iff.mp h
    rw [Instant.add?_eq_some_iff, Duration.nanos_of_add? hsum, ← Nat.add_assoc] at hend
    exact hend
  · rintro ⟨rfl, hfits⟩
    have hspan : window.nanos + t.grace.nanos ≤ Duration.limit := by
      rw [Nat.add_assoc] at hfits
      exact ((Nat.le_add_left _ now).trans hfits.le).trans hlimits
    obtain ⟨sum, hsum⟩ : ∃ sum, window.add? t.grace = some sum := Duration.exists_add? hspan
    refine Option.bind_eq_some_iff.mpr ⟨sum, hsum, Instant.add?_eq_some_iff.mpr ⟨?_, hfits⟩⟩
    rw [Duration.nanos_of_add? hsum, Nat.add_assoc]

theorem collectionEnd?_eq_none_iff :
    collectionEnd? t now window = none ↔
      Instant.limit ≤ now + window.nanos + t.grace.nanos := by
  rw [Option.eq_none_iff_forall_ne_some]
  constructor
  · intro h
    by_contra hfits
    exact h _ (collectionEnd?_eq_some_iff.mpr ⟨rfl, Nat.lt_of_not_le hfits⟩)
  · intro hlate deadline h
    obtain ⟨rfl, hfits⟩ := collectionEnd?_eq_some_iff.mp h
    exact Nat.not_le.mpr hfits hlate

/-- What the engine cannot do now. -/
def Declines (grace : Duration) (now : Instant) (e : Engine) : Call → Prop
  | .activate _ => e.activation ≠ none
  | .collect window => Instant.limit ≤ now + window.nanos + grace.nanos
  | .send .. | .receive _ => False

/-- The ends that the engine has set. -/
structure WithinClock (e : Engine) : Prop where
  activation : ∀ w, e.activation = some w → Held w.deadline
  acks : ∀ w ∈ e.acks, Held w.deadline
  receives : ∀ w ∈ e.receives, Held w.deadline
  collections : ∀ c ∈ e.collections, c.deadline < Instant.limit

theorem withinClock_initial : WithinClock .initial := ⟨nofun, nofun, nofun, nofun⟩

theorem held_receiveWait (timeout : Option Duration) (pendingAt : Option Instant) :
    Held (receiveWait t now id timeout pendingAt).deadline := by
  cases pendingAt with
  | none => exact held_deadlineAfter now timeout
  | some seen => exact ReceiveWait.held_extendFrom (held_deadlineAfter now timeout) _ _

theorem Turn.withinClock (h : Turn t target now e input e' effect) (hclock : WithinClock e) :
    WithinClock e' := by
  obtain ⟨activation, acks, receives, collections⟩ := hclock
  cases h with
  | activationStarted =>
    refine ⟨?_, acks, receives, collections⟩
    rintro w ⟨⟩
    exact held_deadlineAfter now (some t.activationTimeout)
  | sent =>
    exact ⟨activation, List.forall_mem_append.mpr ⟨acks,
      List.forall_mem_singleton.mpr (held_deadlineAfter _ _)⟩, receives, collections⟩
  | waited =>
    exact ⟨activation, acks, List.forall_mem_append.mpr ⟨receives,
      List.forall_mem_singleton.mpr (held_receiveWait _ _)⟩, collections⟩
  | collectionOpened fits =>
    exact ⟨activation, acks, receives, List.forall_mem_append.mpr ⟨collections,
      List.forall_mem_singleton.mpr (collectionEnd?_eq_some_iff.mp fits).2⟩⟩
  | activationAnswered | activationNacked => exact ⟨nofun, acks, receives, collections⟩
  | sendSettled _ _ waits | sendNacked _ _ waits =>
    rw [waits] at acks
    exact ⟨activation, (List.forall_mem_cons.mp acks).2, receives, collections⟩
  | receiveFailed _ _ waits | handed _ _ _ waits =>
    rw [waits] at receives
    exact ⟨activation, acks, (List.forall_mem_cons.mp receives).2, collections⟩
  | extended _ _ waits =>
    rw [waits] at receives
    obtain ⟨oldest, others⟩ := List.forall_mem_cons.mp receives
    exact ⟨activation, acks,
      List.forall_mem_cons.mpr ⟨ReceiveWait.held_extend oldest _ _, others⟩, collections⟩
  | gathered => exact ⟨activation, acks, receives, List.forall_mem_map.mpr collections⟩
  | expired =>
    refine ⟨fun w hw => activation w (Option.filter_eq_some_iff.mp hw).1, ?_, ?_, ?_⟩
    · exact fun w hw => acks w (List.mem_of_mem_filter hw)
    · exact fun w hw => receives w (List.mem_of_mem_filter hw)
    · exact fun c hc => collections c (List.mem_of_mem_filter hc)
  | _ => exact ⟨activation, acks, receives, collections⟩

theorem activationAnswer_ne_invalidArgument (t : Tuning) (r : ActivationResponse)
    (reason : String) : activationAnswer t r ≠ .failed (.invalidArgument reason) := by
  unfold activationAnswer
  split
  · simp
  · split <;> simp

theorem not_rejects_expire (now : Instant) (e : Engine) (id : CallId) :
    ¬(e.expire now).2.Rejects id := by
  rintro ⟨reason, hr⟩
  rcases expired_cases hr with ⟨call, heq⟩ | ⟨c, -, heq⟩
  · cases heq
  · cases heq

theorem exists_start_iff {id' : CallId} {call : Call} :
    (∃ call', Input.start id' call = .start id call' ∧ Declines t.grace now e call') ↔
      id' = id ∧ Declines t.grace now e call := by
  simp

/-- The engine tells a call that it asks for too much if it declines it, and otherwise never. -/
theorem Turn.rejects_iff (h : Turn t target now e input e' effect) :
    effect.Rejects id ↔ ∃ call, input = .start id call ∧ Declines t.grace now e call := by
  cases h with
  | activationRefused busy =>
    rw [exists_start_iff, Effect.rejects_reply, Declines, busy]
    simp
  | collectionRefused late =>
    rw [exists_start_iff, Effect.rejects_reply, Declines]
    simp [collectionEnd?_eq_none_iff.mp late]
  | activationStarted free =>
    rw [exists_start_iff]
    exact iff_of_false (Effect.not_rejects_of_replies rfl) fun h => h.2 free
  | collectionOpened fits =>
    rw [exists_start_iff]
    refine iff_of_false (Effect.not_rejects_of_replies rfl) fun h => ?_
    rw [collectionEnd?_eq_none_iff.mpr h.2] at fits
    cases fits
  | sent | waited =>
    rw [exists_start_iff]
    exact iff_of_false (Effect.not_rejects_of_replies rfl) fun h => h.2
  | claimed =>
    rw [exists_start_iff]
    exact iff_of_false (Effect.not_rejects_reply nofun) fun h => h.2
  | activationAnswered =>
    exact iff_of_false (Effect.not_rejects_reply (activationAnswer_ne_invalidArgument _ _)) nofun
  | sendSettled message settles =>
    refine iff_of_false (Effect.not_rejects_reply fun reason => ?_) nofun
    cases settles with
    | positive | negative => exact nofun
  | expired => exact iff_of_false (not_rejects_expire now e id) nofun
  | activationNacked | sendNacked | receiveFailed | handed =>
    exact iff_of_false (Effect.not_rejects_reply nofun) nofun
  | skipped | aliveAnswered | extended | remembered | gathered | kept | refilled =>
    exact iff_of_false (Effect.not_rejects_of_replies rfl) nofun

/-- A call that is declined changes nothing. -/
theorem start_of_declines {call : Call} (h : Declines t.grace now e call) :
    ∃ reason, e.start t target now id call =
      (e, .reply id (.failed (.invalidArgument reason))) := by
  cases call with
  | activate type =>
    obtain ⟨wait, busy⟩ := Option.ne_none_iff_exists'.mp h
    exact ⟨_, by simp only [start, startActivation, busy]; rfl⟩
  | collect window =>
    exact ⟨_, by simp only [start, startCollection, collectionEnd?_eq_none_iff.mpr h]; rfl⟩
  | send | receive => exact h.elim

end Engine

namespace Link

variable {now : Instant} {l l' : Link} {a : Act} {effect : Effect} {id : CallId} {call : Call}

/-- The act of taking a call is the start of this call. -/
theorem act_of_taking (h : (id, call) ∈ taking l now a) :
    l.phase = .running l.engine ∧ ∃ queue, l.queue = .call id call :: queue ∧
      l.act now a =
        ({ l with
            queue
            phase := .running (l.engine.start l.tuning l.target now id call).1 },
          (l.engine.start l.tuning l.target now id call).2) := by
  unfold taking at h
  split at h
  · rename_i e _ _ queue running head
    cases List.mem_singleton.mp h
    rw [engine_of_running running]
    exact ⟨running, queue, head, by simp only [act, running, actRunning, takeCommand, head]⟩
  · cases h

/-- A call that is declined leaves the queue, and nothing else changes. -/
theorem act_of_declines (h : (id, call) ∈ taking l now a)
    (declines : l.engine.Declines l.tuning.grace now call) :
    ∃ reason, l.act now a =
      ({ l with queue := l.queue.tail }, .reply id (.failed (.invalidArgument reason))) := by
  obtain ⟨running, queue, head, hact⟩ := act_of_taking h
  obtain ⟨reason, hstart⟩ : ∃ reason, l.engine.start l.tuning l.target now id call =
      (l.engine, .reply id (.failed (.invalidArgument reason))) := Engine.start_of_declines declines
  refine ⟨reason, ?_⟩
  rw [hact, hstart, ← running, head]
  rfl

/-- A collection that is not declined opens with what is in the inbox. -/
theorem act_of_opened {window : Duration} (h : (id, .collect window) ∈ taking l now a)
    (fits : now + window.nanos + l.tuning.grace.nanos < Instant.limit) :
    l.act now a =
      ({ l with
          queue := l.queue.tail
          phase := .running
            { l.engine with
              inbox := []
              collections := l.engine.collections ++
                [⟨id, now + window.nanos + l.tuning.grace.nanos, l.engine.inbox⟩] } }, .none) := by
  obtain ⟨-, queue, head, hact⟩ := act_of_taking h
  have hend := Engine.collectionEnd?_eq_some_iff.mpr ⟨rfl, fits⟩
  rw [hact, head]
  simp only [Engine.start, Engine.startCollection, hend, List.tail_cons]

theorem taking_of_ne_take (h : a ≠ .take) : taking l now a = [] := by
  unfold taking
  split
  · exact absurd rfl h
  · rfl

theorem not_rejects_stop {failure : Failure} {e : Engine} {queue : List Command}
    (h : ∀ reason, failure ≠ .invalidArgument reason) :
    ¬(Effect.mk (e.failAll failure ++ failQueued failure queue) []).Rejects id := by
  rintro ⟨reason, hr⟩
  exact h reason (Answer.failed.inj (answer_of_stop hr)).symm

theorem failure_ne_invalidArgument (cause : Stop) (reason : String) :
    cause.failure ≠ .invalidArgument reason := by
  cases cause <;> exact nofun

theorem Step.rejects_iff (h : Step now l a l' effect) : effect.Rejects id ↔
    ∃ call, (id, call) ∈ taking l now a ∧ l.engine.Declines l.tuning.grace now call := by
  have hnothing : ∀ {a : Act}, taking l now a = [] →
      ¬∃ call, (id, call) ∈ taking l now a ∧ l.engine.Declines l.tuning.grace now call := by
    rintro a htaking ⟨call, hcall, -⟩
    rw [htaking] at hcall
    cases hcall
  cases h with
  | @taken e e' head' call' queue _ alive head turn =>
    have htaking : taking l now .take = [(head', call')] := by simp only [taking, alive, head]
    rw [turn.rejects_iff, engine_of_running alive, htaking]
    simp only [Engine.Input.start.injEq, List.mem_singleton, Prod.mk.injEq, and_assoc, eq_comm]
  | worked alive input_eq turn =>
    rw [turn.rejects_iff]
    refine iff_of_false ?_ (hnothing (taking_of_ne_take fun h => ?_))
    · rintro ⟨call, rfl, -⟩
      cases a <;> cases input_eq
    · subst h
      cases input_eq
  | refused =>
    exact iff_of_false (Effect.not_rejects_reply (by simp [Failure.engineStopped]))
      (hnothing (taking_of_ne_take (by simp)))
  | stopped =>
    exact iff_of_false (not_rejects_stop (failure_ne_invalidArgument _))
      (hnothing (taking_of_ne_take (by simp)))
  | shutDown alive head =>
    exact iff_of_false (not_rejects_stop (failure_ne_invalidArgument _))
      (hnothing (by simp only [taking, alive, head]))
  | idle alive empty =>
    exact iff_of_false (Effect.not_rejects_of_replies rfl)
      (hnothing (by simp only [taking, alive, empty]))
  | ended dead =>
    exact iff_of_false (Effect.not_rejects_of_replies rfl)
      (hnothing (by simp only [taking, dead]))
  | requested | shutdownRequested | retargeted =>
    exact iff_of_false (Effect.not_rejects_of_replies rfl) (hnothing (taking_of_ne_take (by simp)))

theorem Step.withinClock (h : Step now l a l' effect) (hclock : l.engine.WithinClock) :
    l'.engine.WithinClock := by
  cases h with
  | taken alive _ turn | worked alive _ turn =>
    rw [engine_of_running alive] at hclock
    exact turn.withinClock hclock
  | stopped | shutDown => exact Engine.withinClock_initial
  | _ => exact hclock

/-- The clock holds each end that is set in a run. -/
theorem withinClock_actAll (t : Tuning) (target : Address) (past : List (Instant × Act)) :
    (actAll past (opened t target)).1.engine.WithinClock :=
  actAll_keeps (fun l => l.engine.WithinClock) Step.withinClock past _ Engine.withinClock_initial

end Link
end Doip
