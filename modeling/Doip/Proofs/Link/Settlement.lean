import Doip.Proofs.Link.Act
import Doip.Proofs.Engine.Expiry
import Mathlib.Data.List.Nodup

/-! # Every call is answered once

A call is put into the queue, taken by the engine and answered, at once or after it has
waited in the container of its kind. No turn of the engine loses a call or makes a second
one of it (`Turn.answered_perm`), so that the calls put into a run are at each of its
points those in the queue, those that wait and those answered (`issued_perm`). With names
that differ this places every call (`every_call_settled_once`). -/
namespace Doip
open List (Perm)

/-- The calls that are answered. -/
def Effect.answered (effect : Effect) : List CallId := effect.replies.map (·.call)

@[simp] theorem Effect.answered_append (a b : Effect) :
    (a ++ b).answered = a.answered ++ b.answered := by
  simp [answered]

@[simp] theorem Effect.answered_none : Effect.none.answered = [] := rfl

@[simp] theorem Effect.answered_reply (id : CallId) (answer : Answer) :
    (Effect.reply id answer).answered = [id] := rfl

@[simp] theorem Effect.answered_send (octets : Octets) : (Effect.send octets).answered = [] := rfl

/-- The kinds of calls; each has a container of its own. -/
inductive CallKind where
  | activation
  | send
  | receive
  | collection
deriving DecidableEq, Repr

def Call.kind : Call → CallKind
  | .activate _ => .activation
  | .send _ _ _ => .send
  | .receive _ => .receive
  | .collect _ => .collection

namespace Engine

/-- The calls that wait in the container of a kind. -/
def waits (e : Engine) : CallKind → List CallId
  | .activation => e.activation.toList.map (·.call)
  | .send => e.acks.map (·.call)
  | .receive => e.receives.map (·.call)
  | .collection => e.collections.map (·.call)

theorem waiting_eq (e : Engine) :
    e.waiting = e.waits .activation ++ e.waits .send ++ e.waits .receive ++ e.waits .collection :=
  rfl

theorem mem_waiting {e : Engine} {id : CallId} : id ∈ e.waiting ↔ ∃ kind, id ∈ e.waits kind := by
  constructor
  · intro h
    simp only [waiting_eq, List.mem_append] at h
    obtain ((h | h) | h) | h := h
    all_goals exact ⟨_, h⟩
  · rintro ⟨kind, h⟩
    cases kind <;> simp [waiting_eq, h]

/-- The call that the engine takes with an input. -/
def Input.calls : Input → List (CallId × Call)
  | .start id call => [(id, call)]
  | _ => []

/-- The same, if the call is of this kind. -/
def Input.callsOf (input : Input) (kind : CallKind) : List CallId :=
  (input.calls.filter (·.2.kind = kind)).map (·.1)

variable {t : Tuning} {target : Address} {now : Instant} {e e' : Engine} {input : Input}
  {effect : Effect}

@[simp] theorem call_extend (w : ReceiveWait) (p2Star : Duration) :
    (w.extend now p2Star).call = w.call := by
  unfold ReceiveWait.extend
  split <;> rfl

@[simp] theorem call_receiveWait (id : CallId) (timeout : Option Duration)
    (pendingAt : Option Instant) : (receiveWait t now id timeout pendingAt).call = id := by
  unfold receiveWait
  cases pendingAt with
  | none => rfl
  | some seen =>
    simp only [ReceiveWait.extendFrom]
    split <;> rfl

@[simp] theorem waits_buffered (frame : Octets) (kind : CallKind) :
    (e.buffered t frame).waits kind = e.waits kind := by
  cases kind <;> rfl

theorem expire_perm (now : Instant) (e : Engine) :
    Perm e.waiting ((e.expire now).2.answered ++ (e.expire now).1.waiting) := by
  have hsplit := List.filter_append_perm (fun x => isDue now x.deadline) e.endings
  simp only [Effect.answered, replies_expire, waiting_eq_endings, endings_expire, List.map_map,
    Function.comp_def, ← List.map_append]
  exact (hsplit.map _).symm

/-- A turn loses no call and makes no second one of any. -/
theorem Turn.answered_perm (h : Turn t target now e input e' effect) :
    Perm (input.calls.map (·.1) ++ e.waiting) (effect.answered ++ e'.waiting) := by
  cases h with
  | expired => exact expire_perm now e
  | activationStarted free => simp [waiting, Input.calls, free]
  | activationAnswered _ waits | activationNacked _ waits => simp [waiting, Input.calls, waits]
  | sent | waited | collectionOpened =>
    rw [List.perm_iff_count]
    intro x
    simp only [Input.calls, waiting, List.map_cons, List.map_nil, List.map_append,
      List.count_append, List.count_cons, List.count_nil, Effect.answered_send,
      Effect.answered_none, call_receiveWait]
    omega
  | handed _ _ _ waits | sendSettled _ _ waits | sendNacked _ _ waits | receiveFailed _ _ waits =>
    rw [List.perm_iff_count]
    intro x
    simp only [Input.calls, waiting, waits, List.map_cons, List.map_nil, List.count_append,
      List.count_cons, List.count_nil, Effect.answered_reply]
    omega
  | extended _ _ waits => simp [waiting, Input.calls, waits]
  | kept => simp [waiting_eq, Input.calls]; rfl
  | gathered => simp [waiting, Input.calls, Function.comp_def]
  | _ => exact Perm.rfl

theorem expire_waits_sublist (now : Instant) (e : Engine) (kind : CallKind) :
    ((e.expire now).1.waits kind).Sublist (e.waits kind) := by
  cases kind with
  | activation =>
    simp only [expire, waits, Option.toList_filter]
    exact List.filter_sublist.map _
  | send | receive | collection => exact List.filter_sublist.map _

/-- The containers hold calls in the order in which they were taken: a turn adds at the end
the call it takes, and takes others out. -/
theorem Turn.waits_sublist (h : Turn t target now e input e' effect) (kind : CallKind) :
    (e'.waits kind).Sublist (e.waits kind ++ input.callsOf kind) := by
  cases h with
  | expired => exact (expire_waits_sublist now e kind).trans (List.sublist_append_left _ _)
  | activationStarted free =>
    cases kind <;> simp [waits, Input.callsOf, Input.calls, Call.kind, free]
  | sent | waited | collectionOpened =>
    cases kind <;> simp [waits, Input.callsOf, Input.calls, Call.kind]
  | handed _ _ _ hw | sendSettled _ _ hw | sendNacked _ _ hw | receiveFailed _ _ hw
  | extended _ _ hw | activationAnswered _ hw | activationNacked _ hw =>
    cases kind <;> simp [waits, Input.callsOf, Input.calls, hw]
  | gathered => cases kind <;> simp [waits, Input.callsOf, Input.calls, Function.comp_def]
  | kept =>
    rw [waits_buffered]
    exact List.sublist_append_left _ _
  | _ => exact List.sublist_append_left _ _

end Engine

namespace Link

/-! ## Calls of a run -/

/-- The calls among queued commands. -/
def queuedIn (queue : List Command) : List CallId :=
  queue.filterMap fun
    | .call id _ => some id
    | .shutdown => none

/-- The call that a caller makes at an act. -/
def Act.issued : Act → List CallId
  | .request id _ => [id]
  | _ => []

/-- The calls made so far, first call first. -/
def issued (past : List (Instant × Act)) : List CallId := past.flatMap (·.2.issued)

/-- The call that a caller makes at an event. -/
def Event.issued : Event → List CallId
  | .request id _ => [id]
  | _ => []

/-- The calls made in a run. -/
def requested (events : List (Instant × Event)) : List CallId := events.flatMap (·.2.issued)

/-- The call that the engine takes at an act. -/
def taking (l : Link) (_ : Instant) (a : Act) : List (CallId × Call) :=
  match l.phase, a, l.queue with
  | .running _, .take, .call id call :: _ => [(id, call)]
  | _, _, _ => []

/-- The calls that the engine has taken, first call first. -/
def taken (past : List (Instant × Act)) (start : Link) : List (CallId × Call) :=
  log taking past start

/-- The calls of one kind among them. -/
def takenOf (kind : CallKind) (past : List (Instant × Act)) (start : Link) : List CallId :=
  ((taken past start).filter (·.2.kind = kind)).map (·.1)

theorem issued_append (first others : List (Instant × Act)) :
    issued (first ++ others) = issued first ++ issued others := by
  simp [issued]

theorem distinct_of_prefix {before past : List (Instant × Act)} (h : before <+: past)
    (distinct : (issued past).Nodup) : (issued before).Nodup := by
  obtain ⟨rest, rfl⟩ := h
  rw [issued_append] at distinct
  exact (List.nodup_append.mp distinct).1

theorem issued_map (now : Instant) (acts : List Act) :
    issued (acts.map (now, ·)) = acts.flatMap Act.issued := by
  simp [issued, List.flatMap_map]

theorem issued_readActs (octets : Octets) (l : Link) :
    (l.readActs octets).flatMap Act.issued = [] := by
  unfold readActs
  split
  · rfl
  · split
    · rfl
    · simp only [List.flatMap_append, List.flatMap_map]
      split <;> simp [Act.issued]

theorem issued_history (events : List (Instant × Event)) (l : Link) :
    issued (history events l) = requested events := by
  induction events generalizing l with
  | nil => rfl
  | cons event events ih =>
    obtain ⟨now, event⟩ := event
    rw [history, issued_append, ih, issued_map]
    change _ = event.issued ++ requested events
    congr 1
    cases event with
    | read octets => exact issued_readActs octets l
    | _ => rfl

theorem map_call_failQueued (failure : Failure) (queue : List Command) :
    (failQueued failure queue).map (·.call) = queuedIn queue := by
  unfold failQueued queuedIn
  rw [List.map_filterMap]
  congr 1
  funext command
  cases command <;> rfl

theorem answered_stop (failure : Failure) (e : Engine) (queue : List Command) :
    (Effect.mk (e.failAll failure ++ failQueued failure queue) []).answered =
      e.waiting ++ queuedIn queue := by
  simp [Effect.answered, Engine.failAll, map_call_failQueued, Function.comp_def]

variable {now : Instant} {l l' : Link} {a : Act} {effect : Effect}

theorem calls_of_input? {a : Act} {input : Engine.Input} (h : a.input? = some input) :
    a.issued = [] ∧ input.calls = [] := by
  cases a <;> simp [Act.input?] at h
  all_goals
    subst h
    exact ⟨rfl, rfl⟩

theorem Step.issued_perm (h : Step now l a l' effect) :
    Perm (a.issued ++ (queuedIn l.queue ++ l.engine.waiting))
      (effect.answered ++ (queuedIn l'.queue ++ l'.engine.waiting)) := by
  rw [List.perm_iff_count]
  intro x
  cases h with
  | requested alive =>
    simp only [Act.issued, queuedIn, List.filterMap_append, List.filterMap_cons,
      List.filterMap_nil, List.count_append, List.count_nil, Effect.answered_none, engine, alive]
    omega
  | refused dead => rfl
  | shutdownRequested alive => simp [Act.issued, queuedIn, engine, alive]
  | retargeted alive => simp [Act.issued, engine, alive]
  | @taken e e' id call queue _ alive head turn =>
    have := turn.answered_perm.count_eq x
    simp only [Engine.Input.calls, List.map_cons, List.map_nil, List.count_append] at this
    have hq : queuedIn l.queue = [id] ++ queuedIn queue := by rw [head]; rfl
    rw [hq, engine_of_running alive]
    simp only [Act.issued, engine, List.count_append, List.count_nil]
    omega
  | worked alive input_eq turn =>
    have := turn.answered_perm.count_eq x
    obtain ⟨hi, hc⟩ := calls_of_input? input_eq
    rw [hc] at this
    simp only [List.map_nil, List.count_append, List.count_nil] at this
    rw [hi, engine_of_running alive]
    simp only [engine, List.count_append, List.count_nil]
    omega
  | stopped alive =>
    rw [engine_of_running alive, answered_stop]
    change List.count x ([] ++ (_ ++ _)) = List.count x (_ ++ ([] ++ []))
    simp only [List.count_append, List.count_nil]
    omega
  | @shutDown e queue alive head =>
    rw [engine_of_running alive, answered_stop, head]
    change List.count x ([] ++ (queuedIn queue ++ _)) = List.count x (_ ++ ([] ++ []))
    simp only [List.count_append, List.count_nil]
    omega
  | idle alive empty => rfl
  | ended dead other =>
    have hi : a.issued = [] := by
      cases a with
      | request id call => exact absurd rfl (other id call)
      | _ => rfl
    simp [hi]

/-- The engine takes calls from the head of the queue; an act puts others at its end. -/
theorem Step.queued_sublist (h : Step now l a l' effect) :
    ((taking l now a).map (·.1) ++ queuedIn l'.queue).Sublist (queuedIn l.queue ++ a.issued) := by
  cases h with
  | requested alive => simp [taking, alive, queuedIn, Act.issued]
  | refused dead => simp [taking, dead]
  | shutdownRequested alive => simp [taking, alive, queuedIn]
  | retargeted alive => simp [taking, alive]
  | @taken e e' id call queue _ alive head turn => simp [taking, alive, head, queuedIn]
  | worked alive input_eq turn => cases a <;> simp_all [taking, Act.input?]
  | stopped alive => simp [taking, alive, queuedIn]
  | shutDown alive head => simp [taking, alive, head, queuedIn]
  | idle alive empty => simp [taking, alive, empty]
  | ended dead other => simp [taking, dead]

theorem Step.waits_sublist (h : Step now l a l' effect) (kind : CallKind) :
    (l'.engine.waits kind).Sublist
      (l.engine.waits kind ++ ((taking l now a).filter (·.2.kind = kind)).map (·.1)) := by
  cases h with
  | @taken e e' id call queue _ alive head turn =>
    have := turn.waits_sublist kind
    simpa [taking, alive, head, engine, Engine.Input.callsOf, Engine.Input.calls] using this
  | worked alive input_eq turn =>
    have := turn.waits_sublist kind
    rw [Engine.Input.callsOf, (calls_of_input? input_eq).2, List.filter_nil, List.map_nil,
      List.append_nil] at this
    rw [engine_of_running alive]
    exact this.trans (List.sublist_append_left _ _)
  | stopped | shutDown => cases kind <;> exact List.nil_sublist _
  | requested alive | shutdownRequested alive | retargeted alive =>
    simp only [engine, alive]
    exact List.sublist_append_left _ _
  | refused | idle | ended => exact List.sublist_append_left _ _

/-! ## The invariants of a run -/

/-- The calls made are those in the queue, those that wait and those answered. -/
theorem issued_perm (past : List (Instant × Act)) (start : Link) :
    Perm (issued past ++ (queuedIn start.queue ++ start.engine.waiting))
      ((actAll past start).2.answered ++
        (queuedIn (actAll past start).1.queue ++ (actAll past start).1.engine.waiting)) := by
  induction past generalizing start with
  | nil => exact Perm.rfl
  | cons a past ih =>
    obtain ⟨now, a⟩ := a
    rw [List.perm_iff_count]
    intro x
    have hstep := (step_act now a start).issued_perm.count_eq x
    have hrest := (ih (start.act now a).1).count_eq x
    change List.count x (a.issued ++ issued past ++ _) = _
    simp only [actAll, Effect.answered_append, List.count_append] at hstep hrest ⊢
    omega

/-- The calls taken and then those queued are, in order, calls that have been made. -/
theorem taken_sublist (past : List (Instant × Act)) (start : Link) :
    ((taken past start).map (·.1) ++ queuedIn (actAll past start).1.queue).Sublist
      (queuedIn start.queue ++ issued past) := by
  induction past generalizing start with
  | nil => simp [taken, log, actAll, issued]
  | cons a past ih =>
    obtain ⟨now, a⟩ := a
    have hstep := (step_act now a start).queued_sublist
    have hrest := ih (start.act now a).1
    change (((taking start now a ++ taken past (start.act now a).1).map (·.1)) ++ _).Sublist
      (queuedIn start.queue ++ (a.issued ++ issued past))
    rw [List.map_append, List.append_assoc, ← List.append_assoc _ a.issued]
    refine ((List.Sublist.refl _).append hrest).trans ?_
    rw [← List.append_assoc]
    exact hstep.append (List.Sublist.refl _)

theorem takenOf_cons (kind : CallKind) (now : Instant) (a : Act) (past : List (Instant × Act))
    (start : Link) :
    takenOf kind ((now, a) :: past) start =
      ((taking start now a).filter (·.2.kind = kind)).map (·.1) ++
        takenOf kind past (start.act now a).1 := by
  simp [takenOf, taken, log]

/-- Who waits was taken, and in this order. -/
theorem waits_sublist_takenOf (kind : CallKind) (past : List (Instant × Act)) (start : Link) :
    ((actAll past start).1.engine.waits kind).Sublist
      (start.engine.waits kind ++ takenOf kind past start) := by
  induction past generalizing start with
  | nil => simp [actAll, takenOf, taken, log]
  | cons a past ih =>
    obtain ⟨now, a⟩ := a
    have hstep := (step_act now a start).waits_sublist kind
    rw [takenOf_cons, ← List.append_assoc]
    exact (ih (start.act now a).1).trans (hstep.append (List.Sublist.refl _))

theorem queue_of_stopped (past : List (Instant × Act)) (start : Link)
    (h : ∀ cause, start.phase = .stopped cause → start.queue = []) :
    ∀ cause, (actAll past start).1.phase = .stopped cause → (actAll past start).1.queue = [] := by
  refine actAll_keeps (fun l => ∀ cause, l.phase = .stopped cause → l.queue = []) ?_ past start h
  intro now l a l' effect hstep hl cause hc
  cases hstep with
  | stopped | shutDown => rfl
  | refused | ended => exact hl cause hc
  | requested alive | shutdownRequested alive | retargeted alive | idle alive =>
    simp [alive] at hc
  | taken | worked => simp at hc

/-! ## Settlement -/

/-- Where the calls are at a point of a run with the acts `past`. -/
structure Settled (past : List (Instant × Act)) (start l : Link) (effect : Effect) : Prop where
  /-- No call is answered twice. -/
  once : effect.answered.Nodup
  /-- Only calls that were made are answered. -/
  made : ∀ id ∈ effect.answered, id ∈ issued past
  /-- A call that the engine has taken has been answered and waits nowhere; or it has not been,
  and then it waits once in the container of its kind and nowhere else. -/
  placed : ∀ id call, (id, call) ∈ taken past start →
    id ∈ effect.answered ∧ id ∉ l.engine.waiting ∨
      id ∉ effect.answered ∧ id ∈ l.engine.waits call.kind ∧ l.engine.waiting.count id = 1
  /-- Nothing else waits. -/
  waitsTaken : ∀ kind, ∀ id ∈ l.engine.waits kind, ∃ call, (id, call) ∈ taken past start ∧
    call.kind = kind
  /-- When the engine has stopped, every call made so far has been answered once. -/
  finished : ∀ cause, l.phase = .stopped cause → ∀ id ∈ issued past, effect.answered.count id = 1

/-- What `issued_perm` says of a run that starts with nothing. -/
theorem count_issued {t : Tuning} {target : Address} {past : List (Instant × Act)} {l : Link}
    {effect : Effect} (h : actAll past (opened t target) = (l, effect)) (id : CallId) :
    (issued past).count id =
      effect.answered.count id + (queuedIn l.queue).count id + l.engine.waiting.count id := by
  have hp := (issued_perm past (opened t target)).count_eq id
  have h0 : queuedIn (opened t target).queue ++ (opened t target).engine.waiting = [] := rfl
  rw [h0, h] at hp
  simp only [List.append_nil, List.count_append] at hp
  omega

theorem nodup_taken_queued {t : Tuning} {target : Address} {past : List (Instant × Act)} {l : Link}
    {effect : Effect} (h : actAll past (opened t target) = (l, effect))
    (distinct : (issued past).Nodup) :
    ((taken past (opened t target)).map (·.1) ++ queuedIn l.queue).Nodup := by
  have hs := taken_sublist past (opened t target)
  have h0 : queuedIn (opened t target).queue = [] := rfl
  rw [h0, h] at hs
  exact hs.nodup distinct

section
variable {t : Tuning} {target : Address} {past : List (Instant × Act)} {l : Link} {effect : Effect}
  (h : actAll past (opened t target) = (l, effect))
include h

/-- With names that differ a call is in one place at most. -/
theorem count_le_one (distinct : (issued past).Nodup) (id : CallId) :
    effect.answered.count id + (queuedIn l.queue).count id + l.engine.waiting.count id ≤ 1 := by
  rw [← count_issued h id]
  exact List.nodup_iff_count.mp distinct id

theorem taken_of_waits {kind : CallKind} {id : CallId} (hid : id ∈ l.engine.waits kind) :
    ∃ call, (id, call) ∈ taken past (opened t target) ∧ call.kind = kind := by
  have hs := waits_sublist_takenOf kind past (opened t target)
  have h0 : (opened t target).engine.waits kind = [] := by cases kind <;> rfl
  rw [h0, h, List.nil_append] at hs
  obtain ⟨⟨id', call⟩, hmem, rfl⟩ := List.mem_map.mp (hs.subset hid)
  obtain ⟨hmem, hk⟩ := List.mem_filter.mp hmem
  exact ⟨call, hmem, by simpa using hk⟩

/-- A call that was taken is queued no more, and answered or waiting. -/
theorem count_of_taken (distinct : (issued past).Nodup) {id : CallId}
    (hid : id ∈ (taken past (opened t target)).map (·.1)) :
    effect.answered.count id + l.engine.waiting.count id = 1 := by
  have hqueued : (queuedIn l.queue).count id = 0 := by
    refine List.count_eq_zero.mpr fun hq => ?_
    exact (List.nodup_append.mp (nodup_taken_queued h distinct)).2.2 id hid id hq rfl
  have hmade : 0 < (issued past).count id := by
    have hs := taken_sublist past (opened t target)
    exact List.count_pos_iff.mpr (hs.subset (List.mem_append_left _ hid))
  have := count_issued h id
  have := count_le_one h distinct id
  omega

theorem placed_of_taken (distinct : (issued past).Nodup) {id : CallId} {call : Call}
    (hmem : (id, call) ∈ taken past (opened t target)) :
    id ∈ effect.answered ∧ id ∉ l.engine.waiting ∨
      id ∉ effect.answered ∧ id ∈ l.engine.waits call.kind ∧ l.engine.waiting.count id = 1 := by
  have hid : id ∈ (taken past (opened t target)).map (·.1) := List.mem_map.mpr ⟨_, hmem, rfl⟩
  have hcount := count_of_taken h distinct hid
  by_cases ha : id ∈ effect.answered
  · have := List.count_pos_iff.mpr ha
    exact .inl ⟨ha, List.count_eq_zero.mp (by omega)⟩
  · have := List.count_eq_zero.mpr ha
    have hw : l.engine.waiting.count id = 1 := by omega
    have hpos : 0 < l.engine.waiting.count id := by omega
    obtain ⟨kind, hk⟩ := Engine.mem_waiting.mp (List.count_pos_iff.mp hpos)
    obtain ⟨call', hmem', rfl⟩ := taken_of_waits h hk
    -- names differ, so that the call that waits is the one in question
    have htaken := (List.nodup_append.mp (nodup_taken_queued h distinct)).1
    cases List.inj_on_of_nodup_map htaken hmem hmem' rfl
    exact .inr ⟨ha, hk, hw⟩

/-- Nothing waits and nothing is queued once the engine has stopped. -/
theorem count_of_stopped {cause : Stop} (hstop : l.phase = .stopped cause) (id : CallId) :
    effect.answered.count id = (issued past).count id := by
  have hnone : l.engine.waiting = [] := by
    rw [engine_of_stopped hstop]
    rfl
  have hq : l.queue = [] := by
    have := queue_of_stopped past (opened t target) (by simp [opened]) cause
    rw [h] at this
    exact this hstop
  rw [count_issued h id, hnone, hq]
  rfl

/-- Every run whose calls have different names settles them, whatever its acts are. -/
theorem settled_of_nodup (distinct : (issued past).Nodup) :
    Settled past (opened t target) l effect := by
  refine ⟨?_, ?_, fun _ _ => placed_of_taken h distinct, fun _ _ => taken_of_waits h, ?_⟩
  · refine List.nodup_iff_count.mpr fun id => ?_
    have := count_le_one h distinct id
    omega
  · intro id hid
    have := count_issued h id
    have := List.count_pos_iff.mpr hid
    exact List.count_pos_iff.mp (by omega)
  · intro cause hstop id hid
    rw [count_of_stopped h hstop]
    exact List.count_eq_one_of_mem distinct hid

end

theorem Point.distinct {events : List (Instant × Event)} {start l : Link}
    {past : List (Instant × Act)} {effect : Effect} (point : Point events start past l effect)
    (distinct : (requested events).Nodup) : (issued past).Nodup := by
  rw [← issued_history events start] at distinct
  exact distinct_of_prefix point.isPast distinct

/-- At every point of every run, between any two frames of a read and at its end, each call is
settled once or waits in one place, and the end of the engine settles all. -/
theorem every_call_settled_once (t : Tuning) (target : Address) (events : List (Instant × Event))
    (distinct : (requested events).Nodup) :
    (∀ past l effect, Point events (opened t target) past l effect →
      Settled past (opened t target) l effect) ∧
    Settled (history events (opened t target)) (opened t target)
      (run events (opened t target)).1 (run events (opened t target)).2 := by
  have hall : ∀ past l effect, Point events (opened t target) past l effect →
      Settled past (opened t target) l effect :=
    fun _ _ _ point => settled_of_nodup point.reached (point.distinct distinct)
  exact ⟨hall, hall _ _ _ (point_run events (opened t target))⟩

/-- Calls of all kinds, an acknowledgement, a deadline, and calls that are still queued when
the stream ends. -/
def crowdedRun : List (Instant × Event) :=
  [(0, .request 1 (.activate .default)), (0, .request 2 (.send 0x0680 [0x3E, 0x00] none)),
    (0, .take), (0, .take), (1, .request 3 (.receive (some (.ofMillis 1)))),
    (1, .request 4 (.collect (.ofMillis 10))), (1, .take), (1, .take),
    (2, .read [0x02, 0xFD, 0x80, 0x02, 0, 0, 0, 5, 0x06, 0x80, 0x0E, 0x00, 0x00]),
    (3000000, .deadline), (3000000, .request 5 (.activate .default)),
    (3000000, .request 6 (.receive none)), (3000001, .read [])]

theorem crowdedRun_settled :
    (requested crowdedRun).Nodup ∧
      Settled (history crowdedRun (opened (.ofSettings 0x0E00 {}) 0x0680))
        (opened (.ofSettings 0x0E00 {}) 0x0680)
        (run crowdedRun (opened (.ofSettings 0x0E00 {}) 0x0680)).1
        (run crowdedRun (opened (.ofSettings 0x0E00 {}) 0x0680)).2 :=
  ⟨by decide, (every_call_settled_once _ _ crowdedRun (by decide)).2⟩

end Link
end Doip
