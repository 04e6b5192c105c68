import Doip.Proofs.Link.PendingMemory
import Mathlib.Data.List.Chain

/-! # Any number of response pendings

A receive waits on while its target announces the response again and again, each time
before the deadline that the last announcement has set. `Turn.first_receive` says what one
turn does to the receive that waits longest, `awaits_of_chained` what a whole chain of
response pendings does, and `pendings_absorbed` how the receive ends after it. -/
namespace Doip

/-- The frame should hold a diagnostic message and does not. -/
def Frame.isBroken (f : Frame) : Bool :=
  match f.message with
  | .error _ => PayloadKind.ofCode f.header.payloadType = .diagnostic
  | .ok _ => false

namespace Engine

/-- The input opens no collection and ends no receive. -/
def isQuiet (t : Tuning) (target : Address) : Input → Bool
  | .start _ (.collect _) => false
  | .dispatch f => !f.isBroken && !f.isFinalOf t target
  | _ => true

/-- A response pending of the target arrives. -/
def prolongs (t : Tuning) (target : Address) : Input → Bool
  | .dispatch f => f.isPendingOf t target
  | _ => false

variable {t : Tuning} {target : Address} {now : Instant} {e e' : Engine} {input : Input}
  {effect : Effect}

theorem prolongs_of_unrelated {f : Frame} (h : ∀ m, f.message ≠ .ok (.diagnostic m)) :
    prolongs t target (.dispatch f) = false := by
  simp [prolongs, Frame.isPendingOf, Frame.pending?_of_unrelated h]

theorem head?_receives_expire {w : ReceiveWait} (hw : e.receives.head? = some w)
    (early : isDue now w.deadline = false) : (e.expire now).1.receives.head? = some w := by
  obtain ⟨others, ho⟩ := List.head?_eq_some_iff.mp hw
  simp [expire, ho, early]

theorem Turn.receive_waits {id : CallId} {timeout : Option Duration}
    (h : Turn t target now e (.start id (.receive timeout)) e' effect)
    (absent : ∀ f ∈ e.inbox, frameSource? f ≠ some target) :
    e'.receives = e.receives ++ [receiveWait t now id timeout e.pendingAt] ∧
      e'.collections = e.collections := by
  cases h with
  | claimed split _ source => exact absurd source (absent _ (by simp [split]))
  | waited => exact ⟨rfl, rfl⟩

/-- The receive that waits longest goes on waiting, and a response pending restarts its timer. -/
theorem Turn.first_receive (h : Turn t target now e input e' effect)
    (quiet : isQuiet t target input = true) {w : ReceiveWait}
    (hw : e.receives.head? = some w) (closed : e.collections = [])
    (early : isDue now w.deadline = false) :
    e'.receives.head? = some (if prolongs t target input then w.extend now t.p2Star else w) ∧
      e'.collections = [] := by
  have hkeep : prolongs t target input = false → e'.receives.head? = some w →
      e'.receives.head? = some (if prolongs t target input then w.extend now t.p2Star else w) := by
    intro hp hr
    simp [hp, hr]
  cases h with
  | waited absent =>
    refine ⟨hkeep rfl ?_, closed⟩
    obtain ⟨others, ho⟩ := List.head?_eq_some_iff.mp hw
    simp [ho]
  | collectionOpened => simp [isQuiet] at quiet
  | skipped other silent =>
    refine ⟨hkeep ?_ hw, closed⟩
    simp only [prolongs, Frame.isPendingOf]
    rw [Option.any_eq_false]
    intro m hm
    simpa using silent m hm
  | aliveAnswered message | activationAnswered message | activationNacked message
  | sendNacked message =>
    exact ⟨hkeep (prolongs_of_unrelated (by simp [message])) hw, closed⟩
  | sendSettled message settles =>
    refine ⟨hkeep (prolongs_of_unrelated fun m hm => ?_) hw, closed⟩
    rw [message] at hm
    cases settles <;> cases hm
  | receiveFailed message kind => simp [isQuiet, Frame.isBroken, message, kind] at quiet
  | extended pending source waits =>
    rw [waits] at hw
    cases hw
    simp [prolongs, Frame.isPendingOf, pending, source, closed]
  | remembered _ _ idle =>
    rw [idle] at hw
    cases hw
  | gathered _ isOpen => exact absurd closed isOpen
  | handed response source =>
    simp [isQuiet, isFinalOf_of_response? response, source] at quiet
  | kept response =>
    exact ⟨hkeep (Frame.isPendingOf_of_response? response) hw, closed⟩
  | expired =>
    refine ⟨hkeep rfl (head?_receives_expire hw early), ?_⟩
    simp [expire, closed]
  | _ => exact ⟨hkeep rfl hw, closed⟩

end Engine

namespace Link

/-- The act opens no collection, ends no receive, and leaves the engine running and the target
as it is. -/
def isQuiet (l : Link) (a : Act) : Bool :=
  (l.input? a).all (Engine.isQuiet l.tuning l.target) &&
    match a with
    | .stop _ => false
    | .retarget target => target = l.target
    | .take => l.queue.head? ≠ some .shutdown
    | _ => true

def Quiet (l : Link) (_ : Instant) (a : Act) : Prop := l.isQuiet a = true

instance (l : Link) (now : Instant) (a : Act) : Decidable (Quiet l now a) :=
  inferInstanceAs (Decidable (l.isQuiet a = true))

/-- A response pending of the target arrives at this act. -/
def prolongs (l : Link) (a : Act) : Bool :=
  (l.input? a).any (Engine.prolongs l.tuning l.target)

/-- When response pendings of the target arrive. -/
def pendingTimes (acts : List (Instant × Act)) (l : Link) : List Instant :=
  log (fun l now a => if l.prolongs a then [now] else []) acts l

/-- The receive `w` waits longest, and no collection would take its response. -/
structure Awaits (w : ReceiveWait) (l : Link) : Prop where
  first : l.engine.receives.head? = some w
  closed : l.engine.collections = []

variable {now : Instant} {l l' : Link} {a : Act} {effect : Effect} {w : ReceiveWait}

theorem Awaits.running (h : Awaits w l) : ∃ e, l.phase = .running e := by
  cases hp : l.phase with
  | running e => exact ⟨e, rfl⟩
  | stopped cause =>
    have hfirst := h.first
    rw [engine_of_stopped hp] at hfirst
    cases hfirst

theorem isQuiet_of_input? {input : Engine.Input} (quiet : Quiet l now a)
    (h : l.input? a = some input) : Engine.isQuiet l.tuning l.target input = true := by
  have hall := (Bool.and_eq_true_iff.mp quiet).1
  rwa [h, Option.all_some] at hall

/-- An act leaves the receive that waits longest alone, or restarts its timer. -/
theorem Step.awaits (h : Step now l a l' effect) (hw : Awaits w l) (quiet : Quiet l now a)
    (early : isDue now w.deadline = false) :
    Awaits (if l.prolongs a then w.extend now l.tuning.p2Star else w) l' ∧
      l'.target = l.target := by
  obtain ⟨e, running⟩ := hw.running
  have hact := (Bool.and_eq_true_iff.mp quiet).2
  have hsame : l.input? a = none → l'.engine = l.engine →
      Awaits (if l.prolongs a then w.extend now l.tuning.p2Star else w) l' := by
    intro hnone hengine
    simp only [prolongs, hnone, Option.any_none, Bool.false_eq_true, if_false]
    exact ⟨by rw [hengine, hw.first], by rw [hengine, hw.closed]⟩
  have hturn : ∀ {input e'}, l.input? a = some input →
      Engine.Turn l.tuning l.target now l.engine input e' effect → l'.engine = e' →
      Awaits (if l.prolongs a then w.extend now l.tuning.p2Star else w) l' := by
    intro input e' hinput turn hengine
    obtain ⟨hfirst, hclosed⟩ :=
      turn.first_receive (isQuiet_of_input? quiet hinput) hw.first hw.closed early
    rw [← hengine] at hfirst hclosed
    refine ⟨?_, hclosed⟩
    simpa only [prolongs, hinput, Option.any_some] using hfirst
  cases h with
  | requested alive | shutdownRequested alive =>
    exact ⟨hsame (by simp [input?, alive, Act.input?]) (by simp [engine, alive]), rfl⟩
  | @retargeted _ target alive =>
    have htarget : target = l.target := by simpa using hact
    exact ⟨hsame (by simp [input?, alive, Act.input?]) (by simp [engine, alive]), htarget⟩
  | taken alive head turn =>
    rw [← engine_of_running alive] at turn
    exact ⟨hturn (by simp [input?, alive, head]) turn rfl, rfl⟩
  | worked alive input_eq turn =>
    rw [← engine_of_running alive] at turn
    exact ⟨hturn (input?_of_worked alive input_eq) turn rfl, rfl⟩
  | stopped => cases hact
  | shutDown alive head => simp [head] at hact
  | idle alive empty => exact ⟨hsame (by simp [input?, alive, empty, Act.input?]) rfl, rfl⟩
  | refused dead | ended dead =>
    rw [running] at dead
    cases dead

/-! ## Chains of response pendings -/

/-- Response pendings at these times: the first one comes before the deadline `first`, each
later one within `span` of the one before it, and the deadlines that they set exist. -/
structure Chained (span : Duration) (first : Instant) (times : List Instant) : Prop where
  begins : ∀ time ∈ times.head?, time < first
  continues : times.IsChain fun earlier later => later < earlier + span.nanos
  fits : ∀ time ∈ times, time + span.nanos < Instant.limit

/-- The deadline after response pendings at these times. -/
def lastDeadline (span : Duration) (first : Instant) (times : List Instant) : Instant :=
  match times.getLast? with
  | some last => last + span.nanos
  | none => first

theorem lastDeadline_cons (span : Duration) (first time : Instant) (rest : List Instant) :
    lastDeadline span first (time :: rest) = lastDeadline span (time + span.nanos) rest := by
  simp only [lastDeadline, List.getLast?_cons]
  cases rest.getLast? <;> rfl

theorem Chained.tail {span : Duration} {first time : Instant} {rest : List Instant}
    (h : Chained span first (time :: rest)) : Chained span (time + span.nanos) rest := by
  obtain ⟨hhead, hrest⟩ := List.isChain_cons.mp h.continues
  exact ⟨hhead, hrest, fun t ht => h.fits t (List.mem_cons_of_mem _ ht)⟩

/-- A chain may also start from a later deadline, which it does not make earlier. -/
theorem Chained.mono {span : Duration} {first later : Instant} {times : List Instant}
    (h : Chained span first times) (hle : first ≤ later) :
    Chained span later times ∧ lastDeadline span first times ≤ lastDeadline span later times := by
  refine ⟨⟨fun time ht => Nat.lt_of_lt_of_le (h.begins time ht) hle, h.continues, h.fits⟩, ?_⟩
  unfold lastDeadline
  cases times.getLast? with
  | none => exact hle
  | some last => exact Nat.le_refl _

/-- Whatever happens before the next response pending happens before the deadline. -/
theorem Chained.lt_first {span : Duration} {first now : Instant} {times : List Instant}
    (h : Chained span first times) (hnow : now < lastDeadline span first times)
    (hle : ∀ time ∈ times, now ≤ time) : now < first := by
  cases times with
  | nil => exact hnow
  | cons time rest => exact Nat.lt_of_le_of_lt (hle time List.mem_cons_self) (h.begins time rfl)

theorem mem_pendingTimes {acts : List (Instant × Act)} {l : Link} {time : Instant}
    (h : time ∈ pendingTimes acts l) : time ∈ acts.map (·.1) := by
  obtain ⟨earlier, now, a, later, rfl, hnow⟩ := mem_log h
  split at hnow
  · rw [List.mem_singleton.mp hnow]
    simp
  · cases hnow

theorem isDue_of_lt {now deadline : Instant} (h : now < deadline) :
    isDue now (some deadline) = false := by
  simpa [isDue] using h

theorem extend_eq {timeout p2Star : Duration} {id : CallId} {deadline : Option Instant}
    (fits : now + (timeout.longer p2Star).nanos < Instant.limit) :
    ReceiveWait.extend ⟨id, deadline, some timeout⟩ now p2Star =
      ⟨id, some (now + (timeout.longer p2Star).nanos), some timeout⟩ := by
  simp [ReceiveWait.extend, deadlineAfter, Instant.add?, fits]

/-- A receive waits on through a chain of response pendings, and its timer runs from the last. -/
theorem awaits_of_chained {id : CallId} {timeout : Duration} (during : List (Instant × Act))
    (l : Link) (first : Instant) (hw : Awaits ⟨id, some first, some timeout⟩ l)
    (quiet : Throughout Quiet during l) (ordered : (during.map (·.1)).Pairwise (· ≤ ·))
    (chained : Chained (timeout.longer l.tuning.p2Star) first (pendingTimes during l))
    (inTime : ∀ x ∈ during,
      x.1 < lastDeadline (timeout.longer l.tuning.p2Star) first (pendingTimes during l)) :
    Awaits ⟨id, some (lastDeadline (timeout.longer l.tuning.p2Star) first (pendingTimes during l)),
      some timeout⟩ (actAll during l).1 ∧ (actAll during l).1.target = l.target := by
  induction during generalizing l first with
  | nil => exact ⟨hw, rfl⟩
  | cons x during ih =>
    obtain ⟨now, a⟩ := x
    obtain ⟨hquiet, hrest⟩ := quiet
    rw [List.map_cons, List.pairwise_cons] at ordered
    have hstep := step_act now a l
    have hnow := inTime (now, a) List.mem_cons_self
    have hlater : ∀ y ∈ during, y.1 < _ := fun y hy => inTime y (List.mem_cons_of_mem _ hy)
    have htimes : pendingTimes ((now, a) :: during) l =
        (if l.prolongs a then [now] else []) ++ pendingTimes during (l.act now a).1 := rfl
    rw [htimes] at chained hnow hlater ⊢
    by_cases hp : l.prolongs a = true
    · simp only [hp, if_true, List.singleton_append, lastDeadline_cons] at chained hnow hlater ⊢
      have hearly : now < first := chained.begins now rfl
      obtain ⟨hw', htarget⟩ := hstep.awaits hw hquiet (isDue_of_lt hearly)
      rw [if_pos hp, extend_eq (chained.fits now List.mem_cons_self)] at hw'
      rw [← hstep.tuning] at hw' chained hlater ⊢
      obtain ⟨hend, hsame⟩ := ih _ _ hw' hrest ordered.2 chained.tail hlater
      exact ⟨hend, hsame.trans htarget⟩
    · simp only [hp, Bool.false_eq_true, if_false, List.nil_append] at chained hnow hlater ⊢
      have hearly : now < first :=
        chained.lt_first hnow fun time ht => ordered.1 time (mem_pendingTimes ht)
      obtain ⟨hw', htarget⟩ := hstep.awaits hw hquiet (isDue_of_lt hearly)
      rw [if_neg hp] at hw'
      rw [← hstep.tuning] at chained hlater ⊢
      obtain ⟨hend, hsame⟩ := ih _ _ hw' hrest ordered.2 chained hlater
      exact ⟨hend, hsame.trans htarget⟩

/-! ## A receive and its chain -/

/-- The engine is about to take a receive with a timeout. No other receive waits, no collection
is open, and nothing from the target is in the inbox. -/
structure Begins (l : Link) (id : CallId) (timeout : Duration) : Prop where
  alive : l.isAlive = true
  head : l.queue.head? = some (.call id (.receive (some timeout)))
  alone : l.engine.receives = []
  closed : l.engine.collections = []
  absent : ∀ f ∈ l.engine.inbox, frameSource? f ≠ some l.target

/-- The first deadline of a receive that is taken at `now` after the acts `before`, if the clock
can hold it. -/
inductive FirstDeadline (before : List (Instant × Act)) (start : Link) (now : Instant)
    (timeout : Duration) : Instant → Prop where
  | own (nothing : ∀ seen, ¬Remembered before start seen)
      (fits : now + timeout.nanos < Instant.limit) :
      FirstDeadline before start now timeout (now + timeout.nanos)
  /-- The target has announced its response before. -/
  | prolonged {seen : Instant} (remembered : Remembered before start seen)
      (fits : now + timeout.nanos < Instant.limit)
      (fitsSeen : seen + start.tuning.p2Star.nanos < Instant.limit) :
      FirstDeadline before start now timeout
        (max (now + timeout.nanos) (seen + start.tuning.p2Star.nanos))

theorem receiveWait_own {t : Tuning} {id : CallId} {timeout : Duration}
    (fits : now + timeout.nanos < Instant.limit) :
    Engine.receiveWait t now id (some timeout) none =
      ⟨id, some (now + timeout.nanos), some timeout⟩ := by
  simp [Engine.receiveWait, deadlineAfter, Instant.add?, fits]

theorem receiveWait_prolonged {t : Tuning} {id : CallId} {timeout : Duration} {seen : Instant}
    (fits : now + timeout.nanos < Instant.limit)
    (fitsSeen : seen + t.p2Star.nanos < Instant.limit) :
    Engine.receiveWait t now id (some timeout) (some seen) =
      ⟨id, some (max (now + timeout.nanos) (seen + t.p2Star.nanos)), some timeout⟩ := by
  simp [Engine.receiveWait, ReceiveWait.extendFrom, deadlineAfter, Instant.add?, fits, fitsSeen]

theorem receiveWait_of_firstDeadline {t : Tuning} {target : Address}
    {before : List (Instant × Act)} {e : Engine} {timeout : Duration} {deadline : Instant}
    (id : CallId) (running : (actAll before (opened t target)).1.phase = .running e)
    (hfirst : FirstDeadline before (opened t target) now timeout deadline) :
    Engine.receiveWait t now id (some timeout) e.pendingAt =
      ⟨id, some deadline, some timeout⟩ := by
  have hmemory := pendingAt_iff_remembered before running
  cases hfirst with
  | own nothing fits =>
    cases hp : e.pendingAt with
    | none => exact receiveWait_own fits
    | some seen => exact absurd ((hmemory seen).mp hp) (nothing seen)
  | prolonged remembered fits fitsSeen =>
    rw [(hmemory _).mpr remembered]
    exact receiveWait_prolonged fits fitsSeen

theorem Step.target (h : Step now l a l' effect) (hkeep : ∀ target, a ≠ .retarget target) :
    l'.target = l.target := by
  cases h with
  | retargeted => exact absurd rfl (hkeep _)
  | _ => rfl

theorem awaits_of_begins {t : Tuning} {target : Address} {before : List (Instant × Act)}
    {id : CallId} {timeout : Duration} {deadline : Instant}
    (begins : Begins (actAll before (opened t target)).1 id timeout)
    (hfirst : FirstDeadline before (opened t target) now timeout deadline) :
    Awaits ⟨id, some deadline, some timeout⟩
      ((actAll before (opened t target)).1.act now .take).1 := by
  have htuning : (actAll before (opened t target)).1.tuning = t :=
    tuning_actAll before (opened t target)
  obtain ⟨queue, hqueue⟩ := List.head?_eq_some_iff.mp begins.head
  rcases (step_act now .take (actAll before (opened t target)).1).turn_or_quiet with
    ⟨e, e', input, alive, alive', hinput, turn⟩ | ⟨hnone, -⟩
  · have hwait := receiveWait_of_firstDeadline id alive hfirst
    obtain ⟨-, -, halone, hclosed, habsent⟩ := begins
    rw [engine_of_running alive] at halone hclosed habsent
    simp only [input?, alive, hqueue, Option.some.injEq] at hinput
    subst hinput
    rw [htuning] at turn
    obtain ⟨hreceives, hcollections⟩ := turn.receive_waits habsent
    rw [halone, List.nil_append, hwait] at hreceives
    rw [hclosed] at hcollections
    rw [← engine_of_running alive'] at hreceives hcollections
    exact ⟨by rw [hreceives, List.head?_cons], hcollections⟩
  · obtain ⟨e, alive⟩ := running_of_isAlive begins.alive
    simp [input?, alive, hqueue] at hnone

/-- A receive with this deadline has not been answered, and the answer it gets depends on what
comes first: a final response of the target, or the deadline. -/
structure Pends (id : CallId) (timeout : Duration) (deadline : Instant) (l : Link)
    (effect : Effect) : Prop where
  waits : l.engine.receives.head? = some ⟨id, some deadline, some timeout⟩
  unanswered : id ∉ effect.answered
  returns : ∀ now f m, f.response? l.tuning = some m → m.source = l.target →
    (l.act now (.dispatch f)).2 = .reply id (.frame f.encode)
  early : ∀ now, now < deadline → id ∉ (l.act now .expire).2.answered
  late : ∀ now, deadline ≤ now → ⟨id, .failed .timeout⟩ ∈ (l.act now .expire).2.replies

theorem not_answered_of_waiting {t : Tuning} {target : Address} {past : List (Instant × Act)}
    {id : CallId} (h : actAll past (opened t target) = (l, effect))
    (distinct : (issued past).Nodup) (hw : id ∈ l.engine.waiting) : id ∉ effect.answered := by
  intro hanswered
  have := count_le_one h distinct id
  have := List.count_pos_iff.mpr hw
  have := List.count_pos_iff.mpr hanswered
  omega

theorem Awaits.mem_waiting {id : CallId} {deadline : Option Instant} {timeout : Option Duration}
    (h : Awaits ⟨id, deadline, timeout⟩ l) : id ∈ l.engine.waiting := by
  have hmem := List.mem_of_mem_head? h.first
  exact Engine.mem_waiting.mpr ⟨.receive, List.mem_map.mpr ⟨_, hmem, rfl⟩⟩

theorem pends_of_awaits {t : Tuning} {target : Address} {past : List (Instant × Act)}
    {id : CallId} {timeout : Duration} {deadline : Instant}
    (h : actAll past (opened t target) = (l, effect)) (distinct : (issued past).Nodup)
    (hw : Awaits ⟨id, some deadline, some timeout⟩ l) : Pends id timeout deadline l effect := by
  obtain ⟨e, running⟩ := hw.running
  obtain ⟨others, hothers⟩ := List.head?_eq_some_iff.mp hw.first
  have hclosed := hw.closed
  rw [engine_of_running running] at hothers hclosed
  refine ⟨hw.first, not_answered_of_waiting h distinct hw.mem_waiting, ?_, ?_, ?_⟩
  · intro now f m hresponse hsource
    obtain ⟨hmessage, htarget, hfinal⟩ := Frame.message_of_response? hresponse
    simp [act, running, actRunning, work, Engine.handle, Engine.dispatch, hmessage,
      Engine.onDiagnostic, htarget, hfinal, Engine.onResponse, hsource, hclosed, hothers,
      Engine.settleReceive]
  · intro now hlt
    have hinput : l.input? .expire = some .expire := by
      simp only [input?, running, Act.input?]
    have hquiet : Quiet l now .expire := by
      unfold Quiet isQuiet
      rw [hinput]
      rfl
    have hstep := step_act now .expire l
    obtain ⟨hlater, -⟩ := hstep.awaits hw hquiet (isDue_of_lt hlt)
    have hnot : l.prolongs .expire = false := by
      simp only [prolongs, hinput, Option.any_some, Engine.prolongs]
    rw [hnot] at hlater
    have hnext : actAll (past ++ [(now, .expire)]) (opened t target) =
        ((l.act now .expire).1, effect ++ (l.act now .expire).2) := by
      rw [actAll_concat, h]
    have hsame : issued (past ++ [(now, .expire)]) = issued past := by
      simp [issued, Act.issued]
    have hunanswered := not_answered_of_waiting hnext (hsame ▸ distinct) hlater.mem_waiting
    rw [Effect.answered_append] at hunanswered
    exact fun hid => hunanswered (List.mem_append_right _ hid)
  · intro now hle
    have hdue : isDue now (some deadline) = true := by simpa [isDue] using hle
    simp [act, running, actRunning, work, Engine.handle, Engine.expire, hothers, hdue,
      Engine.timedOut]

/-- A receive is taken at `now`, and during the acts after it only response pendings of the
target concern it, each in time. Then it waits until the deadline that the last of them has
set, or its first one if there was none: the first final response of the target answers it,
and so does the deadline if it comes before. The chain may also be measured from an earlier
instant `first`. -/
theorem pendings_absorbed (t : Tuning) (target : Address) (events : List (Instant × Event))
    (distinct : (requested events).Nodup) (before during : List (Instant × Act)) (now : Instant)
    (l : Link) (effect : Effect)
    (point : Point events (opened t target) (before ++ (now, .take) :: during) l effect)
    (id : CallId) (timeout : Duration)
    (begins : Begins (actAll before (opened t target)).1 id timeout) (deadline first : Instant)
    (hdeadline : FirstDeadline before (opened t target) now timeout deadline)
    (hfirst : first ≤ deadline) (times : List Instant)
    (htimes : times =
      pendingTimes during (actAll (before ++ [(now, .take)]) (opened t target)).1)
    (quiet : Throughout Quiet during (actAll (before ++ [(now, .take)]) (opened t target)).1)
    (ordered : (during.map (·.1)).Pairwise (· ≤ ·))
    (chained : Chained (timeout.longer t.p2Star) first times)
    (inTime : ∀ x ∈ during, x.1 < lastDeadline (timeout.longer t.p2Star) first times) :
    Pends id timeout (lastDeadline (timeout.longer t.p2Star) deadline times) l effect ∧
      l.target = (actAll before (opened t target)).1.target := by
  subst htimes
  have hbegins := awaits_of_begins begins hdeadline
  have hstart : (actAll (before ++ [(now, .take)]) (opened t target)).1 =
      ((actAll before (opened t target)).1.act now .take).1 := by
    rw [actAll_concat]
  rw [hstart] at quiet chained inTime ⊢
  obtain ⟨hchained, hle⟩ := chained.mono hfirst
  have htuning : ((actAll before (opened t target)).1.act now .take).1.tuning = t := by
    rw [(step_act now .take _).tuning]
    exact tuning_actAll before (opened t target)
  have hinTime : ∀ x ∈ during, x.1 < lastDeadline (timeout.longer t.p2Star) deadline
      (pendingTimes during ((actAll before (opened t target)).1.act now .take).1) :=
    fun x hx => Nat.lt_of_lt_of_le (inTime x hx) hle
  have hend := awaits_of_chained during _ deadline hbegins quiet ordered
  rw [htuning] at hend
  obtain ⟨hawaits, hsame⟩ := hend hchained hinTime
  have hl : l = (actAll during ((actAll before (opened t target)).1.act now .take).1).1 := by
    have hsplit := actAll_split before during (now, .take) (opened t target)
    rw [point.reached, hstart] at hsplit
    exact hsplit
  refine ⟨?_, ?_⟩
  · rw [← hl] at hawaits
    exact pends_of_awaits point.reached (point.distinct distinct) hawaits
  · rw [hl, hsame, (step_act now .take _).target (by simp)]

/-- A response pending before the receive, and two while it waits; a send in between. -/
def announcedRun : List (Instant × Event) :=
  [(0, .read [0x02, 0xFD, 0x80, 0x01, 0, 0, 0, 7, 0x06, 0x80, 0x0E, 0x00, 0x7F, 0x31, 0x78]),
    (1, .request 1 (.receive (some (.ofMillis 200)))), (1, .take),
    (4000000000,
      .read [0x02, 0xFD, 0x80, 0x01, 0, 0, 0, 7, 0x06, 0x80, 0x0E, 0x00, 0x7F, 0x31, 0x78]),
    (5000000000, .request 2 (.send 0x0680 [0x3E, 0x80] none)), (5000000000, .take),
    (8000000000,
      .read [0x02, 0xFD, 0x80, 0x01, 0, 0, 0, 7, 0x06, 0x80, 0x0E, 0x00, 0x7F, 0x31, 0x78])]

theorem announcedRun_pends :
    Pends 1 (.ofMillis 200) 13000000000
      (run announcedRun (opened (.ofSettings 0x0E00 {}) 0x0680)).1
      (run announcedRun (opened (.ofSettings 0x0E00 {}) 0x0680)).2 := by
  have running : (actAll ((history announcedRun (opened (.ofSettings 0x0E00 {}) 0x0680)).take 3)
      (opened (.ofSettings 0x0E00 {}) 0x0680)).1.phase = .running (actAll ((history announcedRun
        (opened (.ofSettings 0x0E00 {}) 0x0680)).take 3)
          (opened (.ofSettings 0x0E00 {}) 0x0680)).1.engine := by decide +kernel
  have remembered := (pendingAt_iff_remembered _ running 0).mp (by decide +kernel)
  have hdeadline : FirstDeadline _ _ 1 (.ofMillis 200) _ :=
    .prolonged remembered (by decide +kernel) (by decide +kernel)
  have hfirst : max (1 + (Duration.ofMillis 200).nanos)
      (0 + (opened (.ofSettings 0x0E00 {}) 0x0680).tuning.p2Star.nanos) = 5000000000 := by
    decide +kernel
  rw [hfirst] at hdeadline
  have hsplit : history announcedRun (opened (.ofSettings 0x0E00 {}) 0x0680) =
      (history announcedRun (opened (.ofSettings 0x0E00 {}) 0x0680)).take 3 ++
        (1, .take) :: (history announcedRun (opened (.ofSettings 0x0E00 {}) 0x0680)).drop 4 := by
    decide +kernel
  have point := point_run announcedRun (opened (.ofSettings 0x0E00 {}) 0x0680)
  rw [hsplit] at point
  have hends := pendings_absorbed (.ofSettings 0x0E00 {}) 0x0680 announcedRun (by decide) _ _ 1 _ _
    point 1 (.ofMillis 200) ⟨by decide +kernel, by decide +kernel, by decide +kernel,
      by decide +kernel, by decide +kernel⟩ 5000000000 5000000000 hdeadline (Nat.le_refl _)
    [4000000000, 8000000000] (by decide +kernel) (by decide +kernel) (by decide +kernel)
    ⟨by decide +kernel, by decide +kernel, by decide +kernel⟩ (by decide +kernel)
  have hlast : lastDeadline ((Duration.ofMillis 200).longer
      (Tuning.ofSettings 0x0E00 {}).p2Star) 5000000000 [4000000000, 8000000000] =
        13000000000 := by decide +kernel
  rw [hlast] at hends
  exact hends.1

end Link
end Doip
