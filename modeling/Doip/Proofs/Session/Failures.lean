import Doip.Proofs.Session.Stopping

/-! # Which failures say that a session is over

A failure is `Truthful` about the link that it leaves behind if it is terminal just when the
engine does not run any more. What a running engine, a stopped one or the session itself refuses
or gives up on is told the truth, and so is everyone when the engine stops, with one exception:
after a header fault the engine stops, and its failure is that of a payload that cannot be read,
which an engine survives. -/
namespace Doip

/-- Only unreadable octets stop an engine with a failure that does not end the session. -/
theorem Stop.isTerminal_failure_iff (cause : Stop) :
    cause.failure.isTerminal = true ↔ ∀ text, cause ≠ .parse text := by
  cases cause with
  | parse text =>
    refine iff_of_false ?_ fun h => h text rfl
    simp [Stop.failure, Failure.isTerminal]
  | shutdown | endOfStream | io | aborted =>
    refine iff_of_true rfl fun text h => ?_
    cases h

variable {now : Instant} {id : CallId} {failure : Failure}

/-- What an engine fails while it keeps running ends no session. -/
theorem Engine.Turn.isTerminal_eq_false {t : Tuning} {target : Address} {e e' : Engine}
    {input : Engine.Input} {effect : Effect} (h : Engine.Turn t target now e input e' effect)
    (hr : ⟨id, .failed failure⟩ ∈ effect.replies) : failure.isTerminal = false := by
  cases h with
  | activationRefused | activationNacked | sendNacked | receiveFailed | collectionRefused =>
    cases List.mem_singleton.mp hr
    rfl
  | @activationAnswered f r wait message waits =>
    have hanswer : .failed failure = activationAnswer t r :=
      congrArg Reply.answer (List.mem_singleton.mp hr)
    unfold activationAnswer at hanswer
    split at hanswer
    · cases hanswer
      rfl
    · split at hanswer
      · cases hanswer
        rfl
      · cases hanswer
  | sendSettled message settles waits =>
    cases settles with
    | positive => cases List.mem_singleton.mp hr
    | negative =>
      cases List.mem_singleton.mp hr
      rfl
  | claimed | handed => cases List.mem_singleton.mp hr
  | expired =>
    simp only [expire, List.mem_append, List.mem_map] at hr
    rcases hr with ((hr | hr) | hr) | hr
    · obtain ⟨wait, -, heq⟩ := hr
      cases heq
      rfl
    · obtain ⟨wait, -, heq⟩ := hr
      cases heq
      rfl
    · obtain ⟨wait, -, heq⟩ := hr
      cases heq
      rfl
    · obtain ⟨collection, -, heq⟩ := hr
      cases heq
  | activationStarted | sent | waited | collectionOpened | skipped | aliveAnswered | extended
  | remembered | gathered | kept | refilled => cases hr

namespace Link

/-- The failure says whether the engine of this link has stopped. -/
def Truthful (failure : Failure) (l : Link) : Prop := failure.isTerminal = true ↔ l.isAlive = false

/-- The engine stops because octets have come that are no header. -/
def HeaderFault (l : Link) (a : Act) : Prop := l.isAlive = true ∧ ∃ text, a = .stop (.parse text)

variable {l l' : Link} {a : Act} {effect : Effect}

theorem truthful_of_alive (alive : l.isAlive = true) (survives : failure.isTerminal = false) :
    Truthful failure l := by
  unfold Truthful
  rw [alive, survives]
  exact iff_of_false Bool.false_ne_true (Bool.noConfusion)

/-- A call that fails gets the truth, except at a header fault. -/
theorem Step.truthful_iff (h : Step now l a l' effect)
    (hr : ⟨id, .failed failure⟩ ∈ effect.replies) :
    Truthful failure l' ↔ ¬l.HeaderFault a := by
  cases h with
  | @refused cause id' call dead =>
    cases List.mem_singleton.mp hr
    refine iff_of_true ?_ ?_
    · exact iff_of_true rfl (isAlive_of_stopped dead)
    · rintro ⟨-, text, hstop⟩
      cases hstop
  | taken running head turn =>
    refine iff_of_true (truthful_of_alive rfl (turn.isTerminal_eq_false hr)) ?_
    rintro ⟨-, text, hstop⟩
    cases hstop
  | worked running input turn =>
    refine iff_of_true (truthful_of_alive rfl (turn.isTerminal_eq_false hr)) ?_
    rintro ⟨-, text, rfl⟩
    cases input
  | @stopped e cause running =>
    have hfailure : failure = cause.failure := by
      rw [failAll_append_failQueued] at hr
      obtain ⟨id', -, heq⟩ := List.mem_map.mp hr
      cases heq
      rfl
    have htold : Truthful failure { l with queue := [], phase := .stopped cause } ↔
        failure.isTerminal = true := iff_true_right rfl
    rw [htold, hfailure, Stop.isTerminal_failure_iff, HeaderFault, isAlive_of_running running]
    simp
  | @shutDown e queue running head =>
    have hfailure : failure = Stop.shutdown.failure := by
      rw [failAll_append_failQueued] at hr
      obtain ⟨id', -, heq⟩ := List.mem_map.mp hr
      cases heq
      rfl
    refine iff_of_true (iff_of_true ?_ rfl) ?_
    · rw [hfailure]
      rfl
    · rintro ⟨-, text, hstop⟩
      cases hstop
  | requested | shutdownRequested | retargeted | idle | ended => cases hr

end Link

namespace Session

variable {event : Event} {s : Session}

/-- The session fails a call without its link: it refuses it, or the caller of a collection gives
up while the engine runs. -/
inductive FailsItself (event : Event) (s : Session) (id : CallId) : Failure → Prop where
  | refused {request : Request} {reason : String} (asked : event = .ask id request)
      (no : s.call? request = none) : FailsItself event s id (.invalidArgument reason)
  | lostPatience (gone : event = .losePatience) (alive : s.link.isAlive = true) :
      FailsItself event s id .timeout

theorem FailsItself.isTerminal_eq_false (h : FailsItself event s id failure) :
    failure.isTerminal = false := by
  cases h with
  | refused => rfl
  | lostPatience => rfl

/-- A call fails at an event by the session itself, or by an act of the link. -/
theorem fails_cases (served : ∀ p ∈ s.patience, s.link.isAlive = true)
    (h : ⟨id, .failed failure⟩ ∈ (s.step now event).2.replies) :
    FailsItself event s id failure ∨
      ∃ l a, Performs now event s l a ∧ ⟨id, .failed failure⟩ ∈ (l.act now a).2.replies := by
  rcases step_cases now event s with ⟨id', request, reason, rfl, no, hstep⟩ | rfl | ⟨-, passes⟩
  · rw [hstep] at h
    cases List.mem_singleton.mp h
    exact .inl (.refused rfl no)
  · obtain ⟨p, hp, heq⟩ := List.mem_map.mp h
    cases heq
    exact .inl (.lostPatience rfl (served p (List.mem_filter.mp hp).1))
  · rw [passes.replies] at h
    exact .inr (mem_replies_passing.mp (List.mem_filter.mp h).1)

/-- A caller with patience waits for an engine that runs. -/
theorem isAlive_of_patience {source target : Address} {settings : Settings}
    {events : List (Instant × Event)} (distinct : (asked events).Nodup) {p : Patience}
    (hp : p ∈ (run events (opened source target settings)).1.patience) :
    (run events (opened source target settings)).1.link.isAlive = true := by
  by_contra hdead
  obtain ⟨cause, stopped⟩ := Link.stopped_of_not_isAlive (by simpa using hdead)
  have hnone := (over_of_stopped distinct stopped).idle.2
  rw [hnone] at hp
  cases hp

/-- In every run a call that fails is told whether the engine has stopped, except by the act of a
header fault. A target that is refused is refused for good. -/
theorem failures_truthful_iff (source target : Address) (settings : Settings)
    (earlier : List (Instant × Event)) :
    (∀ now event id failure, (asked (earlier ++ [(now, event)])).Nodup →
      ⟨id, .failed failure⟩ ∈
        ((run earlier (opened source target settings)).1.step now event).2.replies →
      (FailsItself event (run earlier (opened source target settings)).1 id failure ∧
          failure.isTerminal = false) ∨
        ∃ l a, Performs now event (run earlier (opened source target settings)).1 l a ∧
          ⟨id, .failed failure⟩ ∈ (l.act now a).2.replies ∧
          (Link.Truthful failure (l.act now a).1 ↔ ¬l.HeaderFault a)) ∧
    ∀ address failure,
      (run earlier (opened source target settings)).1.setTarget address = .error failure →
      Link.Truthful failure (run earlier (opened source target settings)).1.link := by
  refine ⟨?_, ?_⟩
  · intro now event id failure distinct hfails
    rw [asked_append] at distinct
    have hserved : ∀ p ∈ (run earlier (opened source target settings)).1.patience,
        (run earlier (opened source target settings)).1.link.isAlive = true := fun p hp =>
      isAlive_of_patience (List.nodup_append.mp distinct).1 hp
    rcases fails_cases hserved hfails with hitself | ⟨l, a, performs, hr⟩
    · exact .inl ⟨hitself, hitself.isTerminal_eq_false⟩
    · exact .inr ⟨l, a, performs, hr, (Link.step_act now a l).truthful_iff hr⟩
  · intro address failure hrefused
    cases hp : (run earlier (opened source target settings)).1.link.phase with
    | running e =>
      simp only [setTarget, hp] at hrefused
      cases hrefused
    | stopped cause =>
      obtain ⟨hstopped, -⟩ := setTarget_of_stopped hp 0 address
      rw [hstopped] at hrefused
      cases hrefused
      exact iff_of_true rfl (Link.isAlive_of_stopped hp)

/-- A receive waits. -/
def oneReceive : List (Instant × Event) := [(0, .ask 1 (.receive none)), (0, .take)]

/-- It waits until the stream ends. -/
def endedReceive : List (Instant × Event) := oneReceive ++ [(1, .read [])]

/-- The receive is told the truth, and so is who changes the target after that. -/
theorem endedReceive_truthful :
    (∃ l a, Performs 1 (.read []) (run oneReceive (opened 0x0E00 0x0680 {})).1 l a ∧
        ⟨1, .failed .endOfStream⟩ ∈ (l.act 1 a).2.replies ∧
        (Link.Truthful .endOfStream (l.act 1 a).1 ↔ ¬l.HeaderFault a)) ∧
      Link.Truthful .engineStopped (run endedReceive (opened 0x0E00 0x0680 {})).1.link := by
  refine ⟨?_, ?_⟩
  · rcases (failures_truthful_iff 0x0E00 0x0680 {} oneReceive).1 1 (.read []) 1 .endOfStream
      (by decide) (by decide +kernel) with ⟨hitself, -⟩ | hact
    · cases hitself
    · exact hact
  · have stopped : (run endedReceive (opened 0x0E00 0x0680 {})).1.link.phase =
        .stopped .endOfStream := by decide +kernel
    obtain ⟨refused, -⟩ := setTarget_of_stopped stopped 2 0x0690
    exact (failures_truthful_iff 0x0E00 0x0680 {} endedReceive).2 0x0690 _ refused

/-- Octets that are no header stop the engine, and the failure of the receive does not say so. -/
theorem oneReceive_untold :
    (run oneReceive (opened 0x0E00 0x0680 {})).1.link.isAlive = true ∧
      ((run oneReceive (opened 0x0E00 0x0680 {})).1.step 1
        (.read [0x02, 0xFC, 0x80, 0x01, 0, 0, 0, 4])).1.link.isAlive = false ∧
      ((run oneReceive (opened 0x0E00 0x0680 {})).1.step 1
        (.read [0x02, 0xFC, 0x80, 0x01, 0, 0, 0, 4])).2.replies =
          [⟨1, .failed (.parse "Invalid protocol version pattern: 0x02/0xFC")⟩] ∧
      (Failure.parse "Invalid protocol version pattern: 0x02/0xFC").isTerminal = false := by
  decide +kernel

end Session
end Doip
