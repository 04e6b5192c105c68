import Doip.Proofs.Link.Settlement
import Mathlib.Data.List.Induction

/-! # The end of a link

An event stops a running engine for one cause or for none, which `cause?` reads off. The act that
does it fails every call that waits or is queued with the failure of this cause, and writes
nothing (`Step.ends`). After that a link stays as it is, whatever happens, and refuses every call
(`run_of_ended`). -/
namespace Doip
namespace Link

/-- Why an event stops a running engine, if it does. -/
def cause? (l : Link) : Event → Option Stop
  | .take => if l.queue.head? = some .shutdown then some .shutdown else none
  | .abandoned => some .shutdown
  | .abort => some .aborted
  | .read octets =>
    if octets = [] then some .endOfStream
    else (reassemble l.tuning.maxPayload (l.engine.buffer ++ octets)).error.map
      fun fault => .parse fault.message
  | .readFailed text => some (.io text)
  | .request _ _ | .requestShutdown | .retarget _ | .deadline => none

variable {now : Instant} {l l' : Link} {a : Act} {effect : Effect} {e : Engine} {cause : Stop}

theorem isAlive_of_running (h : l.phase = .running e) : l.isAlive = true := by
  simp only [isAlive, h]

theorem isAlive_of_stopped (h : l.phase = .stopped cause) : l.isAlive = false := by
  simp only [isAlive, h]

theorem stopped_of_not_isAlive (h : l.isAlive = false) : ∃ cause, l.phase = .stopped cause := by
  cases hp : l.phase with
  | running e => simp [isAlive, hp] at h
  | stopped cause => exact ⟨cause, rfl⟩

theorem stops_iff_cause? (alive : l.isAlive = true) (now : Instant) (event : Event)
    (cause : Stop) :
    (l.step now event).1.phase = .stopped cause ↔ l.cause? event = some cause := by
  obtain ⟨e, running⟩ := running_of_isAlive alive
  simp only [step, running]
  cases event with
  | request id call => simp [stepRunning, cause?, running]
  | requestShutdown => simp [stepRunning, cause?, running]
  | retarget target => simp [stepRunning, cause?, running]
  | deadline => simp [stepRunning, cause?]
  | abandoned => simp [stepRunning, stop, cause?]
  | abort => simp [stepRunning, stop, cause?]
  | readFailed text => simp [stepRunning, stop, cause?]
  | take =>
    simp only [stepRunning, takeCommand, cause?]
    split
    · rename_i hq
      simp [hq, running]
    · rename_i queue hq
      simp [hq, stop]
    · rename_i id call queue hq
      simp [hq]
  | read octets =>
    simp only [stepRunning, readOctets, cause?]
    by_cases hne : octets = []
    · simp [hne, stop]
    · rw [if_neg hne, if_neg hne, engine_of_running running]
      simp only [Engine.absorb]
      cases (reassemble l.tuning.maxPayload (e.buffer ++ octets)).error with
      | none => simp
      | some fault => simp [stop]

/-- How the calls fail that wait or are queued. -/
def failures (failure : Failure) (l : Link) : List Reply :=
  (l.engine.waiting ++ queuedIn l.queue).map fun id => ⟨id, .failed failure⟩

theorem failAll_append_failQueued (failure : Failure) (e : Engine) (queue : List Command) :
    e.failAll failure ++ failQueued failure queue =
      (e.waiting ++ queuedIn queue).map fun id => ⟨id, .failed failure⟩ := by
  rw [List.map_append, Engine.failAll, failQueued, queuedIn, List.map_filterMap]
  congr 2
  funext command
  cases command <;> rfl

/-- The act that stops an engine fails everyone with the failure of its cause. -/
theorem Step.ends (h : Step now l a l' effect) (alive : l.isAlive = true)
    (dead : l'.phase = .stopped cause) :
    effect = ⟨l.failures cause.failure, []⟩ ∧
      l' = { l with queue := [], phase := .stopped cause } := by
  cases h with
  | stopped running =>
    cases dead
    rw [failAll_append_failQueued, failures, engine_of_running running]
    exact ⟨rfl, rfl⟩
  | @shutDown e queue running head =>
    cases dead
    have hqueue : queuedIn l.queue = queuedIn queue := by rw [head]; rfl
    rw [failAll_append_failQueued, failures, engine_of_running running, hqueue]
    exact ⟨rfl, rfl⟩
  | refused ended => simp [isAlive, ended] at alive
  | ended ended => simp [isAlive, ended] at alive
  | requested running | shutdownRequested running | retargeted running | idle running =>
    simp [running] at dead
  | taken | worked => cases dead

/-- The refusals of the calls that are made. -/
def refusals (events : List (Instant × Event)) : List Reply :=
  (requested events).map fun id => ⟨id, .failed .engineStopped⟩

/-- After the stop a link does nothing but refuse calls. -/
theorem run_of_ended (h : l.phase = .stopped cause) (events : List (Instant × Event)) :
    run events l = (l, ⟨refusals events, []⟩) := by
  induction events with
  | nil => rfl
  | cons x events ih =>
    obtain ⟨now, event⟩ := x
    have hstep : l.step now event = (l, ⟨refusals [(now, event)], []⟩) := by
      cases event <;> simp only [step, h] <;> rfl
    have hrefusals : refusals ((now, event) :: events) =
        refusals [(now, event)] ++ refusals events := by simp [refusals, requested]
    simp only [run, hstep, ih, hrefusals]
    rfl

theorem act_of_ended (h : l.phase = .stopped cause) (now : Instant) (a : Act) :
    (l.act now a).1 = l := by
  cases a <;> simp [act, h]

/-- If the engine has stopped after some acts, one of them has stopped it. -/
theorem exists_stop {past : List (Instant × Act)} {start : Link} (alive : start.isAlive = true)
    (dead : (actAll past start).1.phase = .stopped cause) :
    ∃ before now a, before ++ [(now, a)] <+: past ∧ (actAll before start).1.isAlive = true ∧
      ((actAll before start).1.act now a).1.phase = .stopped cause := by
  induction past using List.reverseRecOn with
  | nil =>
    have hdead : start.isAlive = false := isAlive_of_stopped dead
    rw [hdead] at alive
    cases alive
  | append_singleton past x ih =>
    obtain ⟨now, a⟩ := x
    rw [actAll_concat] at dead
    by_cases hpast : (actAll past start).1.isAlive = true
    · exact ⟨past, now, a, List.prefix_rfl, hpast, dead⟩
    · obtain ⟨earlier, hearlier⟩ := stopped_of_not_isAlive (by simpa using hpast)
      rw [act_of_ended hearlier] at dead
      obtain ⟨before, time, b, hpart, hstop⟩ := ih dead
      exact ⟨before, time, b, hpart.trans (List.prefix_append _ _), hstop⟩

end Link
end Doip
