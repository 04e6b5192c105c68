import Doip.Link
import Doip.Proofs.Engine.Turn

/-! # The acts of a run

One read may complete many frames, and between two of them the engine is in a state of
its own. A run is therefore taken apart into acts, in each of which the engine does one
thing: `history` lists the acts of a list of events, and `run_eq_actAll` says that
performing them is the run. A `Point` of a run lies after any number of its acts; what
happened up to there is read off with `log` and `Throughout`. `Step` lists what an act
can do to a link. -/
namespace Doip

namespace Effect

@[simp] theorem replies_append (a b : Effect) : (a ++ b).replies = a.replies ++ b.replies := rfl

@[simp] theorem replies_none : none.replies = [] := rfl

@[simp] theorem none_append (a : Effect) : none ++ a = a := rfl

@[simp] theorem append_none (a : Effect) : a ++ none = a := by
  change Effect.mk (a.replies ++ []) (a.sent ++ []) = a
  simp

theorem append_assoc (a b c : Effect) : a ++ b ++ c = a ++ (b ++ c) := by
  change Effect.mk (a.replies ++ b.replies ++ c.replies) (a.sent ++ b.sent ++ c.sent) =
    Effect.mk (a.replies ++ (b.replies ++ c.replies)) (a.sent ++ (b.sent ++ c.sent))
  simp

end Effect

namespace Link

/-- The finest steps of a link. -/
inductive Act where
  | request (id : CallId) (call : Call)
  | requestShutdown
  | retarget (target : Address)
  /-- The engine takes the oldest command. -/
  | take
  /-- The engine dispatches one frame. -/
  | dispatch (frame : Frame)
  /-- The engine keeps the octets that are left after the last whole frame. -/
  | keep (rest : Octets)
  | expire
  | stop (cause : Stop)
deriving DecidableEq, Repr

/-- The running engine of `l`, which is `e`, gets an input. -/
def work (now : Instant) (e : Engine) (input : Engine.Input) (l : Link) : Link × Effect :=
  let (e, effect) := e.handle l.tuning l.target now input
  ({ l with phase := .running e }, effect)

def actRunning (now : Instant) (e : Engine) (a : Act) (l : Link) : Link × Effect :=
  match a with
  | .request id call => ({ l with queue := l.queue ++ [.call id call] }, .none)
  | .requestShutdown => ({ l with queue := l.queue ++ [.shutdown] }, .none)
  | .retarget target => ({ l with target }, .none)
  | .take => l.takeCommand now e
  | .dispatch f => l.work now e (.dispatch f)
  | .keep rest => l.work now e (.keep rest)
  | .expire => l.work now e .expire
  | .stop cause => l.stop cause e

def act (now : Instant) (a : Act) (l : Link) : Link × Effect :=
  match l.phase with
  | .running e => l.actRunning now e a
  | .stopped _ =>
    match a with
    | .request id _ => (l, .reply id (.failed .engineStopped))
    | _ => (l, .none)

/-- Acts at their times, one after the other. -/
def actAll : List (Instant × Act) → Link → Link × Effect
  | [], l => (l, .none)
  | (now, a) :: acts, l =>
    let (l, first) := l.act now a
    let (l, others) := actAll acts l
    (l, first ++ others)

/-- A read is one act for each frame that it completes, and one for what is left. -/
def readActs (octets : Octets) (l : Link) : List Act :=
  match l.phase with
  | .stopped _ => []
  | .running e =>
    if octets = [] then [.stop .endOfStream]
    else
      let r := reassemble l.tuning.maxPayload (e.buffer ++ octets)
      r.frames.map .dispatch ++
        [match r.error with
          | none => .keep r.rest
          | some fault => .stop (.parse fault.message)]

/-- What a link does at an event. -/
def acts (event : Event) (l : Link) : List Act :=
  match event with
  | .request id call => [.request id call]
  | .requestShutdown => [.requestShutdown]
  | .retarget target => [.retarget target]
  | .take => [.take]
  | .abandoned => [.stop .shutdown]
  | .abort => [.stop .aborted]
  | .read octets => l.readActs octets
  | .readFailed text => [.stop (.io text)]
  | .deadline => [.expire]

/-- What a link does in a run. -/
def history : List (Instant × Event) → Link → List (Instant × Act)
  | [], _ => []
  | (now, event) :: events, l =>
    (l.acts event).map (now, ·) ++ history events (l.step now event).1

theorem actAll_append (first others : List (Instant × Act)) (l : Link) :
    actAll (first ++ others) l =
      ((actAll others (actAll first l).1).1,
        (actAll first l).2 ++ (actAll others (actAll first l).1).2) := by
  induction first generalizing l with
  | nil => rfl
  | cons a first ih =>
    obtain ⟨now, a⟩ := a
    simp only [List.cons_append, actAll, ih, Effect.append_assoc]

theorem actAll_concat (past : List (Instant × Act)) (now : Instant) (a : Act) (l : Link) :
    actAll (past ++ [(now, a)]) l =
      (((actAll past l).1.act now a).1,
        (actAll past l).2 ++ ((actAll past l).1.act now a).2) := by
  rw [actAll_append]
  simp only [actAll, Effect.append_none]

theorem actAll_dispatch (now : Instant) (frames : List Frame) (l : Link) (e : Engine)
    (h : l.phase = .running e) :
    actAll ((frames.map Act.dispatch).map (now, ·)) l =
      ({ l with phase := .running (Engine.dispatchAll l.tuning l.target now frames e).1 },
        (Engine.dispatchAll l.tuning l.target now frames e).2) := by
  induction frames generalizing l e with
  | nil =>
    obtain ⟨tuning, target, queue, phase⟩ := l
    cases h
    rfl
  | cons f frames ih =>
    have hact : l.act now (.dispatch f) =
        ({ l with phase := .running (e.dispatch l.tuning l.target now f).1 },
          (e.dispatch l.tuning l.target now f).2) := by
      simp only [act, h]
      rfl
    simp only [List.map_cons, actAll, hact, Engine.dispatchAll]
    rw [ih _ _ rfl]

theorem readOctets_eq (now : Instant) (octets : Octets) (l : Link) (e : Engine)
    (h : l.phase = .running e) :
    l.readOctets now octets e = actAll ((l.readActs octets).map (now, ·)) l := by
  unfold readOctets readActs
  simp only [h]
  by_cases ho : octets = []
  · simp [ho, actAll, act, h, actRunning]
  · simp only [ho, if_false, List.map_append, actAll_append, actAll_dispatch now _ l e h,
      Engine.absorb]
    cases (reassemble l.tuning.maxPayload (e.buffer ++ octets)).error with
    | none => simp [actAll, act, actRunning, work, Engine.handle]
    | some fault => simp [actAll, act, actRunning, stop, Engine.failAll, Engine.waiting]

theorem step_eq_actAll (now : Instant) (event : Event) (l : Link) :
    l.step now event = actAll ((l.acts event).map (now, ·)) l := by
  cases hp : l.phase with
  | stopped cause => cases event <;> simp [step, hp, acts, readActs, actAll, act]
  | running e =>
    cases event with
    | read octets =>
      simp only [step, hp, stepRunning, acts]
      exact readOctets_eq now octets l e hp
    | _ => simp [step, hp, stepRunning, acts, actAll, act, actRunning, work, Engine.handle]

theorem step_of_single {now : Instant} {event : Event} {a : Act} {l : Link}
    (h : l.acts event = [a]) : l.step now event = l.act now a := by
  rw [step_eq_actAll, h]
  simp only [List.map_cons, List.map_nil, actAll, Effect.append_none]

/-- A run is the performance of its acts. -/
theorem run_eq_actAll (events : List (Instant × Event)) (l : Link) :
    run events l = actAll (history events l) l := by
  induction events generalizing l with
  | nil => rfl
  | cons event events ih =>
    obtain ⟨now, event⟩ := event
    simp only [run, history, actAll_append, ← step_eq_actAll, ih]

theorem run_append (first others : List (Instant × Event)) (l : Link) :
    run (first ++ others) l =
      ((run others (run first l).1).1, (run first l).2 ++ (run others (run first l).1).2) := by
  induction first generalizing l with
  | nil => rfl
  | cons event first ih => simp only [List.cons_append, run, ih, Effect.append_assoc]

theorem history_append (first others : List (Instant × Event)) (l : Link) :
    history (first ++ others) l = history first l ++ history others (run first l).1 := by
  induction first generalizing l with
  | nil => rfl
  | cons x first ih => simp only [List.cons_append, history, run, ih, List.append_assoc]

/-- An act is part of what the link does at one of the events. -/
theorem mem_history {now : Instant} {a : Act} {events : List (Instant × Event)} {l : Link}
    (h : (now, a) ∈ history events l) :
    ∃ before event later, events = before ++ (now, event) :: later ∧
      a ∈ (run before l).1.acts event := by
  induction events generalizing l with
  | nil => cases h
  | cons x events ih =>
    obtain ⟨time, event⟩ := x
    rcases List.mem_append.mp h with hfirst | hlater
    · obtain ⟨b, hb, heq⟩ := List.mem_map.mp hfirst
      cases heq
      exact ⟨[], event, events, rfl, hb⟩
    · obtain ⟨before, event', later, rfl, hmem⟩ := ih hlater
      exact ⟨(time, event) :: before, event', later, rfl, hmem⟩

/-! ## Points of a run -/

/-- After the acts `past` of a run from `start` the link is `l`, and `effect` is what it has
done to its surroundings so far. -/
structure Point (events : List (Instant × Event)) (start : Link) (past : List (Instant × Act))
    (l : Link) (effect : Effect) : Prop where
  isPast : past <+: history events start
  reached : actAll past start = (l, effect)

theorem point_run (events : List (Instant × Event)) (start : Link) :
    Point events start (history events start) (run events start).1 (run events start).2 :=
  ⟨List.prefix_rfl, (run_eq_actAll events start).symm⟩

/-- What `note` says of each act, in the state in which it is performed. -/
def log {α : Type} (note : Link → Instant → Act → List α) : List (Instant × Act) → Link → List α
  | [], _ => []
  | (now, a) :: acts, l => note l now a ++ log note acts (l.act now a).1

theorem log_append {α : Type} (note : Link → Instant → Act → List α)
    (first others : List (Instant × Act)) (l : Link) :
    log note (first ++ others) l = log note first l ++ log note others (actAll first l).1 := by
  induction first generalizing l with
  | nil => rfl
  | cons a first ih =>
    obtain ⟨now, a⟩ := a
    simp only [List.cons_append, log, actAll, ih, List.append_assoc]

theorem log_concat {α : Type} (note : Link → Instant → Act → List α)
    (past : List (Instant × Act)) (now : Instant) (a : Act) (l : Link) :
    log note (past ++ [(now, a)]) l = log note past l ++ note (actAll past l).1 now a := by
  rw [log_append]
  simp only [log, List.append_nil]

/-- What is said has been said of one of the acts. -/
theorem mem_log {α : Type} {note : Link → Instant → Act → List α} {x : α}
    {acts : List (Instant × Act)} {l : Link} (h : x ∈ log note acts l) :
    ∃ earlier now a later, acts = earlier ++ (now, a) :: later ∧
      x ∈ note (actAll earlier l).1 now a := by
  induction acts generalizing l with
  | nil => cases h
  | cons y acts ih =>
    obtain ⟨now, a⟩ := y
    rcases List.mem_append.mp h with hnow | hlater
    · exact ⟨[], now, a, acts, rfl, hnow⟩
    · obtain ⟨earlier, time, b, later, rfl, hx⟩ := ih hlater
      exact ⟨(now, a) :: earlier, time, b, later, rfl, hx⟩

/-- `p` holds of each act, in the state in which it is performed. -/
def Throughout (p : Link → Instant → Act → Prop) : List (Instant × Act) → Link → Prop
  | [], _ => True
  | (now, a) :: acts, l => p l now a ∧ Throughout p acts (l.act now a).1

instance Throughout.decidable (p : Link → Instant → Act → Prop)
    [∀ l now a, Decidable (p l now a)] :
    (acts : List (Instant × Act)) → (l : Link) → Decidable (Throughout p acts l)
  | [], _ => inferInstanceAs (Decidable True)
  | (now, a) :: acts, l =>
    have := Throughout.decidable p acts (l.act now a).1
    inferInstanceAs (Decidable (p l now a ∧ Throughout p acts (l.act now a).1))

theorem throughout_append {p : Link → Instant → Act → Prop} {first others : List (Instant × Act)}
    {l : Link} :
    Throughout p (first ++ others) l ↔
      Throughout p first l ∧ Throughout p others (actAll first l).1 := by
  induction first generalizing l with
  | nil => simp [Throughout, actAll]
  | cons a first ih =>
    obtain ⟨now, a⟩ := a
    simp only [List.cons_append, Throughout, actAll, ih, and_assoc]

/-- `p` holds of each act, given the acts before it. -/
def AtEach (p : List (Instant × Act) → Instant → Act → Prop) (past : List (Instant × Act)) : Prop :=
  ∀ i (h : i < past.length), p (past.take i) past[i].1 past[i].2

instance (p : List (Instant × Act) → Instant → Act → Prop)
    [∀ before now a, Decidable (p before now a)] (past : List (Instant × Act)) :
    Decidable (AtEach p past) :=
  inferInstanceAs (Decidable (∀ i (h : i < past.length), p (past.take i) past[i].1 past[i].2))

theorem atEach_iff {p : List (Instant × Act) → Instant → Act → Prop}
    {past : List (Instant × Act)} :
    AtEach p past ↔ ∀ before now a, before ++ [(now, a)] <+: past → p before now a := by
  constructor
  · rintro h before now a ⟨rest, rfl⟩
    have := h before.length (by simp)
    simpa using this
  · intro h i hi
    refine h _ past[i].1 past[i].2 ?_
    rw [List.take_append_getElem hi]
    exact List.take_prefix _ _

theorem atEach_concat {p : List (Instant × Act) → Instant → Act → Prop}
    {past : List (Instant × Act)} {now : Instant} {a : Act} :
    AtEach p (past ++ [(now, a)]) ↔ AtEach p past ∧ p past now a := by
  simp only [atEach_iff]
  constructor
  · intro h
    refine ⟨?_, h past now a List.prefix_rfl⟩
    intro before now' a' hpart
    exact h before now' a' (hpart.trans (List.prefix_append _ _))
  · rintro ⟨hpast, hlast⟩ before now' a' hpart
    rcases List.prefix_concat_iff.mp hpart with heq | hpart
    · obtain ⟨rfl, hsame⟩ := List.append_inj' heq rfl
      cases hsame
      exact hlast
    · exact hpast before now' a' hpart

/-! ## One act -/

/-- The engine; an idle one once it has stopped. -/
def engine (l : Link) : Engine :=
  match l.phase with
  | .running e => e
  | .stopped _ => .initial

theorem running_of_isAlive {l : Link} (h : l.isAlive = true) : ∃ e, l.phase = .running e := by
  cases hp : l.phase with
  | running e => exact ⟨e, rfl⟩
  | stopped cause => simp [isAlive, hp] at h

theorem engine_of_running {l : Link} {e : Engine} (h : l.phase = .running e) : l.engine = e := by
  simp [engine, h]

theorem engine_of_stopped {l : Link} {cause : Stop} (h : l.phase = .stopped cause) :
    l.engine = .initial := by
  simp [engine, h]

/-- The frame that the engine dispatches at an act. -/
def Act.frame? : Act → Option Frame
  | .dispatch f => some f
  | _ => none

/-- What reaches the engine at an act other than the taking of a call. -/
def Act.input? : Act → Option Engine.Input
  | .dispatch f => some (.dispatch f)
  | .keep rest => some (.keep rest)
  | .expire => some .expire
  | _ => none

/-- What reaches the engine at an act. -/
def input? (l : Link) (a : Act) : Option Engine.Input :=
  match l.phase, a, l.queue with
  | .running _, .take, .call id call :: _ => some (.start id call)
  | .running _, a, _ => a.input?
  | .stopped _, _, _ => none

theorem input?_of_worked {l : Link} {e : Engine} {a : Act} {input : Engine.Input}
    (alive : l.phase = .running e) (h : a.input? = some input) : l.input? a = some input := by
  rw [← h]
  cases a <;> simp [Act.input?] at h <;> simp [input?, alive]

theorem act_of_input? {l : Link} {a b : Act} {input : Engine.Input} (h : l.input? a = some input)
    (hb : b.input? = some input) : a = b := by
  have hcases : (∃ id call, input = .start id call) ∨ a.input? = some input := by
    unfold input? at h
    split at h
    · cases h
      exact .inl ⟨_, _, rfl⟩
    · exact .inr h
    · cases h
  rcases hcases with ⟨id, call, rfl⟩ | ha
  · cases b <;> cases hb
  · cases a <;> cases ha <;> cases b <;> cases hb <;> rfl

/-- What an act can do to a link. -/
inductive Step (now : Instant) (l : Link) : Act → Link → Effect → Prop where
  | requested {e : Engine} {id : CallId} {call : Call} (alive : l.phase = .running e) :
      Step now l (.request id call) { l with queue := l.queue ++ [.call id call] } .none
  | refused {cause : Stop} {id : CallId} {call : Call} (dead : l.phase = .stopped cause) :
      Step now l (.request id call) l (.reply id (.failed .engineStopped))
  | shutdownRequested {e : Engine} (alive : l.phase = .running e) :
      Step now l .requestShutdown { l with queue := l.queue ++ [.shutdown] } .none
  | retargeted {e : Engine} {target : Address} (alive : l.phase = .running e) :
      Step now l (.retarget target) { l with target } .none
  | taken {e e' : Engine} {id : CallId} {call : Call} {queue : List Command} {effect : Effect}
      (alive : l.phase = .running e) (head : l.queue = .call id call :: queue)
      (turn : Engine.Turn l.tuning l.target now e (.start id call) e' effect) :
      Step now l .take { l with queue, phase := .running e' } effect
  | worked {e e' : Engine} {a : Act} {input : Engine.Input} {effect : Effect}
      (alive : l.phase = .running e) (input_eq : a.input? = some input)
      (turn : Engine.Turn l.tuning l.target now e input e' effect) :
      Step now l a { l with phase := .running e' } effect
  | stopped {e : Engine} {cause : Stop} (alive : l.phase = .running e) :
      Step now l (.stop cause) { l with queue := [], phase := .stopped cause }
        ⟨e.failAll cause.failure ++ failQueued cause.failure l.queue, []⟩
  /-- The engine takes the request to stop. -/
  | shutDown {e : Engine} {queue : List Command} (alive : l.phase = .running e)
      (head : l.queue = .shutdown :: queue) :
      Step now l .take { l with queue := [], phase := .stopped .shutdown }
        ⟨e.failAll Stop.shutdown.failure ++ failQueued Stop.shutdown.failure queue, []⟩
  | idle {e : Engine} (alive : l.phase = .running e) (empty : l.queue = []) :
      Step now l .take l .none
  | ended {cause : Stop} {a : Act} (dead : l.phase = .stopped cause)
      (other : ∀ id call, a ≠ .request id call) : Step now l a l .none

theorem step_act (now : Instant) (a : Act) (l : Link) :
    Step now l a (l.act now a).1 (l.act now a).2 := by
  cases hp : l.phase with
  | stopped cause =>
    cases a with
    | request id call => simpa [act, hp] using Step.refused hp
    | _ => simpa [act, hp] using Step.ended hp (by simp)
  | running e =>
    simp only [act, hp]
    cases a with
    | request id call => exact .requested hp
    | requestShutdown => exact .shutdownRequested hp
    | retarget target => exact .retargeted hp
    | take =>
      simp only [actRunning, takeCommand]
      split
      · rename_i hq
        exact .idle hp hq
      · rename_i queue hq
        exact .shutDown hp hq
      · rename_i id call queue hq
        exact .taken hp hq (Engine.turn_start id call)
    | dispatch f => exact .worked hp rfl (Engine.turn_handle (.dispatch f))
    | keep rest => exact .worked hp rfl (Engine.turn_handle (.keep rest))
    | expire => exact .worked hp rfl (Engine.turn_handle .expire)
    | stop cause => exact .stopped hp

/-- When the engine stops, all calls fail for the same reason. -/
theorem answer_of_stop {failure : Failure} {e : Engine} {queue : List Command} {r : Reply}
    (h : r ∈ e.failAll failure ++ failQueued failure queue) : r.answer = .failed failure := by
  rcases List.mem_append.mp h with h | h
  · obtain ⟨call, -, rfl⟩ := List.mem_map.mp h
    rfl
  · obtain ⟨command, -, hc⟩ := List.mem_filterMap.mp h
    cases command with
    | call id call =>
      cases hc
      rfl
    | shutdown => cases hc

/-- A stopped link stays so. -/
theorem Step.wasAlive {now : Instant} {l l' : Link} {a : Act} {effect : Effect}
    (h : Step now l a l' effect) (alive' : l'.isAlive = true) : l.isAlive = true := by
  cases h with
  | refused | ended | idle => exact alive'
  | stopped | shutDown => cases alive'
  | requested alive | shutdownRequested alive | retargeted alive | taken alive | worked alive =>
    simp only [isAlive, alive]

/-- What every act keeps holds after all acts. -/
theorem actAll_keeps (p : Link → Prop)
    (keeps : ∀ {now l a l' effect}, Step now l a l' effect → p l → p l')
    (past : List (Instant × Act)) (start : Link) (h : p start) : p (actAll past start).1 := by
  induction past generalizing start with
  | nil => exact h
  | cons a past ih =>
    obtain ⟨now, a⟩ := a
    exact ih _ (keeps (step_act now a start) h)

end Link
end Doip
