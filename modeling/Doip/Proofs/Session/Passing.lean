import Doip.Proofs.Session.Segmentation
import Doip.Proofs.Link.Accounts

/-! # What a session passes to its link

A session decides some things by itself: it refuses calls, and lets callers of collections lose
their patience. Everything else it passes to its link, and hands over the answers that come of
it. `Step` lists these cases. So a run of a session is a run of its link (`link_run`), and a
call whose caller waits gets the answers of the link (`Awaited.run`). -/
namespace Doip

namespace Session

/-- How long the caller of a collection waits, if this is a duration. -/
def bound? (s : Session) (window : Duration) : Option Duration :=
  (window.add? s.link.tuning.grace).bind (Duration.add? · s.margin)

theorem nanos_of_bound? {s : Session} {window bound : Duration}
    (h : s.bound? window = some bound) :
    bound.nanos = window.nanos + s.link.tuning.grace.nanos + s.margin.nanos := by
  obtain ⟨sum, hsum, hbound⟩ := Option.bind_eq_some_iff.mp h
  rw [Duration.nanos_of_add? hbound, Duration.nanos_of_add? hsum]

/-- The call that a request becomes, unless it is refused. -/
def call? (s : Session) : Request → Option Call
  | .activate type => some (.activate type)
  | .send data timeout =>
    if s.link.tuning.maxPayload.toNat < data.length + addressesLength then none
    else some (.send s.target data timeout)
  | .receive timeout => some (.receive timeout)
  | .collect none => none
  | .collect (some window) => (s.bound? window).map fun _ => .collect window

/-- The patience that a caller starts with. -/
def newPatience (now : Instant) (s : Session) : Event → List Patience
  | .ask id (.collect (some window)) =>
    (s.bound? window).toList.map fun bound =>
      ⟨id, (Instant.add? now bound).getD (farFuture now)⟩
  | _ => []

/-- The first thing that closing does. -/
def closing (s : Session) : Link.Event :=
  if s.closeTimeout = .zero then .abort else .requestShutdown

/-- What reaches the link at an event. -/
def passed (now : Instant) (s : Session) : Event → List Link.Event
  | .ask id request => (s.call? request).toList.map (.request id)
  | .setTarget target => [.retarget target]
  | .shutdown => [.requestShutdown]
  | .close =>
    s.closing :: List.replicate (s.link.step now s.closing).1.queue.length .take
  | .take => [.take]
  | .read octets => [.read octets]
  | .readFailed text => [.readFailed text]
  | .deadline => [.deadline]
  | .losePatience => []

/-- What reaches the link in a run. -/
def passedAll : List (Instant × Event) → Session → List (Instant × Link.Event)
  | [], _ => []
  | (now, event) :: events, s =>
    (s.passed now event).map (now, ·) ++ passedAll events (s.step now event).1

/-- The run of the link at an event. -/
def passing (now : Instant) (s : Session) (event : Event) : Link × Effect :=
  Link.run ((s.passed now event).map (now, ·)) s.link

/-- What a session can do at an event. -/
inductive Step (now : Instant) (s : Session) : Event → Session → Effect → Prop where
  | refused {id : CallId} {request : Request} {failure : Failure} (no : s.call? request = none) :
      Step now s (.ask id request) s (.reply id (.failed failure))
  | passedOn {event : Event} {s' : Session} (link : s'.link = (s.passing now event).1)
      (margin : s'.margin = s.margin) (givenUp : s'.givenUp = s.givenUp)
      (patience : s'.patience = s.patience ++ s.newPatience now event) :
      Step now s event (s'.deliver (s.passing now event).2).1 (s'.deliver (s.passing now event).2).2
  | lostPatience : Step now s .losePatience (s.losePatience now).1 (s.losePatience now).2

theorem deliver_none (s : Session) : s.deliver .none = (s, .none) := by
  simp [deliver, Effect.none]

/-- Hands over what comes of a run of the link. -/
def passAll (events : List (Instant × Link.Event)) (s : Session) : Session × Effect :=
  deliver { s with link := (Link.run events s.link).1 } (Link.run events s.link).2

theorem passAll_nil (s : Session) : s.passAll [] = (s, .none) := s.deliver_none

theorem passAll_cons (now : Instant) (event : Link.Event) (events : List (Instant × Link.Event))
    (s : Session) :
    s.passAll ((now, event) :: events) =
      (((s.passOn now event).1.passAll events).1,
        (s.passOn now event).2 ++ ((s.passOn now event).1.passAll events).2) := by
  have hlink : (s.passOn now event).1.link = (s.link.step now event).1 := rfl
  have hboth := deliver_append
    { s with link := (Link.run events (s.link.step now event).1).1 } (s.link.step now event).2
    (Link.run events (s.link.step now event).1).2
  unfold passAll
  rw [hlink]
  exact hboth

theorem takeCommands_eq (now : Instant) (count : Nat) (s : Session) :
    s.takeCommands now count = s.passAll (List.replicate count (now, .take)) := by
  induction count generalizing s with
  | zero => exact s.passAll_nil.symm
  | succ count ih =>
    rw [List.replicate_succ, passAll_cons]
    simp only [takeCommands, ih]

theorem close_eq (now : Instant) (s : Session) :
    s.close now = passAll ((s.passed now .close).map (now, ·)) { s with activated := false } := by
  have hbegin : s.beginClose now = passOn now s.closing { s with activated := false } := by
    unfold beginClose closing
    by_cases hzero : s.closeTimeout = .zero
    · rw [if_pos hzero, if_pos hzero]
    · rw [if_neg hzero, if_neg hzero]
      rfl
  unfold close takeAll
  simp only [passed, List.map_cons, List.map_replicate, passAll_cons, takeCommands_eq, hbegin]
  rfl

theorem step_passAll {now : Instant} {event : Event} {s s' : Session} (link : s'.link = s.link)
    (margin : s'.margin = s.margin) (givenUp : s'.givenUp = s.givenUp)
    (patience : s'.patience = s.patience ++ s.newPatience now event) :
    Step now s event (s'.passAll ((s.passed now event).map (now, ·))).1
      (s'.passAll ((s.passed now event).map (now, ·))).2 := by
  unfold passAll
  rw [link]
  exact .passedOn rfl margin givenUp patience

theorem passAll_single (now : Instant) (event : Link.Event) (s : Session) :
    s.passAll [(now, event)] = s.passOn now event := by
  rw [passAll_cons, passAll_nil]
  simp only [Effect.append_none]

theorem step_passOn {now : Instant} {event : Event} {s s' : Session} {passed : Link.Event}
    (hpassed : s.passed now event = [passed]) (link : s'.link = s.link)
    (margin : s'.margin = s.margin) (givenUp : s'.givenUp = s.givenUp)
    (patience : s'.patience = s.patience ++ s.newPatience now event) :
    Step now s event (s'.passOn now passed).1 (s'.passOn now passed).2 := by
  have hstep := step_passAll link margin givenUp patience
  simp only [hpassed, List.map_cons, List.map_nil] at hstep
  rwa [passAll_single] at hstep

theorem step_ask (now : Instant) (id : CallId) (request : Request) (s : Session) :
    Step now s (.ask id request) (s.ask now id request).1 (s.ask now id request).2 := by
  have hpassed : ∀ {call}, s.call? request = some call →
      s.passed now (.ask id request) = [.request id call] := by
    intro call hcall
    simp only [passed, hcall, Option.toList_some, List.map_cons, List.map_nil]
  cases request with
  | activate type => exact step_passOn (hpassed rfl) rfl rfl rfl (List.append_nil _).symm
  | receive timeout => exact step_passOn (hpassed rfl) rfl rfl rfl (List.append_nil _).symm
  | send data timeout =>
    simp only [ask, send]
    split
    · rename_i hlong
      exact .refused (if_pos hlong)
    · rename_i hfits
      exact step_passOn (hpassed (if_neg hfits)) rfl rfl rfl (List.append_nil _).symm
  | collect timeout =>
    cases timeout with
    | none => exact .refused rfl
    | some window =>
      simp only [ask, collect]
      split
      · rename_i hbound
        exact .refused (by simp [call?, bound?, hbound])
      · rename_i bound hbound
        refine step_passOn (hpassed (by simp [call?, bound?, hbound])) rfl rfl rfl ?_
        simp [newPatience, bound?, hbound]

theorem setTarget_eq (now : Instant) (target : Address) (s : Session) :
    s.step now (.setTarget target) = s.passOn now (.retarget target) := by
  cases hp : s.link.phase with
  | running e =>
    simp only [step, setTarget, passOn, hp, Link.step, Link.stepRunning]
    exact (deliver_none _).symm
  | stopped cause =>
    simp only [step, setTarget, passOn, hp, Link.step]
    exact (deliver_none _).symm

theorem step_step (now : Instant) (event : Event) (s : Session) :
    Step now s event (s.step now event).1 (s.step now event).2 := by
  cases event with
  | ask id request => exact step_ask now id request s
  | losePatience => exact .lostPatience
  | close =>
    simp only [step, close_eq]
    exact step_passAll rfl rfl rfl (List.append_nil _).symm
  | setTarget target =>
    rw [setTarget_eq]
    exact step_passOn rfl rfl rfl rfl (List.append_nil _).symm
  | shutdown | take | read | readFailed | deadline =>
    exact step_passOn rfl rfl rfl rfl (List.append_nil _).symm

variable {now : Instant} {event : Event} {s s' : Session} {effect : Effect}

theorem passing_of_nothing (h : s.passed now event = []) :
    s.passing now event = (s.link, .none) := by
  simp only [passing, h, List.map_nil, Link.run]

theorem passed_of_refused {id : CallId} {request : Request} (h : s.call? request = none) :
    s.passed now (.ask id request) = [] := by
  simp only [passed, h, Option.toList_none, List.map_nil]

theorem Step.link (h : Step now s event s' effect) : s'.link = (s.passing now event).1 := by
  cases h with
  | refused no => rw [passing_of_nothing (passed_of_refused no)]
  | passedOn link => exact link
  | lostPatience => rfl

theorem Step.margin (h : Step now s event s' effect) : s'.margin = s.margin := by
  cases h with
  | passedOn _ margin => exact margin
  | refused | lostPatience => rfl

theorem margin_run (events : List (Instant × Event)) (s : Session) :
    (run events s).1.margin = s.margin := by
  induction events generalizing s with
  | nil => rfl
  | cons x events ih => exact (ih _).trans (step_step x.1 x.2 s).margin

/-- A run of a session is a run of its link. -/
theorem link_run (events : List (Instant × Event)) (s : Session) :
    (run events s).1.link = (Link.run (passedAll events s) s.link).1 := by
  induction events generalizing s with
  | nil => rfl
  | cons x events ih =>
    obtain ⟨now, event⟩ := x
    have hlink := (step_step now event s).link
    rw [passedAll, Link.run_append]
    change _ = (Link.run _ (s.passing now event).1).1
    rw [← hlink]
    exact ih _

theorem passedAll_append (first others : List (Instant × Event)) (s : Session) :
    passedAll (first ++ others) s = passedAll first s ++ passedAll others (run first s).1 := by
  induction first generalizing s with
  | nil => rfl
  | cons x first ih => simp only [List.cons_append, passedAll, run, ih, List.append_assoc]

theorem tuning_run (events : List (Instant × Event)) (s : Session) :
    (run events s).1.link.tuning = s.link.tuning := by
  rw [link_run, Link.tuning_run]

theorem bound?_run (events : List (Instant × Event)) (s : Session) (window : Duration) :
    (run events s).1.bound? window = s.bound? window := by
  simp only [bound?, tuning_run, margin_run]

/-- What the link does in a run. -/
def history (events : List (Instant × Event)) (s : Session) : List (Instant × Link.Act) :=
  Link.history (passedAll events s) s.link

theorem history_append (first others : List (Instant × Event)) (s : Session) :
    history (first ++ others) s = history first s ++ history others (run first s).1 := by
  unfold history
  rw [passedAll_append, Link.history_append, link_run]

theorem link_actAll (events : List (Instant × Event)) (s : Session) :
    (Link.actAll (history events s) s.link).1 = (run events s).1.link := by
  rw [history, ← Link.run_eq_actAll, ← link_run]

theorem history_take (now : Instant) (s : Session) : history [(now, .take)] s = [(now, .take)] :=
  rfl

/-- What reaches the link does so at one of the events. -/
theorem mem_passedAll {now : Instant} {passed : Link.Event} {events : List (Instant × Event)}
    {s : Session} (h : (now, passed) ∈ passedAll events s) :
    ∃ earlier event later, events = earlier ++ (now, event) :: later ∧
      passed ∈ (run earlier s).1.passed now event := by
  induction events generalizing s with
  | nil => cases h
  | cons x events ih =>
    obtain ⟨time, event⟩ := x
    rcases List.mem_append.mp h with hfirst | hlater
    · obtain ⟨passed', hpassed, heq⟩ := List.mem_map.mp hfirst
      cases heq
      exact ⟨[], event, events, rfl, hpassed⟩
    · obtain ⟨earlier, event', later, rfl, hpassed⟩ := ih hlater
      exact ⟨(time, event) :: earlier, event', later, rfl, hpassed⟩

/-- Closing passes on a request to stop, and nothing else but takes. -/
theorem passed_close {passed : Link.Event} (h : passed ∈ s.passed now .close) :
    passed = .abort ∨ passed = .requestShutdown ∨ passed = .take := by
  rcases List.mem_cons.mp h with rfl | htake
  · unfold closing
    split
    · exact .inl rfl
    · exact .inr (.inl rfl)
  · exact .inr (.inr (List.mem_replicate.mp htake).2)

theorem deadline_of_mem_passedAll {now : Instant} {events : List (Instant × Event)} {s : Session}
    (h : (now, .deadline) ∈ passedAll events s) : (now, .deadline) ∈ events := by
  obtain ⟨earlier, event, later, rfl, hpassed⟩ := mem_passedAll h
  cases event with
  | deadline => exact List.mem_append_right _ List.mem_cons_self
  | close => rcases passed_close hpassed with h | h | h <;> cases h
  | ask id request =>
    obtain ⟨call, -, hcall⟩ := List.mem_map.mp hpassed
    cases hcall
  | _ => simp [Session.passed] at hpassed

/-- A call that reaches the link is made at one of the events. -/
theorem ask_of_mem_passedAll {now : Instant} {id : CallId} {call : Call}
    {events : List (Instant × Event)} {s : Session}
    (h : (now, .request id call) ∈ passedAll events s) :
    ∃ earlier request later, events = earlier ++ (now, .ask id request) :: later ∧
      (run earlier s).1.call? request = some call := by
  obtain ⟨earlier, event, later, rfl, hpassed⟩ := mem_passedAll h
  cases event with
  | ask id' request =>
    obtain ⟨call', hcall, heq⟩ := List.mem_map.mp hpassed
    cases heq
    exact ⟨earlier, request, later, rfl, Option.mem_toList.mp hcall⟩
  | close => rcases passed_close hpassed with h | h | h <;> cases h
  | _ => simp [Session.passed] at hpassed

/-! ## Calls -/

/-- The call that a caller makes at an event. -/
def Event.asked : Event → List CallId
  | .ask id _ => [id]
  | _ => []

/-- The calls made in a run. -/
def asked (events : List (Instant × Event)) : List CallId := events.flatMap (·.2.asked)

theorem asked_append (first others : List (Instant × Event)) :
    asked (first ++ others) = asked first ++ asked others := List.flatMap_append

theorem requested_passed (now : Instant) (event : Event) (s : Session) :
    (Link.requested ((s.passed now event).map (now, ·))).Sublist event.asked := by
  cases event with
  | ask id request =>
    simp only [passed]
    cases s.call? request with
    | none => exact List.nil_sublist _
    | some call => exact List.Sublist.refl _
  | close =>
    have hclosing : s.closing.issued = [] := by
      unfold closing
      split <;> rfl
    have htake : Link.Event.issued .take = [] := rfl
    simp [passed, Link.requested, hclosing, htake, List.flatMap_replicate]
  | setTarget | shutdown | take | read | readFailed | deadline | losePatience =>
    exact List.Sublist.refl []

/-- No call reaches the link that no caller has made. -/
theorem requested_sublist (events : List (Instant × Event)) (s : Session) :
    (Link.requested (passedAll events s)).Sublist (asked events) := by
  induction events generalizing s with
  | nil => exact List.Sublist.refl _
  | cons x events ih =>
    obtain ⟨now, event⟩ := x
    rw [passedAll, Link.requested, List.flatMap_append]
    exact (requested_passed now event s).append (ih _)

theorem call_of_newPatience {p : Patience} (h : p ∈ s.newPatience now event) :
    p.call ∈ event.asked := by
  unfold newPatience at h
  split at h
  · obtain ⟨bound, -, rfl⟩ := List.mem_map.mp h
    exact List.mem_singleton_self _
  · cases h

/-- Nobody has given up on the call `id`, and whoever waits for it with a patience of his own has
a deadline that is `due`. -/
structure Awaited (id : CallId) (due : Instant → Prop) (s : Session) : Prop where
  heard : id ∉ s.givenUp
  patience : ∀ p ∈ s.patience, p.call = id → due p.deadline

variable {id : CallId} {due : Instant → Prop}

theorem filter_deliver (effect : Effect) (h : id ∉ s.givenUp) :
    (s.deliver effect).2.replies.filter (·.call = id) =
      effect.replies.filter (·.call = id) := by
  simp only [deliver, List.filter_filter]
  refine List.filter_congr fun r _ => ?_
  by_cases hcall : r.call = id
  · simp [hcall, h]
  · simp [hcall]

theorem Awaited.deliver (hs : Awaited id due s) (effect : Effect) :
    Awaited id due (s.deliver effect).1 := by
  refine ⟨hs.heard, ?_⟩
  intro p hp hcall
  exact hs.patience p (List.mem_filter.mp hp).1 hcall

/-- The answers to a call that its caller hears are those of the link. -/
theorem Step.awaited (h : Step now s event s' effect) (hs : Awaited id due s)
    (accepted : ∀ request, event = .ask id request → s.call? request ≠ none)
    (patient : ∀ p ∈ s.newPatience now event, p.call = id → due p.deadline)
    (early : event = .losePatience → ∀ d, due d → now < d) :
    Awaited id due s' ∧
      effect.replies.filter (·.call = id) =
        (s.passing now event).2.replies.filter (·.call = id) := by
  cases h with
  | @refused id' request failure no =>
    refine ⟨hs, ?_⟩
    rw [passing_of_nothing (passed_of_refused no)]
    -- the call in question is accepted, so that it is another one that is refused
    have hother : id' ≠ id := by
      rintro rfl
      exact accepted request rfl no
    simp [Effect.reply, hother]
  | @passedOn _ s'' link margin givenUp patience =>
    have hheard : id ∉ s''.givenUp := by
      rw [givenUp]
      exact hs.heard
    refine ⟨Awaited.deliver ⟨hheard, ?_⟩ _, filter_deliver _ hheard⟩
    intro p hp hcall
    rw [patience] at hp
    rcases List.mem_append.mp hp with hold | hnew
    · exact hs.patience p hold hcall
    · exact patient p hnew hcall
  | lostPatience =>
    have hgone : id ∉ (s.patience.filter (·.deadline ≤ now)).map (·.call) := by
      intro hmem
      obtain ⟨p, hp, hcall⟩ := List.mem_map.mp hmem
      obtain ⟨hp, hle⟩ := List.mem_filter.mp hp
      have hlt := early rfl p.deadline (hs.patience p hp hcall)
      exact absurd hlt (Nat.not_lt.mpr (by simpa using hle))
    refine ⟨⟨?_, ?_⟩, ?_⟩
    · intro hmem
      rcases List.mem_append.mp hmem with hold | hnew
      · exact hs.heard hold
      · exact hgone hnew
    · intro p hp hcall
      exact hs.patience p (List.mem_filter.mp hp).1 hcall
    · rw [passing_of_nothing rfl]
      refine List.filter_eq_nil_iff.mpr fun r hr => ?_
      obtain ⟨p, hp, rfl⟩ := List.mem_map.mp hr
      have hne : p.call ≠ id := fun he => hgone (he ▸ List.mem_map_of_mem hp)
      simp [Engine.timedOut, hne]

/-- In a run the caller of `id` gets the answers that the link gives. -/
def Hears (id : CallId) (events : List (Instant × Event)) (s : Session) : Prop :=
  (run events s).2.replies.filter (·.call = id) =
    (Link.run (passedAll events s) s.link).2.replies.filter (·.call = id)

theorem hears_append {first others : List (Instant × Event)} (hfirst : Hears id first s)
    (hothers : Hears id others (run first s).1) : Hears id (first ++ others) s := by
  unfold Hears at *
  rw [run_append, passedAll_append, Link.run_append, ← link_run, Effect.replies_append,
    Effect.replies_append, List.filter_append, List.filter_append, hfirst, hothers]

theorem hears_single (h : (s.step now event).2.replies.filter (·.call = id) =
    (s.passing now event).2.replies.filter (·.call = id)) : Hears id [(now, event)] s := by
  unfold Hears
  simp only [passedAll, run, Effect.append_none, List.append_nil]
  exact h

theorem Awaited.run (events : List (Instant × Event)) (s : Session) (hs : Awaited id due s)
    (hnot : id ∉ asked events)
    (early : ∀ x ∈ events, x.2 = .losePatience → ∀ d, due d → x.1 < d) :
    Awaited id due (run events s).1 ∧ Hears id events s := by
  induction events generalizing s with
  | nil => exact ⟨hs, rfl⟩
  | cons x events ih =>
    obtain ⟨now, event⟩ := x
    have hasked : id ∉ event.asked := fun hmem => hnot (List.mem_append_left _ hmem)
    obtain ⟨hnext, hreplies⟩ := (step_step now event s).awaited hs
      (fun request he => absurd (by simp [he, Event.asked]) hasked)
      (fun p hp hcall => absurd (hcall ▸ call_of_newPatience hp) hasked)
      (early _ List.mem_cons_self)
    obtain ⟨hend, hlater⟩ := ih _ hnext (fun hmem => hnot (List.mem_append_right _ hmem))
      fun y hy => early y (List.mem_cons_of_mem _ hy)
    have hfirst : (Session.run [(now, event)] s).1 = (s.step now event).1 := rfl
    exact ⟨hend, hears_append (hears_single hreplies) (hfirst ▸ hlater)⟩

/-- Who has an answer waits no more. -/
theorem Awaited.answered (hs : Awaited id due s) {effect : Effect} (h : id ∈ effect.answered) :
    Awaited id (fun _ => False) (s.deliver effect).1 := by
  refine ⟨hs.heard, ?_⟩
  intro p hp hcall
  obtain ⟨r, hr, rfl⟩ := List.mem_map.mp h
  have hmem := (List.mem_filter.mp hp).2
  have hheard := hs.heard
  simp only [Bool.not_eq_true', List.contains_eq_mem, decide_eq_false_iff_not] at hmem
  refine hmem ?_
  rw [hcall]
  exact List.mem_map_of_mem (List.mem_filter.mpr ⟨hr, by simpa using hheard⟩)

end Session
end Doip
