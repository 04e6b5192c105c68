import Doip.Proofs.Session.Passing

/-! # Every caller gets one answer

A call is refused by the session, or it is passed to the link and its caller waits. A caller that
waits gets the answer of the link, or gives up and gets a timeout; what the link answers after
that goes nowhere. So the calls made in a run are those answered and those whose callers still
wait (`served_run`). -/
namespace Doip
open List (Perm)

namespace Session

theorem ask_of_refused {s : Session} {request : Request} (h : s.call? request = none)
    (now : Instant) (id : CallId) :
    ∃ reason, s.ask now id request = s.refuse id (.invalidArgument reason) := by
  cases request with
  | activate type => cases h
  | receive timeout => cases h
  | send data timeout =>
    simp only [call?] at h
    split at h
    · rename_i hlong
      exact ⟨_, if_pos hlong⟩
    · cases h
  | collect timeout =>
    cases timeout with
    | none => exact ⟨_, rfl⟩
    | some window =>
      have hbound : s.bound? window = none := by simpa [call?] using h
      refine ⟨"collection window is too large", ?_⟩
      unfold bound? at hbound
      simp only [ask, collect, hbound]

variable {now : Instant} {event : Event} {s s' : Session} {effect : Effect} {id : CallId}

/-- A session passes an event to its link and hands over what comes of it. -/
structure Passes (now : Instant) (event : Event) (s s' : Session) (effect : Effect) : Prop where
  link : s'.link = (s.passing now event).1
  givenUp : s'.givenUp = s.givenUp
  replies : effect.replies =
    (s.passing now event).2.replies.filter fun r => !s.givenUp.contains r.call
  sent : effect.sent = (s.passing now event).2.sent
  patience : s'.patience =
    (s.patience ++ s.newPatience now event).filter fun p => !effect.answered.contains p.call

/-- Whether the session refuses a call at this event. -/
def Refuses (s : Session) (event : Event) : Prop :=
  ∃ id request, event = .ask id request ∧ s.call? request = none

theorem Step.passes (h : Step now s event s' effect) (accepted : ¬s.Refuses event)
    (patient : event ≠ .losePatience) : Passes now event s s' effect := by
  cases h with
  | refused no => exact absurd ⟨_, _, rfl, no⟩ accepted
  | lostPatience => exact absurd rfl patient
  | passedOn link margin givenUp patience =>
    refine ⟨link, givenUp, ?_, rfl, ?_⟩
    · simp only [deliver, givenUp]
    · simp only [deliver, patience, Effect.answered]

/-- What an event brings: a refusal, the end of patience, or what the link does. -/
theorem step_cases (now : Instant) (event : Event) (s : Session) :
    (∃ id request reason, event = .ask id request ∧ s.call? request = none ∧
      s.step now event = (s, .reply id (.failed (.invalidArgument reason)))) ∨
    event = .losePatience ∨
    (¬s.Refuses event ∧ Passes now event s (s.step now event).1 (s.step now event).2) := by
  by_cases hrefuses : s.Refuses event
  · obtain ⟨id, request, rfl, hcall⟩ := hrefuses
    obtain ⟨reason, hask⟩ := ask_of_refused hcall now id
    exact .inl ⟨id, request, reason, rfl, hcall, hask⟩
  · by_cases hlose : event = .losePatience
    · exact .inr (.inl hlose)
    · exact .inr (.inr ⟨hrefuses, (step_step now event s).passes hrefuses hlose⟩)

/-- A call that is not refused is the one that reaches the link. -/
theorem requested_of_accepted (accepted : ¬s.Refuses event) :
    Link.requested ((s.passed now event).map (now, ·)) = event.asked := by
  have hsub := requested_passed now event s
  cases event with
  | ask id request =>
    cases hcall : s.call? request with
    | none => exact absurd ⟨id, request, rfl, hcall⟩ accepted
    | some call => simp [passed, hcall, Link.requested, Link.Event.issued, Event.asked]
  | _ => exact List.sublist_nil.mp hsub

/-- What a session writes is what its link writes. -/
theorem sent_step (now : Instant) (event : Event) (s : Session) :
    (s.step now event).2.sent = (s.passing now event).2.sent := by
  rcases step_cases now event s with ⟨id, request, reason, rfl, no, hstep⟩ | rfl | ⟨-, passes⟩
  · rw [hstep, passing_of_nothing (passed_of_refused no)]
    rfl
  · rw [passing_of_nothing rfl]
    rfl
  · exact passes.sent

theorem sent_run (events : List (Instant × Event)) (s : Session) :
    (run events s).2.sent = (Link.run (passedAll events s) s.link).2.sent := by
  induction events generalizing s with
  | nil => rfl
  | cons x events ih =>
    obtain ⟨now, event⟩ := x
    have hlink : (s.step now event).1.link = (s.passing now event).1 := (step_step now event s).link
    have hrest := ih (s.step now event).1
    have hrun : (run ((now, event) :: events) s).2.sent =
        (s.step now event).2.sent ++ (run events (s.step now event).1).2.sent := rfl
    rw [hrun, hrest, sent_step, hlink, passedAll, Link.run_append]
    rfl

/-- The calls that the link holds. -/
def held (s : Session) : List CallId := Link.queuedIn s.link.queue ++ s.link.engine.waiting

/-- Those whose callers wait. -/
def pending (s : Session) : List CallId := s.held.filter fun id => !s.givenUp.contains id

theorem mem_pending : id ∈ s.pending ↔ id ∈ s.held ∧ id ∉ s.givenUp := by
  simp [pending]

/-- Where the calls `past` are, when a session has done `effect`. -/
structure Served (past : List CallId) (s : Session) (effect : Effect) : Prop where
  settled : Perm past (effect.answered ++ s.pending)
  heldOnce : s.held.Nodup
  /-- Only callers that wait can lose their patience. -/
  patient : ∀ p ∈ s.patience, p.call ∈ s.pending
  patientOnce : (s.patience.map (·.call)).Nodup
  /-- Who has given up has got a timeout. -/
  gaveUp : ∀ id ∈ s.givenUp, id ∈ effect.answered

theorem Served.mem_past {past : List CallId} (h : Served past s effect)
    (hid : id ∈ s.held ∨ id ∈ s.givenUp) : id ∈ past := by
  refine h.settled.mem_iff.mpr (List.mem_append.mpr ?_)
  by_cases hgone : id ∈ s.givenUp
  · exact .inl (h.gaveUp id hgone)
  · exact .inr (mem_pending.mpr ⟨hid.resolve_right hgone, hgone⟩)

theorem passing_perm (now : Instant) (event : Event) (s : Session) :
    Perm (Link.requested ((s.passed now event).map (now, ·)) ++ s.held)
      ((s.passing now event).2.answered ++
        (Link.queuedIn (s.passing now event).1.queue ++
          (s.passing now event).1.engine.waiting)) := by
  have hperm := Link.issued_perm (Link.history ((s.passed now event).map (now, ·)) s.link) s.link
  rwa [Link.issued_history, ← Link.run_eq_actAll] at hperm

theorem answered_filter (givenUp : List CallId) (replies : List Reply) :
    (replies.filter fun r => !givenUp.contains r.call).map (·.call) =
      (replies.map (·.call)).filter fun id => !givenUp.contains id := by
  rw [List.filter_map]
  rfl

/-- At most the caller of this event starts to wait with patience. -/
theorem newPatience_cases (now : Instant) (event : Event) (s : Session) :
    s.newPatience now event = [] ∨
      ∃ p, s.newPatience now event = [p] ∧ event.asked = [p.call] := by
  unfold newPatience
  split
  · rename_i id window
    cases s.bound? window with
    | none => exact .inl rfl
    | some bound => exact .inr ⟨_, rfl, rfl⟩
  · exact .inl rfl

section
variable {past : List CallId} (h : Served past s effect)
include h

theorem Served.refused {reason : String} (id : CallId) :
    Served (past ++ [id]) s (effect ++ .reply id (.failed (.invalidArgument reason))) := by
  refine ⟨?_, h.heldOnce, h.patient, h.patientOnce, ?_⟩
  · rw [Effect.answered_append, Effect.answered_reply, List.append_assoc]
    refine (h.settled.append_right [id]).trans ?_
    rw [List.append_assoc]
    exact List.perm_append_comm.append_left _
  · intro gone hgone
    rw [Effect.answered_append]
    exact List.mem_append_left _ (h.gaveUp gone hgone)

/-- Callers that lose their patience get a timeout and wait no more. -/
theorem Served.lost (now : Instant) :
    Served past (s.losePatience now).1 (effect ++ (s.losePatience now).2) := by
  have hgone : ∀ id, id ∈ (s.patience.filter (·.deadline ≤ now)).map (·.call) → id ∈ s.pending := by
    intro id hid
    obtain ⟨p, hp, rfl⟩ := List.mem_map.mp hid
    exact h.patient p (List.mem_filter.mp hp).1
  have hnodup : ((s.patience.filter (·.deadline ≤ now)).map (·.call)).Nodup :=
    (List.filter_sublist.map _).nodup h.patientOnce
  have hanswered : (s.losePatience now).2.answered =
      (s.patience.filter (·.deadline ≤ now)).map (·.call) := by
    simp [losePatience, Effect.answered, Engine.timedOut, Function.comp_def]
  have hmem : ∀ id, id ∈ (s.losePatience now).1.pending ↔
      id ∈ s.pending ∧ id ∉ (s.patience.filter (·.deadline ≤ now)).map (·.call) := by
    intro id
    rw [mem_pending, mem_pending, and_assoc]
    refine and_congr_right fun _ => ?_
    change id ∉ s.givenUp ++ _ ↔ _
    rw [List.mem_append, not_or]
  generalize hcalls : (s.patience.filter (·.deadline ≤ now)).map (·.call) = gone at *
  refine ⟨?_, h.heldOnce, ?_, ?_, ?_⟩
  · rw [Effect.answered_append, hanswered, List.append_assoc]
    refine h.settled.trans (List.Perm.append_left _ ?_)
    -- those who give up waited, and nobody gives up twice
    refine (List.perm_ext_iff_of_nodup (h.heldOnce.filter _) ?_).mpr fun id => ?_
    · exact hnodup.append (h.heldOnce.filter _) fun id hid hwaits => ((hmem id).mp hwaits).2 hid
    · change id ∈ s.pending ↔ _
      rw [List.mem_append, hmem]
      by_cases hid : id ∈ gone
      · simp [hid, hgone id hid]
      · simp [hid]
  · intro p hp
    obtain ⟨hp, hlater⟩ := List.mem_filter.mp hp
    refine (hmem p.call).mpr ⟨h.patient p hp, fun hid => ?_⟩
    rw [← hcalls] at hid
    obtain ⟨q, hq, hcall⟩ := List.mem_map.mp hid
    obtain ⟨hq, hdue⟩ := List.mem_filter.mp hq
    cases List.inj_on_of_nodup_map h.patientOnce hq hp hcall
    simp only [decide_eq_true_eq] at hdue hlater
    exact hlater hdue
  · exact (List.filter_sublist.map _).nodup h.patientOnce
  · intro id hid
    rw [Effect.answered_append, hanswered]
    rcases List.mem_append.mp hid with hold | hnew
    · exact List.mem_append_left _ (h.gaveUp id hold)
    · exact List.mem_append_right _ (hcalls ▸ hnew)

theorem Served.passed {new : Effect} (passes : Passes now event s s' new)
    (accepted : ¬s.Refuses event) (fresh : (past ++ event.asked).Nodup) :
    Served (past ++ event.asked) s' (effect ++ new) := by
  have hperm := passing_perm now event s
  rw [requested_of_accepted accepted, ← passes.link] at hperm
  change Perm _ (_ ++ s'.held) at hperm
  have hnew : ∀ id ∈ event.asked, id ∉ past := fun id hid hmem =>
    (List.nodup_append.mp fresh).2.2 id hmem id hid rfl
  have hheld : ((s.passing now event).2.answered ++ s'.held).Nodup := by
    refine hperm.nodup_iff.mp ((List.nodup_append.mp fresh).2.1.append h.heldOnce ?_)
    intro id hid hmem
    exact hnew id hid (h.mem_past (.inl hmem))
  have hanswered : new.answered =
      (s.passing now event).2.answered.filter fun id => !s.givenUp.contains id := by
    rw [Effect.answered, passes.replies, answered_filter]
    rfl
  -- nobody has given up on a call that is new
  have hfilter : Perm (event.asked ++ s.pending) (new.answered ++ s'.pending) := by
    have hall := hperm.filter fun id => !s.givenUp.contains id
    rw [List.filter_append, List.filter_append, ← hanswered] at hall
    rw [List.filter_eq_self.mpr fun id hid => ?_] at hall
    · rw [pending, pending, passes.givenUp]
      exact hall
    · simpa using fun hgone => hnew id hid (h.mem_past (.inr hgone))
  refine ⟨?_, (List.nodup_append.mp hheld).2.1, ?_, ?_, ?_⟩
  · rw [Effect.answered_append]
    calc Perm _ ((effect.answered ++ s.pending) ++ event.asked) := h.settled.append_right _
      Perm _ (effect.answered ++ (event.asked ++ s.pending)) := by
        rw [List.append_assoc]
        exact List.perm_append_comm.append_left _
      Perm _ (effect.answered ++ (new.answered ++ s'.pending)) := hfilter.append_left _
      Perm _ _ := by rw [List.append_assoc]
  · intro p hp
    rw [passes.patience] at hp
    obtain ⟨hp, hwaits⟩ := List.mem_filter.mp hp
    have hwaiting : p.call ∈ event.asked ++ s.pending := by
      rcases List.mem_append.mp hp with hold | hnew
      · exact List.mem_append_right _ (h.patient p hold)
      · exact List.mem_append_left _ (call_of_newPatience hnew)
    rcases List.mem_append.mp (hfilter.mem_iff.mp hwaiting) with hdone | hlater
    · simp [hdone] at hwaits
    · exact hlater
  · rw [passes.patience]
    refine (List.filter_sublist.map _).nodup ?_
    rcases newPatience_cases now event s with hnone | ⟨p, hone, hasked⟩
    · rw [hnone, List.append_nil]
      exact h.patientOnce
    · rw [hone, List.map_append]
      refine h.patientOnce.append (List.nodup_singleton _) ?_
      intro id hid hp
      obtain ⟨q, hq, rfl⟩ := List.mem_map.mp hid
      rw [List.map_singleton, List.mem_singleton] at hp
      have hmem := h.mem_past (.inl (mem_pending.mp (h.patient q hq)).1)
      exact hnew q.call (by rw [hasked, hp]; exact List.mem_singleton_self _) hmem
  · intro id hid
    rw [passes.givenUp] at hid
    rw [Effect.answered_append]
    exact List.mem_append_left _ (h.gaveUp id hid)

theorem Served.step (now : Instant) (event : Event) (fresh : (past ++ event.asked).Nodup) :
    Served (past ++ event.asked) (s.step now event).1 (effect ++ (s.step now event).2) := by
  rcases step_cases now event s with ⟨id, request, reason, rfl, -, hstep⟩ | rfl | ⟨accepted, passes⟩
  · rw [hstep]
    exact h.refused id
  · change Served (past ++ []) _ _
    rw [List.append_nil]
    exact h.lost now
  · exact h.passed passes accepted fresh

end

theorem Served.run {past : List CallId} (h : Served past s effect)
    (events : List (Instant × Event)) (distinct : (past ++ asked events).Nodup) :
    Served (past ++ asked events) (run events s).1 (effect ++ (run events s).2) := by
  induction events generalizing past s effect with
  | nil =>
    change Served (past ++ []) s (effect ++ .none)
    rwa [List.append_nil, Effect.append_none]
  | cons x events ih =>
    obtain ⟨now, event⟩ := x
    have hasked : past ++ asked ((now, event) :: events) = past ++ event.asked ++ asked events := by
      simp [asked]
    rw [hasked] at distinct ⊢
    have hnext := ih (h.step now event (List.nodup_append.mp distinct).1) distinct
    rwa [Effect.append_assoc] at hnext

/-- In a run whose calls have different names each of them has been answered once, or its caller
waits. -/
theorem served_run (source target : Address) (settings : Settings)
    (events : List (Instant × Event)) (distinct : (asked events).Nodup) :
    Served (asked events) (run events (opened source target settings)).1
      (run events (opened source target settings)).2 := by
  have hstart : Served [] (opened source target settings) .none :=
    ⟨Perm.nil, List.nodup_nil, by simp [opened], List.nodup_nil, by simp [opened]⟩
  exact hstart.run events distinct

end Session
end Doip
