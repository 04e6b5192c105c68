import Doip.Proofs.Link.Accounts

/-! # Which response pending the engine remembers

A response pending that comes while no receive waits counts for the next receive, unless
something happens in between that settles it. `Remembered` says this of a run, and
`pendingAt_iff_remembered` that the engine keeps exactly that instant. -/
namespace Doip

/-- The frame is a final response of this sender to this tester. -/
def Frame.isFinalOf (t : Tuning) (sender : Address) (f : Frame) : Bool :=
  (f.response? t).any (·.source = sender)

/-- The frame is a response pending of this sender to this tester. -/
def Frame.isPendingOf (t : Tuning) (sender : Address) (f : Frame) : Bool :=
  (f.pending? t).any (·.source = sender)

theorem Frame.isFinalOf_of_pending? {t : Tuning} {sender : Address} {f : Frame} {m : Diagnostic}
    (h : f.pending? t = some m) : f.isFinalOf t sender = false := by
  simp [isFinalOf, Frame.response?_of_pending? h]

theorem Frame.pending?_of_response? {t : Tuning} {f : Frame} {m : Diagnostic}
    (h : f.response? t = some m) : f.pending? t = none := by
  cases hp : f.pending? t with
  | none => rfl
  | some m' =>
    rw [Frame.response?_of_pending? hp] at h
    cases h

theorem Frame.isPendingOf_of_response? {t : Tuning} {sender : Address} {f : Frame} {m : Diagnostic}
    (h : f.response? t = some m) : f.isPendingOf t sender = false := by
  simp [isPendingOf, Frame.pending?_of_response? h]

namespace Engine

/-- A response pending comes while no receive waits. -/
def reminds (t : Tuning) (target : Address) (e : Engine) : Input → Bool
  | .dispatch f => f.isPendingOf t target && e.receives.isEmpty
  | _ => false

/-- A request makes the response pending stale, the response comes, or a receive takes account
of it. A receive that the inbox serves at once does not. -/
def forgets (t : Tuning) (target : Address) (e : Engine) : Input → Bool
  | .start _ (.send _ _ _) => true
  | .start _ (.receive _) => !e.inbox.any (isFrom target)
  | .dispatch f => f.isFinalOf t target
  | _ => false

variable {t : Tuning} {target : Address} {now : Instant} {e e' : Engine} {input : Input}
  {effect : Effect}

theorem dispatch_unrelated {f : Frame} (h : ∀ m, f.message ≠ .ok (.diagnostic m)) :
    e.reminds t target (.dispatch f) = false ∧ e.forgets t target (.dispatch f) = false := by
  simp [reminds, forgets, Frame.isFinalOf, Frame.isPendingOf, Frame.response?_of_unrelated h,
    Frame.pending?_of_unrelated h]

theorem isFinalOf_of_response? {f : Frame} {m : Diagnostic} (h : f.response? t = some m) :
    f.isFinalOf t target = decide (m.source = target) := by
  simp [Frame.isFinalOf, h]

/-- The memory of the engine after a turn. -/
theorem Turn.pendingAt_eq (h : Turn t target now e input e' effect) :
    e'.pendingAt = if e.reminds t target input then some now
      else if e.forgets t target input then none else e.pendingAt := by
  have hkeep : e.reminds t target input = false ∧ e.forgets t target input = false →
      e.pendingAt = if e.reminds t target input then some now
        else if e.forgets t target input then none else e.pendingAt := by
    rintro ⟨hr, hf⟩
    simp [hr, hf]
  cases h with
  | sent => rfl
  | @claimed id timeout before after frame split others source =>
    have hany : e.inbox.any (isFrom target) = true := by
      rw [List.any_eq_true]
      exact ⟨frame, by simp [split], isFrom_eq_true.mpr source⟩
    exact hkeep ⟨rfl, by simp [forgets, hany]⟩
  | waited absent =>
    have hany : e.inbox.any (isFrom target) = false := by
      rw [List.any_eq_false]
      intro f hf
      simpa [isFrom] using absent f hf
    simp [reminds, forgets, hany]
  | skipped other silent =>
    refine hkeep ⟨?_, by simp [forgets, Frame.isFinalOf, other]⟩
    simp only [reminds, Frame.isPendingOf, Bool.and_eq_false_iff]
    refine .inl ?_
    rw [Option.any_eq_false]
    intro m hm
    simpa using silent m hm
  | aliveAnswered message | activationAnswered message | activationNacked message
  | sendNacked message | receiveFailed message =>
    exact hkeep (dispatch_unrelated (by simp [message]))
  | sendSettled message settles =>
    refine hkeep (dispatch_unrelated fun m hm => ?_)
    rw [message] at hm
    cases settles <;> cases hm
  | extended pending source waits =>
    exact hkeep ⟨by simp [reminds, waits], by simp [forgets, Frame.isFinalOf_of_pending? pending]⟩
  | remembered pending source idle =>
    simp [reminds, Frame.isPendingOf, pending, source, idle]
  | gathered response isOpen =>
    simp [reminds, forgets, Frame.isPendingOf_of_response? response,
      isFinalOf_of_response? response]
  | handed response source closed waits =>
    simp [reminds, forgets, Frame.isPendingOf_of_response? response,
      isFinalOf_of_response? response, source]
  | kept response closed idle =>
    simp [reminds, forgets, Frame.isPendingOf_of_response? response,
      isFinalOf_of_response? response, buffered]
  | _ => exact hkeep ⟨rfl, rfl⟩

end Engine

namespace Link

/-- At this act a response pending of the target comes while no receive waits. -/
def reminds (l : Link) (a : Act) : Bool := (l.input? a).any (l.engine.reminds l.tuning l.target)

def forgets (l : Link) (a : Act) : Bool := (l.input? a).any (l.engine.forgets l.tuning l.target)

/-- The act leaves what is remembered as it is. -/
def Mindful (l : Link) (_ : Instant) (a : Act) : Prop := l.reminds a = false ∧ l.forgets a = false

instance (l : Link) (now : Instant) (a : Act) : Decidable (Mindful l now a) :=
  inferInstanceAs (Decidable (l.reminds a = false ∧ l.forgets a = false))

/-- A response pending of the target came at `seen` while no receive waited, and since then no
other one has, no send has been taken, no final response of the target has come and no
receive has been taken that had to wait. -/
def Remembered (past : List (Instant × Act)) (start : Link) (seen : Instant) : Prop :=
  ∃ before a since, past = before ++ (seen, a) :: since ∧
    (actAll before start).1.reminds a = true ∧
    Throughout Mindful since (actAll (before ++ [(seen, a)]) start).1

theorem actAll_split (before since : List (Instant × Act)) (x : Instant × Act) (start : Link) :
    (actAll (before ++ x :: since) start).1 =
      (actAll since (actAll (before ++ [x]) start).1).1 := by
  rw [List.append_cons, actAll_append]

theorem remembered_concat {past : List (Instant × Act)} {now : Instant} {a : Act} {start : Link}
    {seen : Instant} :
    Remembered (past ++ [(now, a)]) start seen ↔
      ((actAll past start).1.reminds a = true ∧ now = seen) ∨
        (Remembered past start seen ∧ Mindful (actAll past start).1 now a) := by
  constructor
  · rintro ⟨before, b, since, heq, hreminds, hsince⟩
    rcases List.eq_nil_or_concat' since with rfl | ⟨since, y, rfl⟩
    · obtain ⟨rfl, hlast⟩ := List.append_inj' heq rfl
      cases hlast
      exact .inl ⟨hreminds, rfl⟩
    · have hsplit : past ++ [(now, a)] = (before ++ (seen, b) :: since) ++ [y] := by
        rw [heq, List.append_assoc]
        rfl
      obtain ⟨rfl, hlast⟩ := List.append_inj' hsplit rfl
      cases hlast
      obtain ⟨hsince, hmindful, -⟩ := throughout_append.mp hsince
      rw [actAll_split]
      exact .inr ⟨⟨before, b, since, rfl, hreminds, hsince⟩, hmindful⟩
  · rintro (⟨hreminds, rfl⟩ | ⟨⟨before, b, since, rfl, hreminds, hsince⟩, hmindful⟩)
    · exact ⟨past, a, [], rfl, hreminds, trivial⟩
    · refine ⟨before, b, since ++ [(now, a)], by rw [List.append_assoc]; rfl, hreminds, ?_⟩
      rw [actAll_split] at hmindful
      exact throughout_append.mpr ⟨hsince, hmindful, trivial⟩

/-- From a link that remembers no response pending on, the engine keeps the instant of the one
that is remembered. -/
theorem pendingAt_iff_remembered_since (past : List (Instant × Act)) {start : Link} {e : Engine}
    (unset : ∀ d, start.phase = .running d → d.pendingAt = none)
    (h : (actAll past start).1.phase = .running e) (seen : Instant) :
    e.pendingAt = some seen ↔ Remembered past start seen := by
  induction past using List.reverseRecOn generalizing e with
  | nil =>
    rw [unset e h]
    constructor
    · intro hnone
      cases hnone
    · rintro ⟨before, a, since, heq, -⟩
      cases before <;> cases heq
  | append_singleton past x ih =>
    obtain ⟨now, a⟩ := x
    rw [actAll_concat] at h
    rw [remembered_concat]
    rcases (step_act now a (actAll past start).1).turn_or_quiet with
      ⟨d, d', input, alive, alive', hinput, turn⟩ | ⟨hnone, -, hphase⟩
    · rw [alive'] at h
      cases h
      rw [turn.pendingAt_eq]
      simp only [Mindful, reminds, forgets, hinput, Option.any_some, engine_of_running alive,
        ← ih alive]
      split
      · rename_i hr
        simp [hr]
      · rename_i hr
        split
        · rename_i hf
          simp [hr, hf]
        · rename_i hf
          simp [hr, hf]
    · rcases hphase with hsame | ⟨cause, hstop⟩
      · rw [hsame] at h
        simp [Mindful, reminds, forgets, hnone, ih h]
      · rw [hstop] at h
        cases h

/-- The engine keeps the instant of the response pending that is remembered. -/
theorem pendingAt_iff_remembered {t : Tuning} {target : Address} (past : List (Instant × Act))
    {e : Engine} (h : (actAll past (opened t target)).1.phase = .running e) (seen : Instant) :
    e.pendingAt = some seen ↔ Remembered past (opened t target) seen := by
  refine pendingAt_iff_remembered_since past (fun d hd => ?_) h seen
  cases hd
  rfl

end Link
end Doip
