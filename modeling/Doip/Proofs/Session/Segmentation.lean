import Doip.Proofs.Frame.Reassembly
import Doip.Proofs.Link.Act
import Doip.Session

/-! # How the stream is cut does not matter

The gateway's octets reach the engine in reads of any size. Two reads at one time do what
one read of both does (`run_two_reads`): the frames that the first completes are dispatched in
either case before those of the second, the buffer carries what is left between them, and a
header error stops the engine at the same frame. So all ways to cut the same octets into
reads look alike to callers and gateway (`segmentation_immaterial`). -/
namespace Doip
namespace Engine

variable {t : Tuning} {target : Address} {now : Instant}

/-- No frame looks at the octets that wait for the next read. -/
theorem dispatch_buffer (f : Frame) (rest : Octets) (e : Engine) :
    dispatch t target now f { e with buffer := rest } =
      ({ (e.dispatch t target now f).1 with buffer := rest }, (e.dispatch t target now f).2) := by
  obtain ⟨buffer, activation, acks, receives, collections, inbox, pendingAt⟩ := e
  unfold dispatch
  cases f.message with
  | error fault =>
    simp only
    split
    · cases receives <;> rfl
    · rfl
  | ok m =>
    cases m with
    | activationResponse r => cases activation <;> rfl
    | genericNack code => cases activation <;> cases acks <;> rfl
    | positiveAck a | negativeAck a =>
      simp only [onAck]
      split
      · rfl
      · cases acks <;> rfl
    | diagnostic m =>
      simp only [onDiagnostic]
      split
      · rfl
      · split
        · split
          · cases receives <;> rfl
          · rfl
        · cases hs : decide (m.source = target) <;> cases collections <;> cases receives <;>
            simp [onResponse, settleReceive, buffered]
    | _ => rfl

theorem dispatchAll_buffer (frames : List Frame) (rest : Octets) (e : Engine) :
    dispatchAll t target now frames { e with buffer := rest } =
      ({ (dispatchAll t target now frames e).1 with buffer := rest },
        (dispatchAll t target now frames e).2) := by
  induction frames generalizing e with
  | nil => rfl
  | cons f frames ih => simp only [dispatchAll, dispatch_buffer, ih]

theorem dispatchAll_append (first others : List Frame) (e : Engine) :
    dispatchAll t target now (first ++ others) e =
      ((dispatchAll t target now others (dispatchAll t target now first e).1).1,
        (dispatchAll t target now first e).2 ++
          (dispatchAll t target now others (dispatchAll t target now first e).1).2) := by
  induction first generalizing e with
  | nil => rfl
  | cons f first ih => simp only [List.cons_append, dispatchAll, ih, Effect.append_assoc]

/-- After a header error the octets that follow only lengthen the buffer. -/
theorem absorb_append_of_error {e e' : Engine} {effect : Effect} {fault : WireError} {a : Octets}
    (h : e.absorb t target now a = ((e', effect), some fault)) (b : Octets) :
    e.absorb t target now (a ++ b) =
      (({ e' with buffer := e'.buffer ++ b }, effect), some fault) := by
  simp only [absorb, Prod.mk.injEq] at h
  obtain ⟨⟨rfl, rfl⟩, herror⟩ := h
  have hboth := reassemble_append t.maxPayload (e.buffer ++ a) b
  rw [Reassembly.resume_of_error herror] at hboth
  simp only [absorb, ← List.append_assoc, hboth]

/-- Otherwise they are absorbed in the state that the first ones have left. -/
theorem absorb_append {e e' : Engine} {effect : Effect} {a : Octets}
    (h : e.absorb t target now a = ((e', effect), none)) (b : Octets) :
    e.absorb t target now (a ++ b) =
      (((e'.absorb t target now b).1.1, effect ++ (e'.absorb t target now b).1.2),
        (e'.absorb t target now b).2) := by
  simp only [absorb, Prod.mk.injEq] at h
  obtain ⟨⟨rfl, rfl⟩, herror⟩ := h
  have hboth := reassemble_append t.maxPayload (e.buffer ++ a) b
  rw [Reassembly.resume_of_none herror] at hboth
  simp only [absorb, ← List.append_assoc, hboth, dispatchAll_append, dispatchAll_buffer]

end Engine

namespace Link

theorem run_of_stopped {now : Instant} {l : Link} {cause : Stop} (h : l.phase = .stopped cause)
    (octets : Octets) : l.step now (.read octets) = (l, .none) := by
  simp only [step, h]

/-- Two reads at one time are one read of both. -/
theorem run_two_reads (now : Instant) (l : Link) {a b : Octets} (ha : a ≠ []) (hb : b ≠ []) :
    run [(now, .read a), (now, .read b)] l = l.step now (.read (a ++ b)) := by
  have hab : a ++ b ≠ [] := by simp [ha]
  cases hp : l.phase with
  | stopped cause => simp [run, run_of_stopped hp]
  | running e =>
    have hfirst : l.step now (.read a) = l.readOctets now a e := by
      simp only [step, hp, stepRunning]
    have hboth : l.step now (.read (a ++ b)) = l.readOctets now (a ++ b) e := by
      simp only [step, hp, stepRunning]
    simp only [run, Effect.append_none, hfirst, hboth]
    simp only [readOctets, if_neg ha, if_neg hab]
    rcases habsorb : e.absorb l.tuning l.target now a with ⟨⟨e', effect⟩, error⟩
    cases error with
    | some fault =>
      -- the engine has stopped before the second read
      rw [Engine.absorb_append_of_error habsorb b]
      simp only [stop, step, Engine.failAll, Engine.waiting]
      exact Prod.ext rfl (Effect.append_none _)
    | none =>
      rw [Engine.absorb_append habsorb b]
      rcases hlater : e'.absorb l.tuning l.target now b with ⟨⟨e'', effect'⟩, error⟩
      cases error with
      | some fault => simp [step, stepRunning, readOctets, hb, hlater, stop, Effect.append_assoc]
      | none => simp [step, stepRunning, readOctets, hb, hlater]

end Link

namespace Session

theorem run_append (first others : List (Instant × Event)) (s : Session) :
    run (first ++ others) s =
      ((run others (run first s).1).1, (run first s).2 ++ (run others (run first s).1).2) := by
  induction first generalizing s with
  | nil => rfl
  | cons event first ih => simp only [List.cons_append, run, ih, Effect.append_assoc]

/-- Answers may be handed over in two parts. -/
theorem deliver_append (s : Session) (a b : Effect) :
    s.deliver (a ++ b) =
      (((s.deliver a).1.deliver b).1, (s.deliver a).2 ++ ((s.deliver a).1.deliver b).2) := by
  refine Prod.ext ?_ ?_
  · simp only [deliver, Effect.replies_append, List.filter_append, List.any_append,
      Bool.or_assoc, List.map_append, List.filter_filter]
    congr 1
    refine List.filter_congr fun p _ => ?_
    simp only [List.contains_eq_mem, List.mem_append, Bool.decide_or, Bool.not_or, Bool.and_comm]
  · simp only [deliver, Effect.replies_append, List.filter_append]
    rfl

/-- Two reads at one time are one read of both, for callers too. -/
theorem run_two_reads (now : Instant) (s : Session) {a b : Octets} (ha : a ≠ []) (hb : b ≠ []) :
    run [(now, .read a), (now, .read b)] s = s.step now (.read (a ++ b)) := by
  have hlink := Link.run_two_reads now s.link ha hb
  simp only [Link.run, Effect.append_none] at hlink
  simp only [run, Effect.append_none, step, passOn, ← hlink]
  exact (deliver_append { s with link := _ } _ _).symm

/-- Reads of these parts, one after the other at one time. -/
def reads (now : Instant) (parts : List Octets) : List (Instant × Event) :=
  parts.map fun part => (now, .read part)

theorem run_reads (now : Instant) (s : Session) {first : Octets} {others : List Octets}
    (hfirst : first ≠ []) (hothers : ∀ part ∈ others, part ≠ []) :
    run (reads now (first :: others)) s = s.step now (.read (first ++ others.flatten)) := by
  induction others generalizing first with
  | nil => simp [reads, run]
  | cons second others ih =>
    have hsecond : second ≠ [] := hothers second List.mem_cons_self
    have hrest : ∀ part ∈ others, part ≠ [] := fun part hp => hothers part (List.mem_cons_of_mem _ hp)
    have hmerge : run (reads now (first :: second :: others)) s =
        run (reads now ((first ++ second) :: others)) s := by
      change run ([(now, .read first), (now, .read second)] ++ reads now others) s =
        run ([(now, .read (first ++ second))] ++ reads now others) s
      rw [run_append, run_append, run_two_reads now s hfirst hsecond]
      simp only [run, Effect.append_none]
    rw [hmerge, ih (by simp [hfirst]) hrest, List.flatten_cons, List.append_assoc]

/-- The reads of the same octets do the same, however they are cut. -/
theorem run_reads_congr (now : Instant) (s : Session) {parts parts' : List Octets}
    (hparts : ∀ part ∈ parts, part ≠ []) (hparts' : ∀ part ∈ parts', part ≠ [])
    (same : parts.flatten = parts'.flatten) :
    run (reads now parts) s = run (reads now parts') s := by
  cases parts with
  | nil =>
    have hnone : parts' = [] := by
      refine List.eq_nil_iff_forall_not_mem.mpr fun part hp => hparts' part hp ?_
      exact List.flatten_eq_nil_iff.mp same.symm part hp
    rw [hnone]
  | cons first others =>
    cases parts' with
    | nil =>
      have hfirst := List.flatten_eq_nil_iff.mp same first List.mem_cons_self
      exact absurd hfirst (hparts first List.mem_cons_self)
    | cons first' others' =>
      rw [run_reads now s (hparts _ List.mem_cons_self) fun p hp => hparts p (.tail _ hp),
        run_reads now s (hparts' _ List.mem_cons_self) fun p hp => hparts' p (.tail _ hp)]
      rw [List.flatten_cons, List.flatten_cons] at same
      rw [same]

/-- Two reads at one time leave a link as one read of both leaves it, with the same answers and
the same octets written; and no session can tell how octets are cut into reads between two
other events. -/
theorem segmentation_immaterial (now : Instant) (l : Link) (a b : Octets) (ha : a ≠ [])
    (hb : b ≠ []) (s : Session) (before after : List (Instant × Event))
    (parts parts' : List Octets) (hparts : ∀ part ∈ parts, part ≠ [])
    (hparts' : ∀ part ∈ parts', part ≠ []) (same : parts.flatten = parts'.flatten) :
    Link.run [(now, .read a), (now, .read b)] l = l.step now (.read (a ++ b)) ∧
      run (before ++ reads now parts ++ after) s = run (before ++ reads now parts' ++ after) s := by
  refine ⟨Link.run_two_reads now l ha hb, ?_⟩
  have hsame := run_reads_congr now (run before s).1 hparts hparts' same
  simp only [run_append, hsame]

/-- A response whose header is cut, and a header that is at fault, cut before it is complete. -/
def cutParts : List Octets :=
  [[0x02, 0xFD, 0x80], [0x01, 0, 0, 0, 5, 0x06, 0x80, 0x0E, 0x00, 0x50, 0x02],
    [0x02, 0x80, 0x01, 0, 0, 0], [0, 0x3E]]

theorem cutParts_immaterial :
    Link.run [(1, .read [0x02, 0xFD, 0x80]), (1, .read [0x01, 0, 0, 0, 5, 0x06, 0x80, 0x0E, 0x00])]
        (.opened (.ofSettings 0x0E00 {}) 0x0680) =
      Link.step 1 (.read ([0x02, 0xFD, 0x80] ++ [0x01, 0, 0, 0, 5, 0x06, 0x80, 0x0E, 0x00]))
        (.opened (.ofSettings 0x0E00 {}) 0x0680) ∧
    run ([(0, .ask 1 (.receive none)), (0, .ask 2 (.receive none)), (0, .take), (0, .take)] ++
        reads 1 cutParts ++ [(2, .ask 3 (.receive none))]) (opened 0x0E00 0x0680 {}) =
      run ([(0, .ask 1 (.receive none)), (0, .ask 2 (.receive none)), (0, .take), (0, .take)] ++
        reads 1 [cutParts.flatten] ++ [(2, .ask 3 (.receive none))]) (opened 0x0E00 0x0680 {}) :=
  segmentation_immaterial 1 (.opened (.ofSettings 0x0E00 {}) 0x0680) _ _ (by decide) (by decide)
    (opened 0x0E00 0x0680 {}) _ _ cutParts [cutParts.flatten] (by decide) (by decide) rfl

example :
    (run ([(0, .ask 1 (.receive none)), (0, .ask 2 (.receive none)), (0, .take), (0, .take)] ++
      reads 1 cutParts ++ [(2, .ask 3 (.receive none))]) (opened 0x0E00 0x0680 {})).2.replies =
      [⟨1, .frame [0x02, 0xFD, 0x80, 0x01, 0, 0, 0, 5, 0x06, 0x80, 0x0E, 0x00, 0x50]⟩,
        ⟨2, .failed (.parse "Invalid protocol version pattern: 0x02/0x02")⟩,
        ⟨3, .failed .engineStopped⟩] := by
  decide +kernel

end Session
end Doip
