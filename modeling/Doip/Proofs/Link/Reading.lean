import Doip.Proofs.Link.Collecting
import Doip.Proofs.Link.Stopping
import Doip.Proofs.Frame.Decoding

/-! # What the reads of a run come to

Whatever happens between them, the reads of a run take the octets that the gateway has sent apart
like one stream. While the engine runs, it has dispatched the frames of this stream and its buffer
holds the rest (`reassemble_of_running`). It stops at a header that is at fault, after the frames
in front of it (`reassemble_of_parse`), and at no other octets: the payloads of frames never stop
it (`parse_iff_header_fault`). -/
namespace Doip
namespace Link

variable {now : Instant} {l : Link} {e e' : Engine} {event : Event}
  {events : List (Instant × Event)} {text : String}

/-! ## One event -/

theorem received_cons (now : Instant) (event : Event) (events : List (Instant × Event)) :
    received ((now, event) :: events) = event.octets ++ received events := rfl

theorem buffer_readOctets (now : Instant) {octets : Octets} (hne : octets ≠ [])
    (h : (reassemble l.tuning.maxPayload (e.buffer ++ octets)).error = none) :
    (l.readOctets now octets e).1.engine.buffer =
      (reassemble l.tuning.maxPayload (e.buffer ++ octets)).rest := by
  simp only [readOctets, if_neg hne, Engine.absorb, h]
  rfl

theorem reassemble_of_single {a : Act} (alive : l.phase = .running e)
    (started : Remainder l.tuning.maxPayload e.buffer none)
    (h : (l.step now event).1.phase = .running e') (hacts : l.acts event = [a])
    (hframe : a.frame? = none) (hkeep : ∀ rest, a ≠ .keep rest) (hoctets : event.octets = []) :
    reassemble l.tuning.maxPayload (e.buffer ++ event.octets) =
      ⟨(l.acts event).filterMap Act.frame?, e'.buffer, none⟩ := by
  have habsorbs : Absorbs now event l l.engine.buffer :=
    absorbs_of_single hacts hframe hkeep hoctets
  have hbuffer := habsorbs.kept
  rw [h, engine_of_running h, engine_of_running alive] at hbuffer
  rw [hoctets, List.append_nil, reassemble_of_remainder started, hacts,
    hbuffer.resolve_right (by simp)]
  simp [hframe]

/-- An engine that runs on has dispatched what an event has completed, and holds the rest. -/
theorem reassemble_of_step_running (alive : l.phase = .running e)
    (started : Remainder l.tuning.maxPayload e.buffer none)
    (h : (l.step now event).1.phase = .running e') :
    reassemble l.tuning.maxPayload (e.buffer ++ event.octets) =
      ⟨(l.acts event).filterMap Act.frame?, e'.buffer, none⟩ := by
  cases event with
  | read octets =>
    by_cases hne : octets = []
    · simp [step, alive, stepRunning, readOctets, hne, stop] at h
    · have hnone : (reassemble l.tuning.maxPayload (e.buffer ++ octets)).error = none := by
        refine Option.eq_none_iff_forall_ne_some.mpr fun fault hfault => ?_
        have hcause : l.cause? (.read octets) = some (.parse fault.message) := by
          simp only [cause?, if_neg hne, engine_of_running alive, hfault, Option.map_some]
        rw [(stops_iff_cause? (isAlive_of_running alive) now _ _).mpr hcause] at h
        cases h
      have hstep : l.step now (.read octets) = l.readOctets now octets e := by
        simp only [step, alive, stepRunning]
      have hbuffer := buffer_readOctets now hne hnone
      rw [← hstep, engine_of_running h] at hbuffer
      change reassemble _ (e.buffer ++ octets) = ⟨(l.readActs octets).filterMap _, _, _⟩
      rw [frames_readActs alive hne, hbuffer, ← hnone]
  | _ => exact reassemble_of_single alive started h rfl rfl (by simp) rfl

/-- A header that is at fault is found in a read, behind the frames that the read completes. -/
theorem reassemble_of_step_parse (alive : l.phase = .running e)
    (h : (l.step now event).1.phase = .stopped (.parse text)) :
    ∃ fault, fault.message = text ∧
      (reassemble l.tuning.maxPayload (e.buffer ++ event.octets)).error = some fault ∧
      l.acts event =
        (reassemble l.tuning.maxPayload (e.buffer ++ event.octets)).frames.map Act.dispatch ++
          [.stop (.parse text)] := by
  have hcause := (stops_iff_cause? (isAlive_of_running alive) now event _).mp h
  cases event with
  | read octets =>
    simp only [cause?, engine_of_running alive] at hcause
    split at hcause
    · cases hcause
    · rename_i hne
      obtain ⟨fault, hfault, htext⟩ := Option.map_eq_some_iff.mp hcause
      cases htext
      refine ⟨fault, rfl, hfault, ?_⟩
      simp only [acts, readActs, alive, if_neg hne, Event.octets, hfault]
  | take =>
    simp only [cause?] at hcause
    split at hcause <;> cases hcause
  | _ => cases hcause

/-! ## A run -/

theorem remainder_of_reassemble {limit : UInt32} {stream rest : Octets} {frames : List Frame}
    {error : Option WireError} (h : reassemble limit stream = ⟨frames, rest, error⟩) :
    Remainder limit rest error := by
  have hmaximal := (decodes_reassemble limit stream).maximal
  rwa [h] at hmaximal

/-- An engine that runs on has dispatched what has arrived, and holds the rest. -/
theorem reassemble_of_running (alive : l.phase = .running e)
    (started : Remainder l.tuning.maxPayload e.buffer none)
    (h : (run events l).1.phase = .running e') :
    reassemble l.tuning.maxPayload (e.buffer ++ received events) =
      ⟨dispatched (history events l), e'.buffer, none⟩ := by
  induction events generalizing l e with
  | nil =>
    rw [run, alive] at h
    cases h
    rw [received, List.flatMap_nil, List.append_nil, reassemble_of_remainder started]
    rfl
  | cons x events ih =>
    obtain ⟨now, event⟩ := x
    simp only [run] at h
    cases hfirst : (l.step now event).1.phase with
    | stopped cause =>
      rw [run_of_ended hfirst, hfirst] at h
      cases h
    | running e₁ =>
      have hstep := reassemble_of_step_running alive started hfirst
      have htuning := tuning_step now event l
      have hlater := ih hfirst (htuning ▸ remainder_of_reassemble hstep) h
      rw [htuning] at hlater
      rw [received_cons, ← List.append_assoc, reassemble_append, hstep,
        Reassembly.resume_of_none rfl, hlater, history, dispatched_append, dispatched_map]

/-- The engine dispatches `frames` and then stops at a header that is at fault. -/
structure HaltsAfter (frames : List Frame) (fault : WireError) (events : List (Instant × Event))
    (start : Link) (before : List (Instant × Act)) (now : Instant)
    (after : List (Instant × Act)) : Prop where
  split : history events start = before ++ (now, .stop (.parse fault.message)) :: after
  alive : (actAll before start).1.isAlive = true
  inFront : dispatched before = frames
  nothingElse : dispatched after = []

theorem reassemble_of_parse (alive : l.phase = .running e)
    (started : Remainder l.tuning.maxPayload e.buffer none)
    (h : (run events l).1.phase = .stopped (.parse text)) :
    ∃ frames rest fault, fault.message = text ∧
      reassemble l.tuning.maxPayload (e.buffer ++ received events) =
        ⟨frames, rest, some fault⟩ ∧
      ∃ before now after, HaltsAfter frames fault events l before now after := by
  induction events generalizing l e with
  | nil =>
    rw [run, alive] at h
    cases h
  | cons x events ih =>
    obtain ⟨now, event⟩ := x
    simp only [run] at h
    rw [received_cons, ← List.append_assoc, reassemble_append]
    cases hfirst : (l.step now event).1.phase with
    | stopped cause =>
      rw [run_of_ended hfirst, hfirst] at h
      cases h
      obtain ⟨fault, rfl, herror, hacts⟩ := reassemble_of_step_parse alive hfirst
      refine ⟨_, _, fault, rfl, Reassembly.resume_of_error herror _,
        ((reassemble l.tuning.maxPayload (e.buffer ++ event.octets)).frames.map Act.dispatch).map
          (now, ·), now, history events (l.step now event).1, ?_, ?_, ?_, ?_⟩
      · rw [history, hacts, List.map_append, List.append_assoc]
        rfl
      · rw [actAll_dispatch now _ l e alive]
        rfl
      · rw [dispatched_map, List.filterMap_map]
        exact List.filterMap_some
      · exact dispatched_of_stopped hfirst events
    | running e₁ =>
      have hstep := reassemble_of_step_running alive started hfirst
      have htuning := tuning_step now event l
      obtain ⟨frames, rest, fault, rfl, hlater, before, time, after, hhalts⟩ :=
        ih hfirst (htuning ▸ remainder_of_reassemble hstep) h
      rw [htuning] at hlater
      refine ⟨(l.acts event).filterMap Act.frame? ++ frames, rest, fault, rfl, ?_,
        (l.acts event).map (now, ·) ++ before, time, after, ?_, ?_, ?_, hhalts.nothingElse⟩
      · rw [hstep, Reassembly.resume_of_none rfl, hlater]
      · rw [history, hhalts.split, List.append_assoc]
      · rw [actAll_append, ← step_eq_actAll]
        exact hhalts.alive
      · rw [dispatched_append, dispatched_map, hhalts.inFront]

/-! ## A run from the start -/

variable {t : Tuning} {target : Address}

theorem decodes_of_running (h : (run events (opened t target)).1.phase = .running e') :
    Decodes t.maxPayload (received events)
      ⟨dispatched (history events (opened t target)), e'.buffer, none⟩ := by
  have hstart : Remainder t.maxPayload Engine.initial.buffer none := .short (Nat.zero_lt_succ _)
  have hall := reassemble_of_running (l := opened t target) rfl hstart h
  exact hall ▸ decodes_reassemble t.maxPayload _

theorem decodes_of_parse (h : (run events (opened t target)).1.phase = .stopped (.parse text)) :
    ∃ frames rest fault, fault.message = text ∧
      Decodes t.maxPayload (received events) ⟨frames, rest, some fault⟩ ∧
      ∃ before now after, HaltsAfter frames fault events (opened t target) before now after := by
  have hstart : Remainder t.maxPayload Engine.initial.buffer none := .short (Nat.zero_lt_succ _)
  obtain ⟨frames, rest, fault, htext, hall, hhalts⟩ :=
    reassemble_of_parse (l := opened t target) rfl hstart h
  exact ⟨frames, rest, fault, htext, hall ▸ decodes_reassemble t.maxPayload _, hhalts⟩

/-- A link whose engine has not stopped for another cause stops at the first header that is at
fault, and only there. Until then all frames in front of this header have been dispatched, in
order, and nothing else is. Without such a header the engine runs and holds what is left. -/
theorem parse_iff_header_fault (t : Tuning) (target : Address) (events : List (Instant × Event))
    (other : ∀ cause, (run events (opened t target)).1.phase = .stopped cause →
      ∃ text, cause = .parse text) :
    (∀ text, (run events (opened t target)).1.phase = .stopped (.parse text) ↔
      ∃ frames rest fault, Decodes t.maxPayload (received events) ⟨frames, rest, some fault⟩ ∧
        fault.message = text) ∧
    (∀ frames rest fault, Decodes t.maxPayload (received events) ⟨frames, rest, some fault⟩ →
      ∃ before now after, HaltsAfter frames fault events (opened t target) before now after) ∧
    ((run events (opened t target)).1.isAlive = true ↔
      ∃ frames rest, Decodes t.maxPayload (received events) ⟨frames, rest, none⟩) ∧
    ∀ frames rest, Decodes t.maxPayload (received events) ⟨frames, rest, none⟩ →
      dispatched (history events (opened t target)) = frames ∧
        (run events (opened t target)).1.engine.buffer = rest := by
  cases hp : (run events (opened t target)).1.phase with
  | running e =>
    have hruns := decodes_of_running hp
    have hsame : ∀ {frames rest error}, Decodes t.maxPayload (received events)
        ⟨frames, rest, error⟩ → Reassembly.mk frames rest error =
          ⟨dispatched (history events (opened t target)), e.buffer, none⟩ :=
      fun h => h.unique.trans hruns.unique.symm
    refine ⟨fun text => ⟨nofun, ?_⟩, ?_, ⟨fun _ => ⟨_, _, hruns⟩, ?_⟩, ?_⟩
    · rintro ⟨frames, rest, fault, h, -⟩
      cases hsame h
    · intro frames rest fault h
      cases hsame h
    · exact fun _ => isAlive_of_running hp
    · intro frames rest h
      cases hsame h
      exact ⟨rfl, congrArg Engine.buffer (engine_of_running hp)⟩
  | stopped cause =>
    obtain ⟨text, rfl⟩ := other cause hp
    obtain ⟨frames, rest, fault, rfl, hstops, hhalts⟩ := decodes_of_parse hp
    have hsame : ∀ {frames' rest' error'}, Decodes t.maxPayload (received events)
        ⟨frames', rest', error'⟩ → Reassembly.mk frames' rest' error' = ⟨frames, rest, some fault⟩ :=
      fun h => h.unique.trans hstops.unique.symm
    refine ⟨fun text => ⟨fun h => ⟨frames, rest, fault, hstops, ?_⟩, ?_⟩, ?_, ⟨?_, ?_⟩, ?_⟩
    · cases h
      rfl
    · rintro ⟨frames', rest', fault', h, rfl⟩
      cases hsame h
      rfl
    · intro frames' rest' fault' h
      cases hsame h
      exact hhalts
    · intro halive
      rw [isAlive_of_stopped hp] at halive
      cases halive
    · rintro ⟨frames', rest', h⟩
      cases hsame h
    · intro frames' rest' h
      cases hsame h

/-- Two receives, and reads that bring a payload that cannot be read, a response whose end comes
with a header that announces too much, and a frame after that. -/
def faultyRun : List (Instant × Event) :=
  [(0, .request 1 (.receive none)), (0, .request 2 (.receive none)), (0, .take),
    (1, .read [0x02, 0xFD, 0x80, 0x01, 0, 0, 0, 1, 0x06, 0x02, 0xFD, 0x80, 0x01, 0, 0, 0, 5,
      0x06, 0x80]),
    (2, .take),
    (3, .read [0x0E, 0x00, 0x50, 0x02, 0xFD, 0x80, 0x01, 0, 0, 1, 0]),
    (4, .read [0x02, 0xFD, 0x00, 0x07, 0, 0, 0, 0])]

/-- The payload that cannot be read fails a receive, the response answers the other one, and the
header stops the engine after that. -/
theorem faultyRun_stops :
    (run faultyRun (opened (.ofSettings 0x0E00 { maxPayloadLength := 16 }) 0x0680)).2.replies =
      [⟨1, .failed (.ofWireError (.truncated 0x8001 4 1))⟩,
        ⟨2, .frame [0x02, 0xFD, 0x80, 0x01, 0, 0, 0, 5, 0x06, 0x80, 0x0E, 0x00, 0x50]⟩] ∧
    ∃ before now after, HaltsAfter
      [⟨⟨0x02, 0x8001, 1⟩, [0x06]⟩, ⟨⟨0x02, 0x8001, 5⟩, [0x06, 0x80, 0x0E, 0x00, 0x50]⟩]
      (.payloadTooLarge 256 16) faultyRun
      (opened (.ofSettings 0x0E00 { maxPayloadLength := 16 }) 0x0680) before now after := by
  have hstop : (run faultyRun (opened (.ofSettings 0x0E00 { maxPayloadLength := 16 })
      0x0680)).1.phase = .stopped (.parse "Payload length 256 exceeds limit of 16 bytes") := by
    decide +kernel
  obtain ⟨-, hhalts, -, -⟩ := parse_iff_header_fault
    (.ofSettings 0x0E00 { maxPayloadLength := 16 }) 0x0680 faultyRun fun cause hcause =>
      ⟨_, (Phase.stopped.inj (hstop.symm.trans hcause)).symm⟩
  have hstream : reassemble 16 (received faultyRun) =
      ⟨[⟨⟨0x02, 0x8001, 1⟩, [0x06]⟩, ⟨⟨0x02, 0x8001, 5⟩, [0x06, 0x80, 0x0E, 0x00, 0x50]⟩],
        [0x02, 0xFD, 0x80, 0x01, 0, 0, 1, 0, 0x02, 0xFD, 0x00, 0x07, 0, 0, 0, 0],
        some (.payloadTooLarge 256 16)⟩ := by
    decide +kernel
  exact ⟨by decide +kernel, hhalts _ _ _ (hstream ▸ decodes_reassemble 16 (received faultyRun))⟩

end Link
end Doip
