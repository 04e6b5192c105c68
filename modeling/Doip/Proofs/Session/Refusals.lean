import Doip.Proofs.Link.Refusals
import Doip.Proofs.Session.Stopping

/-! # Refused calls leave everything as it was

A call can ask for too much: a collection for a time that no duration or no clock can hold, or the
sending of a message that is too long. The session refuses it at once if it is not
`Request.Admissible`, before the engine hears of it. What only the engine can know, whether the
clock can hold the end of a collection and whether an activation waits already, is found out when
it takes the call (`DeclinedAt`). `Refusing` says that no call is refused otherwise and that a
refused call changes nothing, up to the limits of all numbers involved; it holds in every state
that a session can reach (`refusals_leave_everything`). -/
namespace Doip
namespace Session

variable {now : Instant} {event : Event} {s s' : Session} {id : CallId} {request : Request}
  {effect : Effect} {source target : Address} {settings : Settings}

/-! ## Refusals of the session -/

theorem admissible_of_call? {events : List (Instant × Event)} {call : Call}
    (h : (run events (opened source target settings)).1.call? request = some call) :
    request.Admissible settings := by
  cases request with
  | activate | receive => trivial
  | send data timeout =>
    simp only [call?, tuning_run] at h
    split at h
    · cases h
    · rename_i hfits
      exact Nat.le_of_not_lt hfits
  | collect timeout =>
    cases timeout with
    | none => cases h
    | some window =>
      obtain ⟨bound, hbound, -⟩ := Option.map_eq_some_iff.mp h
      have hnanos := nanos_of_bound? hbound
      rw [tuning_run, margin_run] at hnanos
      have hle := bound.nanos_le
      rw [hnanos] at hle
      exact hle

theorem call?_eq_none_iff (events : List (Instant × Event)) :
    (run events (opened source target settings)).1.call? request = none ↔
      ¬request.Admissible settings := by
  constructor
  · intro h admissible
    obtain ⟨call, hcall⟩ :
        ∃ call, (run events (opened source target settings)).1.call? request = some call :=
      call?_of_admissible events admissible
    rw [hcall] at h
    cases h
  · intro h
    rw [Option.eq_none_iff_forall_ne_some]
    exact fun call hcall => h (admissible_of_call? hcall)

/-- Nobody refuses a call while it is put into the queue. -/
theorem not_rejects_passing {call : Call} (accepted : s.call? request = some call)
    (now : Instant) (id id' : CallId) : ¬(s.passing now (.ask id request)).2.Rejects id' := by
  simp only [passing, passed, accepted, Option.toList_some, List.map_cons, List.map_nil, Link.run]
  have htaking : Link.taking s.link now (.request id call) = [] := Link.taking_of_ne_take (by simp)
  rw [Effect.append_none, Link.step_of_single rfl, (Link.step_act now _ s.link).rejects_iff,
    htaking]
  rintro ⟨call, hcall, -⟩
  cases hcall

theorem Passes.rejects_iff (h : Passes now event s s' effect) :
    effect.Rejects id ↔ id ∉ s.givenUp ∧ (s.passing now event).2.Rejects id := by
  simp only [Effect.Rejects, h.replies, List.mem_filter, Bool.not_eq_true', List.contains_eq_mem,
    decide_eq_false_iff_not, and_comm, exists_and_left]

theorem tuning_of_performs {l : Link} {a : Link.Act} (h : Performs now event s l a) :
    l.tuning = s.link.tuning := by
  obtain ⟨before, -, rfl⟩ := h
  exact Link.tuning_actAll before s.link

/-- At this event the engine takes the call of this name and declines it. -/
def DeclinedAt (grace : Duration) (now : Instant) (event : Event) (s : Session) (id : CallId) :
    Prop :=
  ∃ l a call, Performs now event s l a ∧ (id, call) ∈ Link.taking l now a ∧
    l.engine.Declines grace now call

theorem rejects_passing_iff : (s.passing now event).2.Rejects id ↔
    DeclinedAt s.link.tuning.grace now event s id := by
  constructor
  · rintro ⟨reason, hr⟩
    obtain ⟨l, a, performs, hact⟩ := mem_replies_passing.mp hr
    obtain ⟨call, htaking, declines⟩ := (Link.step_act now a l).rejects_iff.mp ⟨reason, hact⟩
    rw [tuning_of_performs performs] at declines
    exact ⟨l, a, call, performs, htaking, declines⟩
  · rintro ⟨l, a, call, performs, htaking, declines⟩
    rw [← tuning_of_performs performs] at declines
    obtain ⟨reason, hact⟩ := (Link.step_act now a l).rejects_iff.mpr ⟨call, htaking, declines⟩
    exact ⟨reason, mem_replies_passing.mpr ⟨l, a, performs, hact⟩⟩

theorem not_rejects_losePatience (now : Instant) (s : Session) (id : CallId) :
    ¬(s.losePatience now).2.Rejects id := by
  rintro ⟨reason, hr⟩
  obtain ⟨p, -, heq⟩ := List.mem_map.mp hr
  cases heq

theorem not_performs (h : s.passed now event = []) {l : Link} {a : Link.Act} :
    ¬Performs now event s l a := by
  rintro ⟨before, hpart, -⟩
  have hnone : history [(now, event)] s = [] := by
    simp only [history, passedAll, h, List.map_nil, List.append_nil, Link.history]
  rw [hnone, List.prefix_nil] at hpart
  simp at hpart

/-- A call that is put into the queue is not refused at once. -/
theorem rejects_ask_iff : (s.ask now id request).2.Rejects id ↔ s.call? request = none := by
  cases hcall : s.call? request with
  | none =>
    obtain ⟨reason, hask⟩ := ask_of_refused hcall now id
    rw [hask]
    exact iff_of_true ⟨reason, List.mem_singleton_self _⟩ rfl
  | some call =>
    refine iff_of_false (fun hrejects => ?_) nofun
    rcases step_cases now (.ask id request) s with ⟨_, _, _, heq, no, -⟩ | heq | ⟨-, passes⟩
    · cases heq
      rw [hcall] at no
      cases no
    · cases heq
    · exact not_rejects_passing hcall now id id (passes.rejects_iff.mp hrejects).2

/-- No call is refused in another way: the session refuses it, or the engine declines it while its
caller waits. -/
theorem rejects_step_iff : (s.step now event).2.Rejects id ↔
    (∃ request, event = .ask id request ∧ s.call? request = none) ∨
      id ∉ s.givenUp ∧ DeclinedAt s.link.tuning.grace now event s id := by
  have hnone : s.passed now event = [] → ¬DeclinedAt s.link.tuning.grace now event s id := by
    rintro hpassed ⟨l, a, call, performs, -⟩
    exact not_performs hpassed performs
  rcases step_cases now event s with ⟨id', request, reason, rfl, no, hstep⟩ | rfl | hpassed
  · rw [hstep, Effect.rejects_reply, and_iff_left ⟨reason, rfl⟩]
    constructor
    · rintro rfl
      exact .inl ⟨request, rfl, no⟩
    · rintro (⟨request', heq, -⟩ | ⟨-, hdeclined⟩)
      · cases heq
        rfl
      · exact absurd hdeclined (hnone (passed_of_refused no))
  · refine iff_of_false (not_rejects_losePatience now s id) ?_
    rintro (⟨request, heq, -⟩ | ⟨-, hdeclined⟩)
    · cases heq
    · exact hnone rfl hdeclined
  · obtain ⟨accepted, passes⟩ := hpassed
    rw [passes.rejects_iff, rejects_passing_iff]
    refine (or_iff_right ?_).symm
    rintro ⟨request, rfl, no⟩
    exact accepted ⟨id, request, rfl, no⟩

/-! ## The patience of callers -/

theorem mem_patience_step {p : Patience} (h : p ∈ (s.step now event).1.patience) :
    p ∈ s.patience ∨ p ∈ s.newPatience now event := by
  rcases step_cases now event s with ⟨id, request, reason, rfl, no, hstep⟩ | rfl | ⟨-, passes⟩
  · rw [hstep] at h
    exact .inl h
  · exact .inl (List.mem_of_mem_filter h)
  · rw [passes.patience] at h
    exact List.mem_append.mp (List.mem_of_mem_filter h)

/-- The clock can hold how long a caller waits, or it is thirty years. -/
theorem deadline_of_newPatience {p : Patience} (h : p ∈ s.newPatience now event) :
    p.deadline < Instant.limit ∨ p.deadline = farFuture now := by
  unfold newPatience at h
  split at h
  · obtain ⟨bound, -, rfl⟩ := List.mem_map.mp h
    cases hend : Instant.add? now bound with
    | none => exact .inr rfl
    | some later => exact .inl (Instant.add?_eq_some_iff.mp hend).2
  · cases h

theorem deadline_of_patience {events : List (Instant × Event)} {p : Patience}
    (h : p ∈ (run events s).1.patience) :
    p ∈ s.patience ∨ p.deadline < Instant.limit ∨ ∃ x ∈ events, p.deadline = farFuture x.1 := by
  induction events generalizing s with
  | nil => exact .inl h
  | cons x events ih =>
    rcases ih h with hstep | hfits | ⟨y, hy, hfar⟩
    · rcases mem_patience_step hstep with hold | hnew
      · exact .inl hold
      · rcases deadline_of_newPatience hnew with hfits | hfar
        · exact .inr (.inl hfits)
        · exact .inr (.inr ⟨x, List.mem_cons_self, hfar⟩)
    · exact .inr (.inl hfits)
    · exact .inr (.inr ⟨y, List.mem_cons_of_mem _ hy, hfar⟩)

/-! ## Lengths -/

/-- A sequence of octets in memory is shorter than this: its length is a signed 64-bit number. -/
def lengthLimit : Nat := 9223372036854775808

/-- The length of a sequence in memory and of the addresses is a 64-bit number. -/
theorem exceeds_iff {limit : UInt32} {data : Octets} (h : data.length < lengthLimit) :
    limit.toUInt64 < UInt64.ofNat data.length + UInt64.ofNat addressesLength ↔
      limit.toNat < data.length + addressesLength := by
  have hsum : (UInt64.ofNat data.length + UInt64.ofNat addressesLength).toNat =
      data.length + addressesLength := by
    rw [UInt64.toNat_add, UInt64.toNat_ofNat', UInt64.toNat_ofNat', addressesLength]
    unfold lengthLimit at h
    omega
  rw [UInt64.lt_iff_toNat_lt, hsum, UInt32.toNat_toUInt64]

/-- The header of a message that is short enough announces its length. -/
theorem payloadLength_of_admissible {data : Octets} {timeout : Option Duration}
    (h : (Request.send data timeout).Admissible settings) (version : UInt8)
    (source target : Address) :
    (Frame.ofMessage version (.diagnostic ⟨source, target, data⟩)).header.payloadLength.toNat =
      data.length + addressesLength := by
  have hmax := settings.maxPayloadLength.toNat_lt
  have hbody : (Message.diagnostic ⟨source, target, data⟩).encode.length =
      data.length + addressesLength := by
    simp [Message.encode, octets16, addressesLength]
  simp only [Request.Admissible] at h
  simp only [Frame.ofMessage, hbody, UInt32.toNat_ofNat']
  omega

/-! ## Refusals -/

/-- How a session of these settings refuses in the state `s`, after events at `times`. -/
structure Refusing (settings : Settings) (times : List Instant) (s : Session) : Prop where
  /-- At once it refuses what is not admissible, and nothing else happens. -/
  asked : ∀ now id (request : Request),
    (s.ask now id request).2.Rejects id ↔ ¬request.Admissible settings
  untouched : ∀ now id (request : Request), ¬request.Admissible settings →
    ∃ reason, s.ask now id request = (s, .reply id (.failed (.invalidArgument reason)))
  /-- Later only the engine refuses, what it declines. -/
  rejected : ∀ now event id, (s.step now event).2.Rejects id ↔
    (∃ request, event = .ask id request ∧ ¬request.Admissible settings) ∨
      id ∉ s.givenUp ∧ DeclinedAt settings.multiResponseGrace now event s id
  /-- Then the call leaves the queue, and nothing else happens. -/
  declined : ∀ now event l a id call, Performs now event s l a →
    (id, call) ∈ Link.taking l now a →
    l.engine.Declines settings.multiResponseGrace now call →
    ∃ reason, l.act now a =
      ({ l with queue := l.queue.tail }, .reply id (.failed (.invalidArgument reason)))
  /-- A collection whose end the clock can hold opens, and its end is the exact sum. -/
  opened : ∀ now event l a id window, Performs now event s l a →
    (id, .collect window) ∈ Link.taking l now a →
    now + window.nanos + settings.multiResponseGrace.nanos < Instant.limit →
    l.act now a =
      ({ l with
          queue := l.queue.tail
          phase := .running
            { l.engine with
              inbox := []
              collections := l.engine.collections ++
                [⟨id, now + window.nanos + settings.multiResponseGrace.nanos,
                  l.engine.inbox⟩] } }, .none)
  /-- The target changes if the engine runs, and nothing else does. -/
  retargeted : ∀ target, s.setTarget target =
    if s.link.isAlive then .ok { s with link := { s.link with target } }
    else .error .engineStopped
  notRetargeted : s.link.isAlive = false → ∀ now target,
    s.step now (.setTarget target) = (s, .none)
  /-- No end overflows the clock. -/
  ends : s.link.engine.WithinClock
  patience : ∀ p ∈ s.patience,
    p.deadline < Instant.limit ∨ ∃ now ∈ times, p.deadline = farFuture now
  /-- The length of a message is checked without overflow, and announced in full. -/
  lengths : ∀ data timeout, data.length < lengthLimit →
    (settings.maxPayloadLength.toUInt64 < UInt64.ofNat data.length + UInt64.ofNat addressesLength ↔
      ¬(Request.send data timeout).Admissible settings)
  announced : ∀ data timeout version target, (Request.send data timeout).Admissible settings →
    (Frame.ofMessage version (.diagnostic ⟨s.source, target, data⟩)).header.payloadLength.toNat =
      data.length + addressesLength

/-- In every state that a session can reach, refusals are exact and leave everything as it was. -/
theorem refusals_leave_everything (source target : Address) (settings : Settings)
    (events : List (Instant × Event)) :
    Refusing settings (events.map (·.1)) (run events (opened source target settings)).1 := by
  have hcall : ∀ request, (run events (opened source target settings)).1.call? request = none ↔
      ¬request.Admissible settings := fun request => call?_eq_none_iff events
  have hgrace : (run events (opened source target settings)).1.link.tuning.grace =
      settings.multiResponseGrace := by
    rw [tuning_run]
    rfl
  have hlink : (run events (opened source target settings)).1.link.engine.WithinClock := by
    rw [← link_actAll]
    exact Link.withinClock_actAll _ _ _
  have hpatience : ∀ p ∈ (run events (opened source target settings)).1.patience,
      p.deadline < Instant.limit ∨ ∃ x ∈ events, p.deadline = farFuture x.1 := by
    intro p hp
    exact (deadline_of_patience hp).resolve_left nofun
  generalize (run events (opened source target settings)).1 = s at *
  constructor
  case asked =>
    intro now id request
    rw [rejects_ask_iff, hcall]
  case untouched =>
    intro now id request no
    exact ask_of_refused ((hcall request).mpr no) now id
  case rejected =>
    intro now event id
    rw [rejects_step_iff, hgrace]
    simp only [hcall]
  case declined =>
    intro now event l a id call performs htaking declines
    rw [← hgrace, ← tuning_of_performs performs] at declines
    exact Link.act_of_declines htaking declines
  case opened =>
    intro now event l a id window performs htaking fits
    rw [← hgrace, ← tuning_of_performs performs] at fits ⊢
    exact Link.act_of_opened htaking fits
  case retargeted =>
    intro target
    unfold setTarget Link.isAlive
    cases s.link.phase <;> rfl
  case notRetargeted =>
    intro dead now target
    cases hphase : s.link.phase with
    | running e => simp [Link.isAlive, hphase] at dead
    | stopped cause => exact (setTarget_of_stopped hphase now target).2
  case ends => exact hlink
  case patience =>
    intro p hp
    simpa using hpatience p hp
  case lengths =>
    intro data timeout h
    rw [exceeds_iff h, Request.Admissible, Nat.not_le]
  case announced =>
    intro data timeout version target admissible
    exact payloadLength_of_admissible admissible version _ target

/-- With the usual grace of 250 ms the first collection ends at the last instant that the clock can
hold, and the second one would end a nanosecond later. -/
example :
    let window : Duration := ⟨Instant.limit - 250000001, by decide⟩
    let longer : Duration := ⟨Instant.limit - 250000000, by decide⟩
    (run [(0, .ask 1 (.collect (some window))), (0, .ask 2 (.collect (some longer))), (0, .take),
        (0, .take)] (opened 0x0E00 0x0680 {})).2 =
      .reply 2 (.failed (.invalidArgument "collection window is too large")) := by
  decide +kernel

end Session
end Doip
