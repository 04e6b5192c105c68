import Doip.Proofs.Link.Reading
import Doip.Proofs.Frame.Messages

/-! # What the buffers of an engine hold

The inbox and the open collections hold octets, and only final responses to this tester get there
(`IsResponse`): a later call reads the sender and the user data off them at fixed offsets, which
gives what the message says. `Coherent` is kept by every turn that a frame within the limit
causes (`Turn.coherent`), and only such frames are dispatched (`fits_of_dispatch`). Between two
events the buffer of the reassembly is too short for a frame (`length_lt_of_remainder`). -/
namespace Doip

/-- Octets are the whole encoding of a frame with a final response to this tester, and what is
read off them without decoding is what the message says. -/
structure IsResponse (t : Tuning) (octets : Octets) (f : Frame) (m : Diagnostic) : Prop where
  encoded : octets = f.encode
  alone : reassemble t.maxPayload octets = ⟨[f], [], none⟩
  payloadType : f.header.payloadType = 0x8001
  decoded : f.message = .ok (.diagnostic m)
  addressed : m.target = t.source
  final : isResponsePending m.data = false
  source : frameSource? octets = some m.source
  data : userData octets = m.data

theorem Frame.userData_encode {f : Frame} {m : Diagnostic} (h : f.message = .ok (.diagnostic m)) :
    userData f.encode = m.data := by
  obtain ⟨s1, s0, t1, t0, rest, hp, rfl⟩ := Message.payload_of_decode h
  rw [userData, Frame.encode, hp]
  rfl

theorem isResponse_of_response? {t : Tuning} {f : Frame} {m : Diagnostic}
    (fits : f.Fits t.maxPayload) (h : f.response? t = some m) : IsResponse t f.encode f m := by
  obtain ⟨hm, ht, hp⟩ := Frame.message_of_response? h
  refine ⟨rfl, ?_, ?_, hm, ht, hp, Frame.frameSource?_encode hm, Frame.userData_encode hm⟩
  · have halone := reassemble_encodeAll (List.forall_mem_singleton.mpr fits)
    rwa [Frame.encodeAll_cons, Frame.encodeAll_nil, List.append_nil] at halone
  · exact PayloadKind.ofCode_eq_diagnostic (Message.ofCode_of_decode hm)

/-- What is left of a stream that shows no fault is shorter than the longest frame. -/
theorem length_lt_of_remainder {limit : UInt32} {rest : Octets} (h : Remainder limit rest none) :
    rest.length < Header.size + limit.toNat := by
  cases h with
  | short few => exact Nat.lt_add_right _ few
  | started within missing =>
    have hwithin := UInt32.le_iff_toNat_le.mp within
    rw [List.length_append, Header.length_encode]
    omega

namespace Engine

variable {t : Tuning} {target : Address} {now : Instant} {e e' : Engine} {input : Input}
  {effect : Effect}

/-- The octets that the engine keeps for later, in the inbox or in an open collection. -/
def Holds (e : Engine) (octets : Octets) : Prop :=
  octets ∈ e.inbox ∨ ∃ c ∈ e.collections, octets ∈ c.frames

structure Coherent (t : Tuning) (e : Engine) : Prop where
  bounded : e.inbox.length ≤ t.inboxCapacity
  responses : ∀ octets, e.Holds octets → ∃ f m, IsResponse t octets f m
  /-- What arrives goes to the open collections, and nothing to the inbox. -/
  exclusive : e.collections ≠ [] → e.inbox = []
  /-- A response pending is remembered for the next receive, and restarts one that waits. -/
  unset : e.receives ≠ [] → e.pendingAt = none

theorem coherent_initial : Coherent t .initial := by
  refine ⟨Nat.zero_le _, ?_, fun h => absurd rfl h, fun h => absurd rfl h⟩
  rintro octets (h | ⟨c, hc, -⟩)
  · cases h
  · cases hc

/-- Less in the inbox and fewer collections are coherent still. -/
theorem Coherent.narrow (h : Coherent t e) (inbox : e'.inbox.Sublist e.inbox)
    (collections : e'.collections ⊆ e.collections)
    (unset : e'.receives ≠ [] → e'.pendingAt = none) : Coherent t e' := by
  refine ⟨inbox.length_le.trans h.bounded, ?_, ?_, unset⟩
  · rintro octets (hi | ⟨c, hc, ho⟩)
    · exact h.responses octets (.inl (inbox.subset hi))
    · exact h.responses octets (.inr ⟨c, collections hc, ho⟩)
  · intro hopen
    obtain ⟨c, hc⟩ := List.exists_mem_of_ne_nil _ hopen
    have hempty := h.exclusive (List.ne_nil_of_mem (collections hc))
    exact List.sublist_nil.mp (hempty ▸ inbox)

/-- With the inbox, the collections and the receives as they were, nothing has changed. -/
theorem Coherent.keep (h : Coherent t e) (inbox : e'.inbox = e.inbox)
    (collections : e'.collections = e.collections) (receives : e'.receives = e.receives)
    (pendingAt : e'.pendingAt = e.pendingAt) : Coherent t e' := by
  refine h.narrow (inbox ▸ List.Sublist.refl _) (collections ▸ List.Subset.refl _) ?_
  rw [receives, pendingAt]
  exact h.unset

theorem length_buffered_le (hpositive : 0 < t.inboxCapacity) (frame : Octets)
    (h : e.inbox.length ≤ t.inboxCapacity) :
    (e.buffered t frame).inbox.length ≤ t.inboxCapacity := by
  simp only [buffered]
  split
  · rw [List.length_append, List.length_tail, List.length_singleton]
    omega
  · rw [List.length_append, List.length_singleton]
    omega

theorem Coherent.opened (h : Coherent t e) (id : CallId) (deadline : Instant) :
    Coherent t { e with inbox := [], collections := e.collections ++ [⟨id, deadline, e.inbox⟩] } := by
  refine ⟨Nat.zero_le _, ?_, fun _ => rfl, h.unset⟩
  rintro octets (hi | ⟨c, hc, ho⟩)
  · cases hi
  · rcases List.mem_append.mp hc with hold | hnew
    · exact h.responses octets (.inr ⟨c, hold, ho⟩)
    · cases List.mem_singleton.mp hnew
      exact h.responses octets (.inl ho)

/-- A response is gathered by all open collections. -/
theorem Coherent.gathered (h : Coherent t e) {f : Frame} {m : Diagnostic}
    (response : IsResponse t f.encode f m) (isOpen : e.collections ≠ [])
    {pendingAt : Option Instant} (unset : e.receives ≠ [] → pendingAt = none) :
    Coherent t { e with
      pendingAt := pendingAt
      collections := e.collections.map fun c => { c with frames := c.frames ++ [f.encode] } } := by
  refine ⟨h.bounded, ?_, fun _ => h.exclusive isOpen, unset⟩
  rintro octets (hi | ⟨c, hc, ho⟩)
  · exact h.responses octets (.inl hi)
  · obtain ⟨c, hmem, rfl⟩ := List.mem_map.mp hc
    rcases List.mem_append.mp ho with hold | hnew
    · exact h.responses octets (.inr ⟨c, hmem, hold⟩)
    · cases List.mem_singleton.mp hnew
      exact ⟨f, m, response⟩

/-- A response that nobody waits for is kept. -/
theorem Coherent.kept (h : Coherent t e) (hpositive : 0 < t.inboxCapacity) {f : Frame}
    {m : Diagnostic} (response : IsResponse t f.encode f m) (closed : e.collections = [])
    {pendingAt : Option Instant} (unset : e.receives ≠ [] → pendingAt = none) :
    Coherent t (buffered t f.encode { e with pendingAt := pendingAt }) := by
  refine ⟨length_buffered_le hpositive _ h.bounded, ?_, fun hopen => absurd closed hopen, unset⟩
  rintro octets (hi | ⟨c, hc, ho⟩)
  · rcases List.mem_append.mp ((buffered_inbox_sublist _ _).subset hi) with hold | hnew
    · exact h.responses octets (.inl hold)
    · cases List.mem_singleton.mp hnew
      exact ⟨f, m, response⟩
  · exact h.responses octets (.inr ⟨c, hc, ho⟩)

/-- A turn that a frame within the limit causes, or no frame at all, keeps the buffers coherent. -/
theorem Turn.coherent (h : Turn t target now e input e' effect) (hpositive : 0 < t.inboxCapacity)
    (fits : ∀ f, input = .dispatch f → f.Fits t.maxPayload) (he : Coherent t e) :
    Coherent t e' := by
  have hunset : ∀ {m : Diagnostic}, e.receives ≠ [] →
      (if m.source = target then none else e.pendingAt) = none := by
    intro m hwaits
    rw [he.unset hwaits, ite_self]
  cases h with
  | sent => exact he.narrow (List.nil_sublist _) (List.Subset.refl _) fun _ => rfl
  | claimed split =>
    refine he.narrow ?_ (List.Subset.refl _) he.unset
    rw [split]
    exact (List.Sublist.refl _).append (List.sublist_cons_self _ _)
  | waited => exact he.narrow (List.Sublist.refl _) (List.Subset.refl _) fun _ => rfl
  | collectionOpened => exact he.opened _ _
  | receiveFailed _ _ waits | extended _ _ waits =>
    refine he.narrow (List.Sublist.refl _) (List.Subset.refl _) fun _ => he.unset ?_
    rw [waits]
    exact List.cons_ne_nil _ _
  | remembered _ _ idle =>
    exact he.narrow (List.Sublist.refl _) (List.Subset.refl _) fun hwaits => absurd idle hwaits
  | gathered response isOpen =>
    exact he.gathered (isResponse_of_response? (fits _ rfl) response) isOpen hunset
  | handed => exact he.narrow (List.Sublist.refl _) (List.Subset.refl _) fun _ => rfl
  | kept response closed =>
    exact he.kept hpositive (isResponse_of_response? (fits _ rfl) response) closed hunset
  | expired =>
    refine he.narrow (List.Sublist.refl _) (List.filter_subset_self _) fun hwaits => he.unset ?_
    exact fun hnone => hwaits (by simp [expire, hnone])
  | _ => exact he.keep rfl rfl rfl rfl

end Engine

namespace Link

variable {now : Instant} {l l' : Link} {a : Act} {effect : Effect}

theorem Step.coherent (h : Step now l a l' effect) (hpositive : 0 < l.tuning.inboxCapacity)
    (fits : ∀ f, a = .dispatch f → f.Fits l.tuning.maxPayload)
    (hl : Engine.Coherent l.tuning l.engine) : Engine.Coherent l'.tuning l'.engine := by
  rw [h.tuning]
  rcases h.turn_or_same with ⟨input, hinput, turn⟩ | ⟨-, hsame | ⟨cause, hstop⟩⟩
  · refine turn.coherent hpositive (fun f hf => fits f ?_) hl
    rw [hf] at hinput
    exact act_of_input? hinput rfl
  · rwa [hsame]
  · rw [engine_of_stopped hstop]
    exact Engine.coherent_initial

/-- Every frame that is dispatched is one that the limit lets through. -/
theorem fits_of_dispatch {events : List (Instant × Event)} {f : Frame}
    (h : (now, .dispatch f) ∈ history events l) : f.Fits l.tuning.maxPayload := by
  obtain ⟨before, event, later, -, hact⟩ := mem_history h
  cases event with
  | read octets =>
    simp only [acts, readActs] at hact
    split at hact
    · cases hact
    · split at hact
      · simp at hact
      · rcases List.mem_append.mp hact with hframe | hlast
        · obtain ⟨g, hg, heq⟩ := List.mem_map.mp hframe
          cases heq
          rw [← tuning_run before l]
          exact (decodes_reassemble _ _).fits f hg
        · split at hlast <;> simp at hlast
  | _ => simp [acts] at hact

theorem coherent_actAll (past : List (Instant × Act)) (start : Link)
    (hpositive : 0 < start.tuning.inboxCapacity)
    (fits : ∀ now f, (now, .dispatch f) ∈ past → f.Fits start.tuning.maxPayload)
    (hstart : Engine.Coherent start.tuning start.engine) :
    Engine.Coherent (actAll past start).1.tuning (actAll past start).1.engine := by
  induction past using List.reverseRecOn with
  | nil => exact hstart
  | append_singleton past x ih =>
    obtain ⟨now, a⟩ := x
    have hbefore := ih fun now f hf => fits now f (List.mem_append_left _ hf)
    rw [actAll_concat]
    refine (step_act now a _).coherent ?_ ?_ hbefore
    · rwa [tuning_actAll]
    · rintro f rfl
      rw [tuning_actAll]
      exact fits now f (List.mem_append_right _ (List.mem_singleton_self _))

/-- Between two events a running engine holds no more than fits into its buffers: final responses
to this tester in the inbox or in the open collections, and less than a frame of what the gateway
is about to send. -/
theorem buffers_between_events (source target : Address) (settings : Settings)
    (events : List (Instant × Event)) (e : Engine)
    (alive : (run events (opened (.ofSettings source settings) target)).1.phase = .running e) :
    e.inbox.length ≤ max 1 settings.inboxCapacity.toNat ∧
    (∀ octets, e.Holds octets → ∃ f m, IsResponse (.ofSettings source settings) octets f m) ∧
    (e.collections ≠ [] → e.inbox = []) ∧
    (e.receives ≠ [] → e.pendingAt = none) ∧
    Frame.scan settings.maxPayloadLength e.buffer = .incomplete ∧
    e.buffer.length < Header.size + settings.maxPayloadLength.toNat := by
  have hcoherent := coherent_actAll
    (history events (opened (.ofSettings source settings) target))
    (opened (.ofSettings source settings) target) (Nat.lt_of_lt_of_le Nat.zero_lt_one
      (Nat.le_max_right _ _)) (fun _ _ => fits_of_dispatch) Engine.coherent_initial
  rw [tuning_actAll, ← run_eq_actAll, engine_of_running alive] at hcoherent
  have hrest : Remainder settings.maxPayloadLength e.buffer none :=
    (decodes_of_running alive).maximal
  refine ⟨?_, hcoherent.responses, hcoherent.exclusive, hcoherent.unset,
    hrest.scan_eq, length_lt_of_remainder hrest⟩
  rw [Nat.max_comm]
  exact hcoherent.bounded

/-- A response of another ECU, one of the target, and half a frame. -/
def unclaimedRun : List (Instant × Event) :=
  [(1, .read [0x02, 0xFD, 0x80, 0x01, 0, 0, 0, 5, 0x07, 0x00, 0x0E, 0x00, 0x50]),
    (2, .read [0x02, 0xFD, 0x80, 0x01, 0, 0, 0, 6, 0x06, 0x80, 0x0E, 0x00, 0x50, 0x01,
      0x02, 0xFD, 0x80, 0x01, 0, 0, 0, 5, 0x06])]

/-- Of the two responses the inbox keeps the later one, which can be read without decoding. -/
theorem unclaimedRun_buffers :
    ∃ e, (run unclaimedRun (opened (.ofSettings 0x0E00 { inboxCapacity := 0 }) 0x0680)).1.phase =
        .running e ∧
      e.inbox = [[0x02, 0xFD, 0x80, 0x01, 0, 0, 0, 6, 0x06, 0x80, 0x0E, 0x00, 0x50, 0x01]] ∧
      e.buffer.length = 9 ∧
      ∃ f m, IsResponse (.ofSettings 0x0E00 { inboxCapacity := 0 })
        [0x02, 0xFD, 0x80, 0x01, 0, 0, 0, 6, 0x06, 0x80, 0x0E, 0x00, 0x50, 0x01] f m := by
  obtain ⟨e, alive⟩ := running_of_isAlive (l := (run unclaimedRun
    (opened (.ofSettings 0x0E00 { inboxCapacity := 0 }) 0x0680)).1) (by decide +kernel)
  have hinbox : e.inbox =
      [[0x02, 0xFD, 0x80, 0x01, 0, 0, 0, 6, 0x06, 0x80, 0x0E, 0x00, 0x50, 0x01]] := by
    rw [← engine_of_running alive]
    decide +kernel
  have hbuffer : e.buffer.length = 9 := by
    rw [← engine_of_running alive]
    decide +kernel
  obtain ⟨-, hresponses, -⟩ :=
    buffers_between_events 0x0E00 0x0680 { inboxCapacity := 0 } unclaimedRun e alive
  exact ⟨e, alive, hinbox, hbuffer, hresponses _ (.inl (hinbox ▸ List.mem_singleton_self _))⟩

end Link
end Doip
