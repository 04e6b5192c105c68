import Doip.Proofs.Link.Reading
import Doip.Proofs.Message.Layout
import Doip.Proofs.Session.Segmentation

/-! # Foreign traffic is invisible

A gateway passes frames on that do not concern this tester: they are addressed to another one, or
no tester acts on them (`Foreign`). `Traffic` is a run in whose stream such frames have been
inserted; `heard` is the run as it is, and `unheard` the run without them. A frame is inserted
where the session's own octets are whole frames (`Interspersed`), in as many reads as it takes,
and it is foreign under the target at its last octet. Until then its first octets stand in the
buffer; otherwise the two runs are in the same state after every event, with the same answers and
the same octets written (`foreign_traffic_invisible`). -/
namespace Doip

/-- A frame for another tester, or one that no tester acts on. -/
inductive Foreign (t : Tuning) (target : Address) (f : Frame) : Prop where
  | diagnostic {m : Diagnostic} (message : f.message = .ok (.diagnostic m))
      (elsewhere : m.target ≠ t.source)
  /-- A response pending of another ECU than the target. -/
  | pending {m : Diagnostic} (message : f.message = .ok (.diagnostic m))
      (pending : isResponsePending m.data = true) (other : m.source ≠ target)
  | positiveAck {a : Acknowledgement} (message : f.message = .ok (.positiveAck a))
      (elsewhere : a.target ≠ t.source)
  | negativeAck {a : Acknowledgement} (message : f.message = .ok (.negativeAck a))
      (elsewhere : a.target ≠ t.source)
  | aliveCheckResponse (type : f.header.payloadType = 0x0008)
  /-- Valid or not. -/
  | activationRequest (type : f.header.payloadType = 0x0005)
  | unknown (type : f.header.payloadType ∉ PayloadKind.known)
  /-- Too short for its type, which is not that of a diagnostic message. -/
  | short (type : f.header.payloadType ≠ 0x8001)
      (few : f.payload.length < (PayloadKind.ofCode f.header.payloadType).minLength)

namespace Engine

variable {t : Tuning} {target : Address} {now : Instant} {e : Engine} {f : Frame}

theorem dispatch_of_error {fault : WireError} (message : f.message = .error fault)
    (kind : PayloadKind.ofCode f.header.payloadType ≠ .diagnostic) :
    e.dispatch t target now f = (e, .none) := by
  simp only [dispatch, message, if_neg kind]

/-- No tester acts on messages of these kinds. -/
theorem dispatch_of_kind (h : PayloadKind.ofCode f.header.payloadType = .aliveCheckResponse ∨
      PayloadKind.ofCode f.header.payloadType = .activationRequest ∨
      PayloadKind.ofCode f.header.payloadType = .unsupported) :
    e.dispatch t target now f = (e, .none) := by
  cases hm : f.message with
  | error fault => exact dispatch_of_error hm (by rcases h with h | h | h <;> simp [h])
  | ok m =>
    have hkind := Message.ofCode_of_decode hm
    rw [hkind] at h
    cases m <;> simp [Message.kind] at h <;> simp only [dispatch, hm]

/-- The engine skips a foreign frame. -/
theorem dispatch_of_foreign (h : Foreign t target f) :
    e.dispatch t target now f = (e, .none) := by
  cases h with
  | diagnostic message elsewhere =>
    simp only [dispatch, message, onDiagnostic, ne_eq, elsewhere, not_false_eq_true, if_true]
  | pending message pending other =>
    simp only [dispatch, message, onDiagnostic, pending, other, if_true, if_false, ite_self]
  | positiveAck message elsewhere | negativeAck message elsewhere =>
    simp only [dispatch, message, onAck, ne_eq, elsewhere, not_false_eq_true, if_true]
  | aliveCheckResponse type =>
    refine dispatch_of_kind (.inl ?_)
    rw [type]
    rfl
  | activationRequest type =>
    refine dispatch_of_kind (.inr (.inl ?_))
    rw [type]
    rfl
  | unknown type =>
    exact dispatch_of_kind (.inr (.inr (PayloadKind.ofCode_eq_unsupported.mpr type)))
  | short type few =>
    rw [Message.minLength_ofCode] at few
    refine dispatch_of_error (Message.decode_of_short few) fun hkind => type ?_
    exact PayloadKind.ofCode_eq_diagnostic hkind

end Engine

/-! ## Streams with inserted frames -/

/-- Octets of a read: the session's own, or of a frame that has been inserted. -/
inductive Piece where
  | own (octets : Octets)
  | inserted (octets : Octets)
deriving DecidableEq, Repr

namespace Piece

def octets : Piece → Octets
  | own octets | inserted octets => octets

def ownOctets : Piece → Octets
  | own octets => octets
  | inserted _ => []

end Piece

/-- Where a stream with inserted frames stands. -/
structure Cursor where
  target : Address
  /-- The session's own octets that are no whole frame yet. -/
  held : Octets
  /-- The first octets of an inserted frame that is not complete. -/
  begun : Octets
deriving DecidableEq, Repr

/-- A read takes the cursor on: frames are inserted between whole frames only, and are foreign
under the current target when they are complete. -/
inductive Interspersed (t : Tuning) : Cursor → List Piece → Cursor → Prop where
  | nil {c : Cursor} : Interspersed t c [] c
  | own {target : Address} {held octets rest : Octets} {pieces : List Piece} {c : Cursor}
      (left : (reassemble t.maxPayload (held ++ octets)).rest = rest)
      (others : Interspersed t ⟨target, rest, []⟩ pieces c) :
      Interspersed t ⟨target, held, []⟩ (.own octets :: pieces) c
  /-- The first octets of an inserted frame, or some that follow them. -/
  | started {target : Address} {begun octets : Octets} {pieces : List Piece} {c : Cursor}
      (incomplete : Remainder t.maxPayload (begun ++ octets) none)
      (others : Interspersed t ⟨target, [], begun ++ octets⟩ pieces c) :
      Interspersed t ⟨target, [], begun⟩ (.inserted octets :: pieces) c
  /-- The last octets of an inserted frame. -/
  | ended {target : Address} {begun octets : Octets} {pieces : List Piece} {c : Cursor} {f : Frame}
      (complete : begun ++ octets = f.encode) (fits : f.Fits t.maxPayload)
      (foreign : Foreign t target f) (others : Interspersed t ⟨target, [], []⟩ pieces c) :
      Interspersed t ⟨target, [], begun⟩ (.inserted octets :: pieces) c

theorem Interspersed.target {t : Tuning} {c c' : Cursor} {pieces : List Piece}
    (h : Interspersed t c pieces c') : c'.target = c.target := by
  induction h with
  | nil => rfl
  | own left others ih | started incomplete others ih | ended complete fits foreign others ih =>
    exact ih

/-- Nothing that a cursor holds is a whole frame or a fault. -/
structure Cursor.Sound (limit : UInt32) (c : Cursor) : Prop where
  held : Remainder limit c.held none
  both : Remainder limit (c.held ++ c.begun) none

theorem Cursor.sound_of_held {limit : UInt32} {target : Address} {held : Octets}
    (h : Remainder limit held none) : Cursor.Sound limit ⟨target, held, []⟩ :=
  ⟨h, (List.append_nil held).symm ▸ h⟩

theorem Cursor.sound_of_begun {limit : UInt32} {target : Address} {begun : Octets}
    (h : Remainder limit begun none) : Cursor.Sound limit ⟨target, [], begun⟩ :=
  ⟨.short (Nat.zero_lt_succ _), h⟩

namespace Engine

variable {t : Tuning} {target : Address} {now : Instant} {e : Engine}

/-- The engine, with these octets behind those in its buffer. -/
def overhearing (begun : Octets) (e : Engine) : Engine := { e with buffer := e.buffer ++ begun }

theorem overhearing_nil (e : Engine) : e.overhearing [] = e := by
  rw [overhearing, List.append_nil]

theorem overhearing_append (first others : Octets) (e : Engine) :
    (e.overhearing first).overhearing others = e.overhearing (first ++ others) := by
  simp only [overhearing, List.append_assoc]

theorem absorb_of_remainder {octets : Octets}
    (h : Remainder t.maxPayload (e.buffer ++ octets) none) :
    e.absorb t target now octets = ((e.overhearing octets, .none), none) := by
  rw [absorb, reassemble_of_remainder h]
  rfl

/-- Octets that complete a foreign frame leave the engine as it was before its first octet. -/
theorem absorb_of_foreign {begun octets : Octets} {f : Frame} (held : e.buffer = [])
    (complete : begun ++ octets = f.encode) (fits : f.Fits t.maxPayload)
    (foreign : Foreign t target f) :
    (e.overhearing begun).absorb t target now octets = ((e, .none), none) := by
  have hframe : reassemble t.maxPayload f.encode = ⟨[f], [], none⟩ := by
    have halone := reassemble_encodeAll (List.forall_mem_singleton.mpr fits)
    rwa [Frame.encodeAll_cons, Frame.encodeAll_nil, List.append_nil] at halone
  simp only [absorb, overhearing, held, List.nil_append, complete, hframe, dispatchAll,
    dispatch_of_foreign foreign]
  rw [← held]
  rfl

/-- What an engine does with a read, and what it does with the session's own octets in it. -/
inductive Agrees (t : Tuning) (c : Cursor) (own all : (Engine × Effect) × Option WireError) :
    Prop where
  | running {e : Engine} {effect : Effect} (own_eq : own = ((e, effect), none))
      (all_eq : all = ((e.overhearing c.begun, effect), none)) (held : e.buffer = c.held)
      (sound : c.Sound t.maxPayload)
  | stopped {e : Engine} {effect : Effect} {fault : WireError} {buffer : Octets}
      (own_eq : own = ((e, effect), some fault))
      (all_eq : all = (({ e with buffer := buffer }, effect), some fault))

/-- Both go on from the same engine, after the same effect. -/
theorem Agrees.after {c : Cursor} {own all : (Engine × Effect) × Option WireError}
    (h : Agrees t c own all) (effect : Effect) :
    Agrees t c ((own.1.1, effect ++ own.1.2), own.2) ((all.1.1, effect ++ all.1.2), all.2) := by
  cases h with
  | running own_eq all_eq held sound =>
    rw [own_eq, all_eq]
    exact .running rfl rfl held sound
  | stopped own_eq all_eq =>
    rw [own_eq, all_eq]
    exact .stopped rfl rfl

theorem agrees_of_interspersed (now : Instant) {c c' : Cursor} {pieces : List Piece}
    (h : Interspersed t c pieces c') (held : e.buffer = c.held) (sound : c.Sound t.maxPayload) :
    Agrees t c' (e.absorb t c.target now (pieces.flatMap Piece.ownOctets))
      ((e.overhearing c.begun).absorb t c.target now (pieces.flatMap Piece.octets)) := by
  induction h generalizing e with
  | @nil c =>
    have hown : Remainder t.maxPayload (e.buffer ++ []) none := by
      rw [held, List.append_nil]
      exact sound.held
    have hall : Remainder t.maxPayload ((e.overhearing c.begun).buffer ++ []) none := by
      rw [List.append_nil, overhearing, held]
      exact sound.both
    rw [List.flatMap_nil, List.flatMap_nil, absorb_of_remainder hown, absorb_of_remainder hall,
      overhearing_nil, overhearing_nil]
    exact .running rfl rfl held sound
  | @own target held' octets rest pieces c' left others ih =>
    simp only [List.flatMap_cons, Piece.ownOctets, Piece.octets, overhearing_nil]
    rcases habsorb : e.absorb t target now octets with ⟨⟨e₁, effect⟩, error⟩
    obtain ⟨hbuffer, herror⟩ : e₁.buffer = (reassemble t.maxPayload (e.buffer ++ octets)).rest ∧
        error = (reassemble t.maxPayload (e.buffer ++ octets)).error := by
      simp only [absorb, Prod.mk.injEq] at habsorb
      obtain ⟨⟨rfl, -⟩, rfl⟩ := habsorb
      exact ⟨rfl, rfl⟩
    rw [held] at hbuffer herror
    cases error with
    | none =>
      have hmaximal := (decodes_reassemble t.maxPayload (held' ++ octets)).maximal
      rw [left, ← herror] at hmaximal
      have hlater := ih (hbuffer.trans left) (Cursor.sound_of_held hmaximal)
      rw [overhearing_nil] at hlater
      rw [absorb_append habsorb, absorb_append habsorb]
      exact hlater.after effect
    | some fault =>
      rw [absorb_append_of_error habsorb, absorb_append_of_error habsorb]
      exact .stopped rfl rfl
  | @started target begun octets pieces c' incomplete others ih =>
    simp only [List.flatMap_cons, Piece.ownOctets, Piece.octets, List.nil_append]
    have hall : Remainder t.maxPayload ((e.overhearing begun).buffer ++ octets) none := by
      rw [overhearing, held]
      exact incomplete
    rw [absorb_append (absorb_of_remainder hall), overhearing_append]
    exact ih held (Cursor.sound_of_begun incomplete)
  | @ended target begun octets pieces c' f complete fits foreign others ih =>
    simp only [List.flatMap_cons, Piece.ownOctets, Piece.octets, List.nil_append]
    have hlater := ih held (Cursor.sound_of_held (.short (Nat.zero_lt_succ _)))
    rw [overhearing_nil] at hlater
    rw [absorb_append (absorb_of_foreign held complete fits foreign)]
    exact hlater

theorem start_overhearing (id : CallId) (call : Call) (begun : Octets) (e : Engine) :
    (e.overhearing begun).start t target now id call =
      ((e.start t target now id call).1.overhearing begun,
        (e.start t target now id call).2) := by
  obtain ⟨buffer, activation, acks, receives, collections, inbox, pendingAt⟩ := e
  cases call with
  | activate type => cases activation <;> rfl
  | send receiver data timeout => rfl
  | receive timeout =>
    simp only [start, startReceive, overhearing]
    split <;> rfl
  | collect window =>
    simp only [start, startCollection, overhearing]
    split <;> rfl

end Engine

namespace Link

/-! ## Runs with inserted frames -/

/-- What happens in a run with inserted frames. -/
inductive Traffic where
  | event (event : Event)
  | read (pieces : List Piece)
deriving DecidableEq, Repr

namespace Traffic

def heard : Traffic → Event
  | event e => e
  | read pieces => .read (pieces.flatMap Piece.octets)

/-- Without the inserted octets; a read of nothing else does not take place. -/
def unheard? : Traffic → Option Event
  | event e => some e
  | read pieces =>
    let own := pieces.flatMap Piece.ownOctets
    if own = [] then none else some (.read own)

end Traffic

/-- The run with the inserted frames. -/
def heard (traffic : List (Instant × Traffic)) : List (Instant × Event) :=
  traffic.map fun x => (x.1, x.2.heard)

/-- The run without them. -/
def unheard (traffic : List (Instant × Traffic)) : List (Instant × Event) :=
  traffic.filterMap fun x => x.2.unheard?.map (x.1, ·)

def Event.targetAfter (target : Address) : Event → Address
  | .retarget target => target
  | _ => target

/-- A run takes the cursor on. Its reads of octets consist of pieces. -/
inductive Overheard (t : Tuning) : Cursor → List (Instant × Traffic) → Cursor → Prop where
  | nil {c : Cursor} : Overheard t c [] c
  | event {now : Instant} {event : Event} {traffic : List (Instant × Traffic)} {c c' : Cursor}
      (quiet : event.octets = [])
      (others : Overheard t { c with target := event.targetAfter c.target } traffic c') :
      Overheard t c ((now, .event event) :: traffic) c'
  | read {now : Instant} {pieces : List Piece} {traffic : List (Instant × Traffic)}
      {c c₁ c' : Cursor} (nonempty : pieces.flatMap Piece.octets ≠ [])
      (interspersed : Interspersed t c pieces c₁) (others : Overheard t c₁ traffic c') :
      Overheard t c ((now, .read pieces) :: traffic) c'

/-- The link, with these octets behind those in the buffer of its engine. -/
def overhearing (begun : Octets) (l : Link) : Link :=
  match l.phase with
  | .running e => { l with phase := .running (e.overhearing begun) }
  | .stopped _ => l

variable {now : Instant} {l : Link} {e : Engine} {cause : Stop} {t : Tuning} {c c' : Cursor}

theorem overhearing_of_running (h : l.phase = .running e) (begun : Octets) :
    l.overhearing begun = { l with phase := .running (e.overhearing begun) } := by
  simp only [overhearing, h]

theorem overhearing_of_stopped (h : l.phase = .stopped cause) (begun : Octets) :
    l.overhearing begun = l := by
  simp only [overhearing, h]

theorem overhearing_nil (l : Link) : l.overhearing [] = l := by
  cases hp : l.phase with
  | running e => rw [overhearing_of_running hp, Engine.overhearing_nil, ← hp]
  | stopped cause => exact overhearing_of_stopped hp []

/-- No event but a read looks at the buffer. -/
theorem step_overhearing (begun : Octets) {event : Event} (quiet : event.octets = []) :
    (l.overhearing begun).step now event =
      ((l.step now event).1.overhearing begun, (l.step now event).2) := by
  obtain ⟨tuning, target, queue, phase⟩ := l
  cases phase with
  | stopped cause => cases event <;> rfl
  | running e =>
    cases event with
    | take =>
      cases queue with
      | nil => rfl
      | cons command queue =>
        cases command with
        | shutdown => rfl
        | call id call =>
          simp only [overhearing, step, stepRunning, takeCommand, Engine.start_overhearing]
    | read octets =>
      cases quiet
      rfl
    | _ => rfl

/-- While it runs, the link without the inserted octets is where the cursor says. -/
structure Follows (t : Tuning) (c : Cursor) (l : Link) : Prop where
  tuning : l.tuning = t
  target : ∀ e, l.phase = .running e → l.target = c.target
  held : ∀ e, l.phase = .running e → e.buffer = c.held
  sound : ∀ e, l.phase = .running e → c.Sound t.maxPayload

theorem follows_of_stopped (tuning : l.tuning = t) (h : l.phase = .stopped cause) :
    Follows t c l := by
  have hnot : ∀ e, l.phase ≠ .running e := by simp [h]
  exact ⟨tuning, fun e he => absurd he (hnot e), fun e he => absurd he (hnot e),
    fun e he => absurd he (hnot e)⟩

theorem target_step (alive : l.phase = .running e) (now : Instant) {event : Event}
    (quiet : event.octets = []) :
    (l.step now event).1.target = event.targetAfter l.target := by
  cases event with
  | retarget target =>
    simp only [step, alive, stepRunning]
    rfl
  | read octets =>
    cases quiet
    have hacts : l.acts (.read []) = [.stop .endOfStream] := by
      simp only [acts, readActs, alive, if_true]
    rw [step_of_single hacts]
    exact (step_act now _ l).target (by simp)
  | _ =>
    rw [step_of_single rfl]
    exact (step_act now _ l).target (by simp)

theorem Follows.step_quiet (h : Follows t c l) (now : Instant) {event : Event}
    (quiet : event.octets = []) :
    Follows t { c with target := event.targetAfter c.target } (l.step now event).1 := by
  have htuning : (l.step now event).1.tuning = t := (tuning_step now event l).trans h.tuning
  cases hp : l.phase with
  | stopped cause =>
    have hsame : (l.step now event).1.phase = .stopped cause := by
      cases event <;> simp only [step, hp]
    exact follows_of_stopped htuning hsame
  | running e =>
    have hsound := h.sound e hp
    have hrest := hsound.held
    rw [← h.held e hp, ← h.tuning] at hrest
    refine ⟨htuning, fun e' he' => ?_, fun e' he' => ?_, fun e' he' => ⟨hsound.held, hsound.both⟩⟩
    · rw [target_step hp now quiet, h.target e hp]
    · have hread := reassemble_of_step_running hp hrest he'
      rw [quiet, List.append_nil, reassemble_of_remainder hrest] at hread
      exact (congrArg Reassembly.rest hread).symm.trans (h.held e hp)

/-- What becomes of a link after its engine has absorbed octets. -/
def absorbed (l : Link) : (Engine × Effect) × Option WireError → Link × Effect
  | ((e, effect), none) => ({ l with phase := .running e }, effect)
  | ((e, effect), some fault) =>
    ((l.stop (.parse fault.message) e).1, effect ++ (l.stop (.parse fault.message) e).2)

theorem step_read (alive : l.phase = .running e) (now : Instant) {octets : Octets}
    (hne : octets ≠ []) :
    l.step now (.read octets) = l.absorbed (e.absorb l.tuning l.target now octets) := by
  simp only [step, alive, stepRunning, readOctets, if_neg hne]
  split
  · rename_i heq
    rw [heq, absorbed]
  · rename_i heq
    rw [heq, absorbed]

theorem unheard_of_own {pieces : List Piece} (h : pieces.flatMap Piece.ownOctets ≠ [])
    (now : Instant) :
    unheard [(now, .read pieces)] = [(now, .read (pieces.flatMap Piece.ownOctets))] := by
  have hread : (Traffic.read pieces).unheard? = some (.read (pieces.flatMap Piece.ownOctets)) :=
    if_neg h
  simp only [unheard, List.filterMap_cons, List.filterMap_nil, hread, Option.map_some]

theorem unheard_of_inserted {pieces : List Piece} (h : pieces.flatMap Piece.ownOctets = [])
    (now : Instant) : unheard [(now, .read pieces)] = [] := by
  have hread : (Traffic.read pieces).unheard? = none := if_pos h
  simp only [unheard, List.filterMap_cons, List.filterMap_nil, hread, Option.map_none]

/-- If a read has no octets of the session's own, absorbing these does nothing either. -/
theorem run_unheard_read (alive : l.phase = .running e)
    (started : Remainder l.tuning.maxPayload e.buffer none) (now : Instant)
    (pieces : List Piece) :
    run (unheard [(now, .read pieces)]) l =
      l.absorbed (e.absorb l.tuning l.target now (pieces.flatMap Piece.ownOctets)) := by
  by_cases hown : pieces.flatMap Piece.ownOctets = []
  · have hnothing : Remainder l.tuning.maxPayload (e.buffer ++ []) none := by
      rwa [List.append_nil]
    rw [unheard_of_inserted hown, hown, Engine.absorb_of_remainder hnothing,
      Engine.overhearing_nil]
    simp only [run, absorbed, ← alive]
  · rw [unheard_of_own hown]
    simp only [run, Effect.append_none]
    exact step_read alive now hown

theorem Follows.step_read (h : Follows t c l) (now : Instant) {pieces : List Piece}
    (nonempty : pieces.flatMap Piece.octets ≠ []) (interspersed : Interspersed t c pieces c') :
    (l.overhearing c.begun).step now (.read (pieces.flatMap Piece.octets)) =
        ((run (unheard [(now, .read pieces)]) l).1.overhearing c'.begun,
          (run (unheard [(now, .read pieces)]) l).2) ∧
      Follows t c' (run (unheard [(now, .read pieces)]) l).1 := by
  cases hp : l.phase with
  | stopped cause =>
    have hrun : run (unheard [(now, .read pieces)]) l = (l, .none) := by
      by_cases hown : pieces.flatMap Piece.ownOctets = []
      · rw [unheard_of_inserted hown, run]
      · rw [unheard_of_own hown]
        simp only [run, step, hp, Effect.append_none]
    rw [hrun, overhearing_of_stopped hp, overhearing_of_stopped hp]
    exact ⟨by simp only [step, hp], follows_of_stopped h.tuning hp⟩
  | running e =>
    have hsound := h.sound e hp
    have hrest := hsound.held
    rw [← h.held e hp, ← h.tuning] at hrest
    have htarget := h.target e hp
    obtain rfl := h.tuning
    rw [run_unheard_read hp hrest now pieces, overhearing_of_running hp,
      Link.step_read rfl now nonempty]
    have hagrees := Engine.agrees_of_interspersed now interspersed (h.held e hp) hsound
    rw [← htarget] at hagrees
    cases hagrees with
    | running own_eq all_eq held sound =>
      simp only [own_eq, all_eq, absorbed]
      refine ⟨rfl, rfl, fun e' he' => ?_, fun e' he' => ?_, fun _ _ => sound⟩
      · exact htarget.trans (Interspersed.target interspersed).symm
      · cases he'
        exact held
    | stopped own_eq all_eq =>
      simp only [own_eq, all_eq, absorbed]
      exact ⟨rfl, follows_of_stopped rfl rfl⟩

theorem unheard_cons (x : Instant × Traffic) (traffic : List (Instant × Traffic)) :
    unheard (x :: traffic) = unheard [x] ++ unheard traffic := by
  rw [← List.singleton_append, unheard, List.filterMap_append]
  rfl

/-- The run with the inserted frames leaves the link as the run without them does, up to the
octets of a frame that is not complete. -/
theorem run_heard {traffic : List (Instant × Traffic)} (h : Overheard t c traffic c')
    (follows : Follows t c l) :
    run (heard traffic) (l.overhearing c.begun) =
      ((run (unheard traffic) l).1.overhearing c'.begun, (run (unheard traffic) l).2) := by
  induction h generalizing l with
  | nil => rfl
  | @event now event traffic c c' quiet others ih =>
    have hlater := ih (follows.step_quiet now quiet)
    change run ((now, event) :: heard traffic) _ =
      ((run ((now, event) :: unheard traffic) l).1.overhearing _,
        (run ((now, event) :: unheard traffic) l).2)
    simp only [run, step_overhearing _ quiet]
    rw [hlater]
  | @read now pieces traffic c c₁ c' nonempty interspersed others ih =>
    obtain ⟨hfirst, hfollows⟩ := follows.step_read now nonempty interspersed
    change run ((now, _) :: heard traffic) _ = _
    rw [unheard_cons, run_append]
    simp only [run, Traffic.heard, hfirst, ih hfollows]

theorem Overheard.split {earlier later : List (Instant × Traffic)}
    (h : Overheard t c (earlier ++ later) c') :
    ∃ c₁, Overheard t c earlier c₁ ∧ Overheard t c₁ later c' := by
  induction earlier generalizing c with
  | nil => exact ⟨c, .nil, h⟩
  | cons x earlier ih =>
    cases h with
    | event quiet others =>
      obtain ⟨c₁, hearlier, hlater⟩ := ih others
      exact ⟨c₁, .event quiet hearlier, hlater⟩
    | read nonempty interspersed others =>
      obtain ⟨c₁, hearlier, hlater⟩ := ih others
      exact ⟨c₁, .read nonempty interspersed hearlier, hlater⟩

theorem follows_opened (t : Tuning) (target : Address) :
    Follows t ⟨target, [], []⟩ (opened t target) := by
  refine ⟨rfl, fun e he => rfl, fun e he => ?_, fun e he => ?_⟩
  · cases he
    rfl
  · exact Cursor.sound_of_held (.short (Nat.zero_lt_succ _))

/-- Foreign frames that are inserted into the stream of a run show nowhere: the same calls have
had the same answers and the same octets have been written as without them, and the link is in
the same state, but for the first octets of a foreign frame that is not complete. This is so
after every event of the run, whose first events are such a run too. -/
theorem foreign_traffic_invisible (t : Tuning) (target : Address)
    (traffic : List (Instant × Traffic)) (c : Cursor)
    (inserted : Overheard t ⟨target, [], []⟩ traffic c) :
    run (heard traffic) (opened t target) =
      ((run (unheard traffic) (opened t target)).1.overhearing c.begun,
        (run (unheard traffic) (opened t target)).2) ∧
    (c.begun = [] →
      run (heard traffic) (opened t target) = run (unheard traffic) (opened t target)) ∧
    ∀ earlier, earlier <+: traffic →
      ∃ place, Overheard t ⟨target, [], []⟩ earlier place ∧
        run (heard earlier) (opened t target) =
          ((run (unheard earlier) (opened t target)).1.overhearing place.begun,
            (run (unheard earlier) (opened t target)).2) := by
  have hrun : ∀ {part : List (Instant × Traffic)} {place : Cursor},
      Overheard t ⟨target, [], []⟩ part place →
        run (heard part) (opened t target) =
          ((run (unheard part) (opened t target)).1.overhearing place.begun,
            (run (unheard part) (opened t target)).2) := by
    intro part place h
    have hpart := run_heard h (follows_opened t target)
    rwa [overhearing_nil] at hpart
  refine ⟨hrun inserted, fun hnone => ?_, ?_⟩
  · rw [hrun inserted, hnone, overhearing_nil]
  · rintro earlier ⟨later, rfl⟩
    obtain ⟨place, hearlier, -⟩ := inserted.split
    exact ⟨place, hearlier, hrun hearlier⟩

/-- A receive, and a read with a response pending of another ECU and the first half of the
response. With the other half an acknowledgement for another tester comes, which the next read
completes, and a payload of an unknown type. When the target has changed, its old response
pending is foreign too. -/
def crowdedTraffic : List (Instant × Traffic) :=
  [(0, .event (.request 1 (.receive (some (.ofMillis 100))))), (0, .event .take),
    (1, .read [.inserted [0x02, 0xFD, 0x80, 0x01, 0, 0, 0, 7, 0x07, 0x00, 0x0E, 0x00, 0x7F, 0x22,
      0x78], .own [0x02, 0xFD, 0x80, 0x01, 0, 0, 0]]),
    (2, .read [.own [5, 0x06, 0x80, 0x0E, 0x00, 0x50],
      .inserted [0x02, 0xFD, 0x80, 0x02, 0, 0, 0, 5, 0x06]]),
    (3, .event (.request 2 (.receive none))), (3, .event .take),
    (4, .read [.inserted [0x80, 0x0E, 0x01, 0x00], .inserted [0x02, 0xFD, 0x40, 0x00, 0, 0, 0, 0]]),
    (5, .event (.retarget 0x0700)),
    (6, .read [.inserted [0x02, 0xFD, 0x80, 0x01, 0, 0, 0, 7, 0x06, 0x80, 0x0E, 0x00, 0x7F, 0x22,
      0x78]])]

theorem crowdedTraffic_overheard :
    Overheard (.ofSettings 0x0E00 {}) ⟨0x0680, [], []⟩ crowdedTraffic ⟨0x0700, [], []⟩ := by
  have first : Interspersed (.ofSettings 0x0E00 {}) ⟨0x0680, [], []⟩
      [.inserted _, .own [0x02, 0xFD, 0x80, 0x01, 0, 0, 0]]
      ⟨0x0680, [0x02, 0xFD, 0x80, 0x01, 0, 0, 0], []⟩ :=
    .ended (f := ⟨⟨0x02, 0x8001, 7⟩, [0x07, 0x00, 0x0E, 0x00, 0x7F, 0x22, 0x78]⟩) rfl
      ⟨rfl, by decide⟩ (.pending (m := ⟨0x0700, 0x0E00, [0x7F, 0x22, 0x78]⟩) rfl rfl (by decide))
      (.own (by decide +kernel) .nil)
  have second : Interspersed (.ofSettings 0x0E00 {})
      ⟨0x0680, [0x02, 0xFD, 0x80, 0x01, 0, 0, 0], []⟩
      [.own [5, 0x06, 0x80, 0x0E, 0x00, 0x50], .inserted [0x02, 0xFD, 0x80, 0x02, 0, 0, 0, 5, 0x06]]
      ⟨0x0680, [], [0x02, 0xFD, 0x80, 0x02, 0, 0, 0, 5, 0x06]⟩ :=
    .own (by decide +kernel) (.started (remainder_of_incomplete (by decide +kernel)) .nil)
  have third : Interspersed (.ofSettings 0x0E00 {})
      ⟨0x0680, [], [0x02, 0xFD, 0x80, 0x02, 0, 0, 0, 5, 0x06]⟩
      [.inserted [0x80, 0x0E, 0x01, 0x00], .inserted _] ⟨0x0680, [], []⟩ :=
    .ended (f := ⟨⟨0x02, 0x8002, 5⟩, [0x06, 0x80, 0x0E, 0x01, 0x00]⟩) rfl ⟨rfl, by decide⟩
      (.positiveAck (a := ⟨0x0680, 0x0E01, 0x00, []⟩) rfl (by decide))
      (.ended (f := ⟨⟨0x02, 0x4000, 0⟩, []⟩) rfl ⟨rfl, by decide⟩ (.unknown (by decide)) .nil)
  have fourth : Interspersed (.ofSettings 0x0E00 {}) ⟨0x0700, [], []⟩ [.inserted _]
      ⟨0x0700, [], []⟩ :=
    .ended (f := ⟨⟨0x02, 0x8001, 7⟩, [0x06, 0x80, 0x0E, 0x00, 0x7F, 0x22, 0x78]⟩) rfl
      ⟨rfl, by decide⟩ (.pending (m := ⟨0x0680, 0x0E00, [0x7F, 0x22, 0x78]⟩) rfl rfl (by decide))
      .nil
  exact .event rfl (.event rfl (.read (by decide) first (.read (by decide) second
    (.event rfl (.event rfl (.read (by decide) third
      (.event rfl (.read (by decide) fourth .nil))))))))

/-- The response has been received, and nothing else has happened. -/
theorem crowdedTraffic_invisible :
    run (heard crowdedTraffic) (opened (.ofSettings 0x0E00 {}) 0x0680) =
      run (unheard crowdedTraffic) (opened (.ofSettings 0x0E00 {}) 0x0680) ∧
    (run (unheard crowdedTraffic) (opened (.ofSettings 0x0E00 {}) 0x0680)).2.replies =
      [⟨1, .frame [0x02, 0xFD, 0x80, 0x01, 0, 0, 0, 5, 0x06, 0x80, 0x0E, 0x00, 0x50]⟩] :=
  ⟨(foreign_traffic_invisible _ _ _ _ crowdedTraffic_overheard).2.1 rfl, by decide +kernel⟩

end Link
end Doip
