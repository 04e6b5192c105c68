import Doip.Proofs.Link.PendingChain

/-! # Which send an acknowledgement ends

Acknowledgements name no call: each ends the send that waits longest. A gateway that answers
every message once and in order (`Answering`) therefore answers each send with its own
acknowledgement, unless one comes whose send has timed out and finds a later send in its place.
`own_receipts_iff` says that nothing else can go wrong, and `lateRun_misattributed` that this
does. -/
namespace Doip

/-- How a frame acknowledges a message of this tester. -/
def Frame.ack? (t : Tuning) (f : Frame) : Option Answer :=
  match f.message with
  | .ok (.positiveAck a) => if a.target = t.source then some .acknowledged else none
  | .ok (.negativeAck a) =>
    if a.target = t.source then some (.failed (.negativeAck ⟨a.code⟩)) else none
  | _ => none

def Frame.isGenericNack (f : Frame) : Bool :=
  match f.message with
  | .ok (.genericNack _) => true
  | _ => false

/-- The answers that acknowledgements give. -/
def Answer.isAck : Answer → Bool
  | .acknowledged | .failed (.negativeAck _) => true
  | _ => false

theorem Frame.ack?_eq_some {t : Tuning} {f : Frame} {answer : Answer} :
    f.ack? t = some answer ↔ ∃ m, f.message = .ok m ∧ Engine.Settles t m answer := by
  unfold Frame.ack?
  constructor
  · intro h
    split at h
    · rename_i a hm
      split at h
      · rename_i ht
        cases h
        exact ⟨_, hm, .positive ht⟩
      · cases h
    · rename_i a hm
      split at h
      · rename_i ht
        cases h
        exact ⟨_, hm, .negative ht⟩
      · cases h
    · cases h
  · rintro ⟨m, hm, hs⟩
    cases hs with
    | positive ht => simp only [hm, if_pos ht]
    | negative ht => simp only [hm, if_pos ht]

theorem Frame.isAck_of_ack? {t : Tuning} {f : Frame} {answer : Answer}
    (h : f.ack? t = some answer) : answer.isAck = true := by
  obtain ⟨m, -, hs⟩ := Frame.ack?_eq_some.mp h
  cases hs <;> rfl

namespace Engine

variable {t : Tuning} {target : Address} {now : Instant} {e e' : Engine} {input : Input}
  {effect : Effect}

/-- An acknowledgement ends the send that waits longest, if one does. -/
theorem dispatch_of_ack? {f : Frame} {answer : Answer} (h : f.ack? t = some answer) :
    e.dispatch t target now f = e.settleAck answer := by
  obtain ⟨m, hm, hs⟩ := Frame.ack?_eq_some.mp h
  cases hs with
  | positive ht | negative ht => simp [dispatch, hm, onAck, ht]

theorem isAck_activationAnswer (r : ActivationResponse) :
    (activationAnswer t r).isAck = false := by
  unfold activationAnswer
  split
  · rfl
  · split <;> rfl

theorem isAck_expire (now : Instant) (e : Engine) :
    ∀ r ∈ (e.expire now).2.replies, r.answer.isAck = false := by
  intro r hr
  obtain ⟨call, rfl⟩ | ⟨c, -, rfl⟩ := expired_cases hr <;> rfl

/-- No other frame gives such an answer. -/
theorem Turn.isAck_eq_false (h : Turn t target now e input e' effect)
    (hack : ∀ f, input = .dispatch f → f.ack? t = none) :
    ∀ r ∈ effect.replies, r.answer.isAck = false := by
  intro r hr
  cases h with
  | @sendSettled f m answer wait acks message settles waits =>
    have hnone := hack f rfl
    rw [Frame.ack?_eq_some.mpr ⟨m, message, settles⟩] at hnone
    cases hnone
  | activationAnswered =>
    rw [List.mem_singleton.mp hr]
    exact isAck_activationAnswer _
  | @receiveFailed f fault =>
    rw [List.mem_singleton.mp hr]
    rfl
  | expired => exact isAck_expire now e r hr
  | activationStarted | sent | waited | collectionOpened | skipped | aliveAnswered | extended
  | remembered | gathered | kept | refilled => cases hr
  | _ =>
    rw [List.mem_singleton.mp hr]
    rfl

theorem mem_waits_expire {id : CallId} (now : Instant) (h : id ∈ e.waits .send) :
    id ∈ (e.expire now).1.waits .send ∨ timedOut id ∈ (e.expire now).2.replies := by
  obtain ⟨w, hw, rfl⟩ := List.mem_map.mp h
  by_cases hd : isDue now w.deadline = true
  · refine .inr ?_
    have hdue : w ∈ e.acks.filter fun w => isDue now w.deadline := List.mem_filter.mpr ⟨hw, hd⟩
    simp only [expire, List.mem_append, List.mem_map]
    exact .inl (.inl (.inr ⟨w, hdue, rfl⟩))
  · refine .inl (List.mem_map.mpr ⟨w, List.mem_filter.mpr ⟨hw, ?_⟩, rfl⟩)
    simpa using hd

/-- A send waits for its acknowledgement or its deadline. -/
theorem Turn.send_waits (h : Turn t target now e input e' effect)
    (hack : ∀ f, input = .dispatch f → f.ack? t = none ∧ f.isGenericNack = false) :
    ∀ id ∈ e.waits .send ++ input.callsOf .send,
      id ∈ e'.waits .send ∨ timedOut id ∈ effect.replies := by
  intro id hid
  cases h with
  | sent => exact .inl (by simpa [waits, Input.callsOf, Input.calls, Call.kind] using hid)
  | @sendSettled f m answer wait acks message settles waits =>
    have hnone := (hack f rfl).1
    rw [Frame.ack?_eq_some.mpr ⟨m, message, settles⟩] at hnone
    cases hnone
  | @sendNacked f code wait acks message free waits =>
    have hnack := (hack f rfl).2
    simp [Frame.isGenericNack, message] at hnack
  | expired =>
    have hwaits : id ∈ e.waits .send := by simpa [Input.callsOf, Input.calls] using hid
    exact mem_waits_expire now hwaits
  | kept =>
    have hwaits : id ∈ e.waits .send := by simpa [Input.callsOf, Input.calls] using hid
    exact .inl hwaits
  | _ => exact .inl (by simpa [waits, Input.callsOf, Input.calls, Call.kind] using hid)

end Engine

namespace Link

/-- An acknowledgement from the gateway and the send that it ended, if one waited. -/
structure Receipt where
  answer : Answer
  call : Option CallId
deriving DecidableEq, Repr

/-- The acknowledgement that the engine handles at an act. -/
def receiving (l : Link) (_ : Instant) (a : Act) : List Receipt :=
  match l.phase, a with
  | .running e, .dispatch f =>
    (f.ack? l.tuning).toList.map fun answer => ⟨answer, e.acks.head?.map (·.call)⟩
  | _, _ => []

/-- The gateway's acknowledgements, in their order. -/
def receipts (past : List (Instant × Act)) (start : Link) : List Receipt := log receiving past start

/-! ## One act -/

variable {now : Instant} {l l' : Link} {a : Act} {effect : Effect}

/-- The act is the arrival of an acknowledgement, or it is none. -/
theorem receiving_cases (l : Link) (now : Instant) (a : Act) :
    (∃ e f answer, l.phase = .running e ∧ a = .dispatch f ∧ f.ack? l.tuning = some answer ∧
      receiving l now a = [⟨answer, e.acks.head?.map (·.call)⟩]) ∨
    receiving l now a = [] ∧ ∀ e f, l.phase = .running e → a = .dispatch f →
      f.ack? l.tuning = none := by
  cases hp : l.phase with
  | stopped cause => exact .inr ⟨by simp [receiving, hp], fun e f he => by cases he⟩
  | running e =>
    cases a with
    | dispatch f =>
      cases hf : f.ack? l.tuning with
      | some answer => exact .inl ⟨e, f, answer, rfl, rfl, hf, by simp [receiving, hp, hf]⟩
      | none =>
        refine .inr ⟨by simp [receiving, hp, hf], ?_⟩
        intro e' f' he hd
        cases hd
        exact hf
    | _ => exact .inr ⟨by simp [receiving, hp], fun e' f' he hd => by cases hd⟩

theorem act_of_ack {e : Engine} {f : Frame} {answer : Answer} (alive : l.phase = .running e)
    (h : f.ack? l.tuning = some answer) (now : Instant) :
    l.act now (.dispatch f) =
      ({ l with phase := .running (e.settleAck answer).1 }, (e.settleAck answer).2) := by
  simp only [act, alive, actRunning, work, Engine.handle, Engine.dispatch_of_ack? h]

theorem isAck_stop (cause : Stop) (e : Engine) (queue : List Command) :
    ∀ r ∈ e.failAll cause.failure ++ failQueued cause.failure queue, r.answer.isAck = false := by
  intro r hr
  rw [answer_of_stop hr]
  cases cause <;> rfl

theorem taking_of_worked {input : Engine.Input} (h : a.input? = some input) :
    taking l now a = [] := by
  cases a with
  | take => cases h
  | _ => simp [taking]

theorem dispatch_of_input? {a : Act} {f : Frame} (h : a.input? = some (.dispatch f)) :
    a = .dispatch f := by
  cases a <;> cases h
  rfl

theorem Step.isAck_eq_false (h : Step now l a l' effect)
    (hnone : ∀ e f, l.phase = .running e → a = .dispatch f → f.ack? l.tuning = none) :
    ∀ r ∈ effect.replies, r.answer.isAck = false := by
  intro r hr
  cases h with
  | taken alive head turn =>
    exact turn.isAck_eq_false (fun f hf => by cases hf) r hr
  | worked alive input_eq turn =>
    refine turn.isAck_eq_false (fun f hf => ?_) r hr
    exact hnone _ f alive (dispatch_of_input? (hf ▸ input_eq))
  | stopped | shutDown => exact isAck_stop _ _ _ r hr
  | refused =>
    rw [List.mem_singleton.mp hr]
    rfl
  | _ => cases hr

theorem Step.send_waits (h : Step now l a l' effect)
    (hnone : ∀ e f, l.phase = .running e → a = .dispatch f →
      f.ack? l.tuning = none ∧ f.isGenericNack = false)
    (alive' : l'.isAlive = true) :
    ∀ id ∈ l.engine.waits .send ++ ((taking l now a).filter (·.2.kind = .send)).map (·.1),
      id ∈ l'.engine.waits .send ∨ Engine.timedOut id ∈ effect.replies := by
  intro id hid
  cases h with
  | taken alive head turn =>
    refine turn.send_waits (fun f hf => by cases hf) id ?_
    simpa [taking, alive, head, engine, Engine.Input.callsOf, Engine.Input.calls] using hid
  | worked alive input_eq turn =>
    refine turn.send_waits
      (fun f hf => hnone _ f alive (dispatch_of_input? (hf ▸ input_eq))) id ?_
    rw [taking_of_worked input_eq, List.filter_nil, List.map_nil, List.append_nil,
      engine_of_running alive] at hid
    exact List.mem_append_left _ hid
  | stopped | shutDown => cases alive'
  | requested alive | shutdownRequested alive | retargeted alive =>
    exact .inl (by simpa [taking, alive, engine] using hid)
  | idle alive empty => exact .inl (by simpa [taking, alive, empty] using hid)
  | refused dead | ended dead => simp [isAlive, dead] at alive'

/-! ## A run -/

theorem receipts_concat (past : List (Instant × Act)) (now : Instant) (a : Act) (start : Link) :
    receipts (past ++ [(now, a)]) start =
      receipts past start ++ receiving (actAll past start).1 now a :=
  log_concat _ _ _ _ _

theorem takenOf_concat (kind : CallKind) (past : List (Instant × Act)) (now : Instant) (a : Act)
    (start : Link) :
    takenOf kind (past ++ [(now, a)]) start = takenOf kind past start ++
      ((taking (actAll past start).1 now a).filter (·.2.kind = kind)).map (·.1) := by
  simp only [takenOf, taken, log_concat, List.filter_append, List.map_append]

theorem mem_receiving (l : Link) (now : Instant) (a : Act) (id : CallId) (answer : Answer) :
    ⟨answer, some id⟩ ∈ receiving l now a ↔
      answer.isAck = true ∧ ⟨id, answer⟩ ∈ (l.act now a).2.replies := by
  rcases receiving_cases l now a with ⟨e, f, given, alive, rfl, hf, hreceived⟩ | ⟨hnothing, hnone⟩
  · rw [hreceived, act_of_ack alive hf]
    have hack := Frame.isAck_of_ack? hf
    cases hacks : e.acks with
    | nil => simp [Engine.settleAck, hacks]
    | cons w acks =>
      simp only [Engine.settleAck, hacks, Effect.reply, List.head?_cons, Option.map_some,
        List.mem_singleton, Receipt.mk.injEq, Reply.mk.injEq, Option.some.injEq]
      constructor
      · rintro ⟨rfl, rfl⟩
        exact ⟨hack, rfl, rfl⟩
      · rintro ⟨-, rfl, rfl⟩
        exact ⟨rfl, rfl⟩
  · rw [hnothing]
    constructor
    · intro hmem
      cases hmem
    · rintro ⟨hack, hmem⟩
      rw [(step_act now a l).isAck_eq_false hnone _ hmem] at hack
      cases hack

/-- The sends that are answered with an acknowledgement are those that one has ended. -/
theorem mem_receipts (past : List (Instant × Act)) (start : Link) (id : CallId) (answer : Answer) :
    ⟨answer, some id⟩ ∈ receipts past start ↔
      answer.isAck = true ∧ ⟨id, answer⟩ ∈ (actAll past start).2.replies := by
  induction past using List.reverseRecOn with
  | nil => simp [receipts, log, actAll]
  | append_singleton past x ih =>
    obtain ⟨now, a⟩ := x
    rw [receipts_concat, actAll_concat, Effect.replies_append, List.mem_append, List.mem_append,
      ih, mem_receiving, and_or_left]

/-- No send is ended by two acknowledgements. -/
theorem receipts_sublist (past : List (Instant × Act)) (start : Link) :
    ((receipts past start).filterMap (·.call)).Sublist (actAll past start).2.answered := by
  induction past using List.reverseRecOn with
  | nil => exact List.Sublist.refl _
  | append_singleton past x ih =>
    obtain ⟨now, a⟩ := x
    rw [receipts_concat, List.filterMap_append, actAll_concat, Effect.answered_append]
    refine ih.append ?_
    rcases receiving_cases (actAll past start).1 now a with
      ⟨e, f, answer, alive, rfl, hf, hreceived⟩ | ⟨hnothing, -⟩
    · rw [hreceived, act_of_ack alive hf]
      cases hacks : e.acks with
      | nil => simp
      | cons w acks => simp [Engine.settleAck, hacks]
    · rw [hnothing]
      exact List.nil_sublist _

theorem nodup_takenOf {t : Tuning} {target : Address} {past : List (Instant × Act)}
    (distinct : (issued past).Nodup) (kind : CallKind) :
    (takenOf kind past (opened t target)).Nodup := by
  have hboth := nodup_taken_queued (rfl : actAll past (opened t target) = _) distinct
  exact (List.filter_sublist.map _).nodup (List.nodup_append.mp hboth).1

/-! ## The gateway and its acknowledgements -/

/-- The gateway acknowledges each message of the session at most once, in their order and not
before it has come, and refuses none as such. -/
def Answering (start : Link) : List (Instant × Act) → Prop :=
  AtEach fun before _ a => ∀ f ∈ a.frame?, f.isGenericNack = false ∧
    ((f.ack? start.tuning).isSome = true →
      (receipts before start).length < (takenOf .send before start).length)

/-- When an acknowledgement comes whose own send has timed out, no other send waits. -/
def Undisturbed (start : Link) : List (Instant × Act) → Prop :=
  AtEach fun before _ a => ∀ f ∈ a.frame?, (f.ack? start.tuning).isSome = true →
    ∀ id ∈ (takenOf .send before start)[(receipts before start).length]?,
      Engine.timedOut id ∈ (actAll before start).2.replies →
        (actAll before start).1.engine.acks = []

instance (start : Link) (past : List (Instant × Act)) : Decidable (Answering start past) := by
  unfold Answering
  infer_instance

instance (start : Link) (past : List (Instant × Act)) : Decidable (Undisturbed start past) := by
  unfold Undisturbed
  infer_instance

theorem taking_of_dispatch (l : Link) (now : Instant) (f : Frame) :
    taking l now (.dispatch f) = [] := by
  simp [taking]

/-- A send waits on, times out, or is ended by the acknowledgement that comes. -/
theorem send_moves (now : Instant) (hnack : ∀ f ∈ a.frame?, f.isGenericNack = false)
    (alive : (l.act now a).1.isAlive = true) :
    ∀ id ∈ l.engine.waits .send ++ ((taking l now a).filter (·.2.kind = .send)).map (·.1),
      id ∈ (l.act now a).1.engine.waits .send ∨ Engine.timedOut id ∈ (l.act now a).2.replies ∨
        ∃ answer, ⟨answer, some id⟩ ∈ receiving l now a := by
  intro id hid
  rcases receiving_cases l now a with ⟨e, f, answer, running, rfl, hf, hreceived⟩ | ⟨-, hnone⟩
  · rw [act_of_ack running hf, hreceived]
    rw [taking_of_dispatch, List.filter_nil, List.map_nil, List.append_nil,
      engine_of_running running] at hid
    cases hacks : e.acks with
    | nil => simp [Engine.waits, hacks] at hid
    | cons w acks =>
      simp only [Engine.waits, hacks, List.map_cons, List.mem_cons] at hid
      rcases hid with rfl | hid
      · exact .inr (.inr ⟨answer, by simp⟩)
      · exact .inl (by simpa [Engine.settleAck, hacks, engine, Engine.waits] using hid)
  · have hstep := step_act now a l
    rcases hstep.send_waits (fun e f he hd => ⟨hnone e f he hd, hnack f (by simp [hd, Act.frame?])⟩)
      alive id hid with hwaits | htimed
    · exact .inl hwaits
    · exact .inr (.inl htimed)

/-- A send that has been taken waits, has timed out, or has been ended by an acknowledgement. -/
theorem send_accounted (past : List (Instant × Act)) (start : Link)
    (answering : Answering start past) (alive : (actAll past start).1.isAlive = true) :
    ∀ id ∈ takenOf .send past start,
      id ∈ (actAll past start).1.engine.waits .send ∨
        Engine.timedOut id ∈ (actAll past start).2.replies ∨
        ∃ answer, ⟨answer, some id⟩ ∈ receipts past start := by
  induction past using List.reverseRecOn with
  | nil =>
    intro id hid
    cases hid
  | append_singleton past x ih =>
    obtain ⟨now, a⟩ := x
    obtain ⟨hpast, hlast⟩ := atEach_concat.mp answering
    rw [actAll_concat] at alive ⊢
    rw [takenOf_concat, receipts_concat]
    have hmoves := send_moves now (fun f hf => (hlast f hf).1) alive
    intro id hid
    have hcases : id ∈ (actAll past start).1.engine.waits .send ++
        ((taking (actAll past start).1 now a).filter (·.2.kind = .send)).map (·.1) ∨
        Engine.timedOut id ∈ (actAll past start).2.replies ∨
          ∃ answer, ⟨answer, some id⟩ ∈ receipts past start := by
      rcases List.mem_append.mp hid with hold | hnew
      · rcases ih hpast ((step_act now a _).wasAlive alive) id hold with hwaits | hended
        · exact .inl (List.mem_append_left _ hwaits)
        · exact .inr hended
      · exact .inl (List.mem_append_right _ hnew)
    rcases hcases with hwaits | htimed | ⟨answer, hmem⟩
    · rcases hmoves id hwaits with hstill | htimed | ⟨answer, hmem⟩
      · exact .inl hstill
      · exact .inr (.inl (List.mem_append_right _ htimed))
      · exact .inr (.inr ⟨answer, List.mem_append_right _ hmem⟩)
    · exact .inr (.inl (List.mem_append_left _ htimed))
    · exact .inr (.inr ⟨answer, List.mem_append_left _ hmem⟩)

theorem length_receipts_le (past : List (Instant × Act)) (start : Link)
    (answering : Answering start past) :
    (receipts past start).length ≤ (takenOf .send past start).length := by
  induction past using List.reverseRecOn with
  | nil => exact Nat.le_refl _
  | append_singleton past x ih =>
    obtain ⟨now, a⟩ := x
    obtain ⟨hpast, hlast⟩ := atEach_concat.mp answering
    have hle := ih hpast
    rw [receipts_concat, takenOf_concat, List.length_append, List.length_append]
    rcases receiving_cases (actAll past start).1 now a with
      ⟨e, f, answer, -, rfl, hf, hreceived⟩ | ⟨hnothing, -⟩
    · rw [tuning_actAll] at hf
      have hlt := (hlast f rfl).2 (by rw [hf]; rfl)
      rw [hreceived, List.length_singleton]
      omega
    · rw [hnothing, List.length_nil]
      omega

/-- Each acknowledgement so far has ended its own send, and the sends that wait are among those
that have no acknowledgement yet. -/
structure InStep (past : List (Instant × Act)) (start : Link) : Prop where
  own : ∀ (i : Nat) (answer : Answer) (id : CallId),
    (receipts past start)[i]? = some ⟨answer, some id⟩ → (takenOf .send past start)[i]? = some id
  behind : ((actAll past start).1.engine.waits .send).Sublist
    ((takenOf .send past start).drop (receipts past start).length)

section
variable {t : Tuning} {target : Address} {past : List (Instant × Act)}

/-- The next acknowledgement is for the send that waits longest, unless it is for one that has
timed out. -/
theorem InStep.next (h : InStep past (opened t target)) (distinct : (issued past).Nodup)
    (answering : Answering (opened t target) past)
    (alive : (actAll past (opened t target)).1.isAlive = true) {id own : CallId}
    {others : List CallId}
    (waits : (actAll past (opened t target)).1.engine.waits .send = id :: others)
    (hown : (takenOf .send past (opened t target))[(receipts past (opened t target)).length]? =
      some own) :
    id = own ∧ others.Sublist ((takenOf .send past (opened t target)).drop
        ((receipts past (opened t target)).length + 1)) ∨
      Engine.timedOut own ∈ (actAll past (opened t target)).2.replies := by
  have hnodup : (takenOf .send past (opened t target)).Nodup := nodup_takenOf distinct .send
  obtain ⟨hlt, hget⟩ := List.getElem?_eq_some_iff.mp hown
  have hbehind := h.behind
  rw [waits, List.drop_eq_getElem_cons hlt, hget] at hbehind
  cases hbehind with
  | cons_cons _ hrest => exact .inl ⟨rfl, hrest⟩
  | cons _ hrest =>
    refine .inr ?_
    -- the send that the acknowledgement is for does not wait any more
    have hgone : own ∉ (actAll past (opened t target)).1.engine.waits .send := by
      have hdrop := (List.drop_sublist (receipts past (opened t target)).length _).nodup hnodup
      rw [List.drop_eq_getElem_cons hlt, hget] at hdrop
      rw [waits]
      exact fun hmem => (List.nodup_cons.mp hdrop).1 (hrest.subset hmem)
    have hmem : own ∈ takenOf .send past (opened t target) := List.mem_of_getElem? hown
    rcases send_accounted past (opened t target) answering alive own hmem with
      hwaits | htimed | ⟨answer, hreceipt⟩
    · exact absurd hwaits hgone
    · exact htimed
    · obtain ⟨i, hi⟩ := List.mem_iff_getElem?.mp hreceipt
      have hsame := h.own i answer own hi
      have hle := (List.getElem?_eq_some_iff.mp hi).1
      have heq := (List.getElem?_inj hlt hnodup).mp (hown.trans hsame.symm)
      omega

theorem getElem?_concat_cases {α : Type} {l : List α} {x y : α} {i : Nat}
    (h : (l ++ [x])[i]? = some y) : l[i]? = some y ∨ i = l.length ∧ x = y := by
  rw [List.getElem?_append] at h
  split at h
  · exact .inl h
  · obtain ⟨hi, hx⟩ := List.getElem?_eq_some_iff.mp h
    rw [List.length_singleton] at hi
    exact .inr ⟨by omega, by simpa using hx⟩

/-- An acknowledgement that comes ends its own send, or none. -/
theorem InStep.acknowledged (h : InStep past (opened t target)) (distinct : (issued past).Nodup)
    {now : Instant} {f : Frame} {e : Engine} {answer : Answer}
    (answering : Answering (opened t target) (past ++ [(now, .dispatch f)]))
    (undisturbed : Undisturbed (opened t target) (past ++ [(now, .dispatch f)]))
    (running : (actAll past (opened t target)).1.phase = .running e)
    (hf : f.ack? (actAll past (opened t target)).1.tuning = some answer)
    (hreceived : receiving (actAll past (opened t target)).1 now (.dispatch f) =
      [⟨answer, e.acks.head?.map (·.call)⟩]) :
    InStep (past ++ [(now, .dispatch f)]) (opened t target) := by
  obtain ⟨hpast, hlast⟩ := atEach_concat.mp answering
  have hlate := (atEach_concat.mp undisturbed).2 f rfl
  have hsends : takenOf .send (past ++ [(now, .dispatch f)]) (opened t target) =
      takenOf .send past (opened t target) := by
    rw [takenOf_concat, taking_of_dispatch, List.filter_nil, List.map_nil, List.append_nil]
  have hisSome : (f.ack? (opened t target).tuning).isSome = true := by
    rw [tuning_actAll] at hf
    rw [hf]
    rfl
  obtain ⟨own, hown⟩ : ∃ own, (takenOf .send past (opened t target))[
      (receipts past (opened t target)).length]? = some own :=
    ⟨_, List.getElem?_eq_getElem ((hlast f rfl).2 hisSome)⟩
  have hwaits : ∀ id others, e.waits .send = id :: others → id = own ∧
      others.Sublist ((takenOf .send past (opened t target)).drop
        ((receipts past (opened t target)).length + 1)) := by
    intro id others hw
    have halive : (actAll past (opened t target)).1.isAlive = true := by simp [isAlive, running]
    rcases h.next distinct hpast halive (by rw [engine_of_running running, hw]) hown with
      hnext | htimed
    · exact hnext
    · have hempty := hlate hisSome own hown htimed
      rw [engine_of_running running] at hempty
      simp [Engine.waits, hempty] at hw
  refine ⟨?_, ?_⟩
  · intro i given id hi
    rw [hsends]
    rw [receipts_concat, hreceived] at hi
    rcases getElem?_concat_cases hi with hold | ⟨rfl, hnew⟩
    · exact h.own i given id hold
    · cases hacks : e.acks with
      | nil => simp [hacks] at hnew
      | cons w acks =>
        have hid : w.call = id := by simpa [hacks] using congrArg Receipt.call hnew
        rw [hown, ← hid, (hwaits w.call (acks.map (·.call)) (by simp [Engine.waits, hacks])).1]
  · rw [hsends, receipts_concat, hreceived, List.length_append, List.length_singleton,
      actAll_concat, act_of_ack running hf]
    cases hacks : e.acks with
    | nil => simp [Engine.settleAck, hacks, engine, Engine.waits]
    | cons w acks =>
      have := (hwaits w.call (acks.map (·.call)) (by simp [Engine.waits, hacks])).2
      simpa [Engine.settleAck, hacks, engine, Engine.waits] using this

theorem InStep.concat (h : InStep past (opened t target)) (distinct : (issued past).Nodup)
    {now : Instant} {a : Act} (answering : Answering (opened t target) (past ++ [(now, a)]))
    (undisturbed : Undisturbed (opened t target) (past ++ [(now, a)])) :
    InStep (past ++ [(now, a)]) (opened t target) := by
  rcases receiving_cases (actAll past (opened t target)).1 now a with
    ⟨e, f, answer, running, rfl, hf, hreceived⟩ | ⟨hnothing, -⟩
  · exact h.acknowledged distinct answering undisturbed running hf hreceived
  · have hle := length_receipts_le past (opened t target) (atEach_concat.mp answering).1
    have hreceipts : receipts (past ++ [(now, a)]) (opened t target) =
        receipts past (opened t target) := by
      rw [receipts_concat, hnothing, List.append_nil]
    refine ⟨?_, ?_⟩
    · intro i given id hi
      rw [hreceipts] at hi
      have hsend := h.own i given id hi
      rw [takenOf_concat, List.getElem?_append_left (List.getElem?_eq_some_iff.mp hsend).1, hsend]
    · rw [hreceipts, takenOf_concat, List.drop_append_of_le_length hle, actAll_concat]
      exact ((step_act now a _).waits_sublist .send).trans (h.behind.append (List.Sublist.refl _))

theorem inStep_of_undisturbed (distinct : (issued past).Nodup)
    (answering : Answering (opened t target) past)
    (undisturbed : Undisturbed (opened t target) past) :
    InStep past (opened t target) := by
  induction past using List.reverseRecOn with
  | nil => exact ⟨fun i answer id hi => by simp [receipts, log] at hi, List.Sublist.refl _⟩
  | append_singleton past x ih =>
    obtain ⟨now, a⟩ := x
    have hdistinct := distinct_of_prefix (List.prefix_append _ _) distinct
    have hpast := ih hdistinct (atEach_concat.mp answering).1 (atEach_concat.mp undisturbed).1
    exact hpast.concat hdistinct answering undisturbed

/-- An acknowledgement that finds a later send in the place of its own ends that one. -/
theorem undisturbed_of_own (distinct : (issued past).Nodup)
    (answering : Answering (opened t target) past)
    (own : ∀ (i : Nat) (answer : Answer) (id : CallId),
      (receipts past (opened t target))[i]? = some ⟨answer, some id⟩ →
        (takenOf .send past (opened t target))[i]? = some id) :
    Undisturbed (opened t target) past := by
  induction past using List.reverseRecOn with
  | nil => exact fun i hi => absurd hi (Nat.not_lt_zero i)
  | append_singleton past x ih =>
    obtain ⟨now, a⟩ := x
    obtain ⟨hpast, hlast⟩ := atEach_concat.mp answering
    have hdistinct := distinct_of_prefix (List.prefix_append _ _) distinct
    have hle := length_receipts_le past (opened t target) hpast
    refine atEach_concat.mpr ⟨ih hdistinct hpast ?_, ?_⟩
    · intro i answer id hi
      have hlt := (List.getElem?_eq_some_iff.mp hi).1
      have hlong := own i answer id (by rw [receipts_concat, List.getElem?_append_left hlt, hi])
      rwa [takenOf_concat, List.getElem?_append_left (by omega)] at hlong
    · intro f hframe hisSome id hid htimed
      obtain rfl : a = .dispatch f := by
        cases a <;> cases hframe
        rfl
      rcases receiving_cases (actAll past (opened t target)).1 now (.dispatch f) with
        ⟨e, f', answer, running, hd, -, hreceived⟩ | ⟨-, hnone⟩
      · cases hd
        rw [engine_of_running running]
        by_contra hne
        obtain ⟨w, acks, hacks⟩ := List.exists_cons_of_ne_nil hne
        have hthis := own (receipts past (opened t target)).length answer w.call (by
          rw [receipts_concat, hreceived, hacks]
          simp)
        rw [takenOf_concat, taking_of_dispatch, List.filter_nil, List.map_nil, List.append_nil,
          Option.mem_def.mp hid] at hthis
        cases hthis
        refine not_answered_of_waiting rfl hdistinct ?_ (List.mem_map.mpr ⟨_, htimed, rfl⟩)
        rw [engine_of_running running]
        exact Engine.mem_waiting.mpr ⟨.send, by simp [Engine.waits, hacks, Engine.timedOut]⟩
      · cases hp : (actAll past (opened t target)).1.phase with
        | running e =>
          have := hnone e f hp rfl
          rw [tuning_actAll] at this
          rw [this] at hisSome
          cases hisSome
        | stopped cause =>
          rw [engine_of_stopped hp]
          rfl

theorem receipts_unique (distinct : (issued past).Nodup) {i j : Nat} {answer answer' : Answer}
    {id : CallId} (hi : (receipts past (opened t target))[i]? = some ⟨answer, some id⟩)
    (hj : (receipts past (opened t target))[j]? = some ⟨answer', some id⟩) : i = j := by
  have hsettled : Settled past (opened t target) _ _ := settled_of_nodup rfl distinct
  have hnodup := (receipts_sublist past (opened t target)).nodup hsettled.once
  rw [List.Nodup, List.pairwise_filterMap, List.pairwise_iff_getElem] at hnodup
  obtain ⟨hi', hget⟩ := List.getElem?_eq_some_iff.mp hi
  obtain ⟨hj', hget'⟩ := List.getElem?_eq_some_iff.mp hj
  rcases Nat.lt_trichotomy i j with hlt | heq | hgt
  · exact absurd rfl (hnodup i j hi' hj' hlt id (by rw [hget]) id (by rw [hget']))
  · exact heq
  · exact absurd rfl (hnodup j i hj' hi' hgt id (by rw [hget']) id (by rw [hget]))

end

/-- A send that an acknowledgement answers is answered by the one that the gateway has given for
its own message: the n-th send by the n-th acknowledgement. -/
def OwnReceipts (past : List (Instant × Act)) (start : Link) (effect : Effect) : Prop :=
  ∀ (id : CallId) (answer : Answer), ⟨id, answer⟩ ∈ effect.replies → answer.isAck = true →
    ∃ n : Nat, (takenOf .send past start)[n]? = some id ∧
      (receipts past start)[n]? = some ⟨answer, some id⟩

/-- Where the gateway acknowledges each message once and in order, sends are answered by their own
acknowledgements as long as none comes for a send that has timed out while a later one waits,
and no longer. -/
theorem own_receipts_iff (t : Tuning) (target : Address) (events : List (Instant × Event))
    (distinct : (requested events).Nodup) (past : List (Instant × Act)) (l : Link) (effect : Effect)
    (point : Point events (opened t target) past l effect)
    (answering : Answering (opened t target) past) :
    OwnReceipts past (opened t target) effect ↔ Undisturbed (opened t target) past := by
  have hdistinct := point.distinct distinct
  have hreplies : effect.replies = (actAll past (opened t target)).2.replies := by
    rw [point.reached]
  unfold OwnReceipts
  rw [hreplies]
  constructor
  · intro hall
    refine undisturbed_of_own hdistinct answering fun i answer id hi => ?_
    obtain ⟨hack, hreply⟩ := (mem_receipts past _ id answer).mp (List.mem_of_getElem? hi)
    obtain ⟨n, hsend, hn⟩ := hall id answer hreply hack
    rwa [receipts_unique hdistinct hi hn]
  · intro hundisturbed id answer hreply hack
    have hmem := (mem_receipts past (opened t target) id answer).mpr ⟨hack, hreply⟩
    obtain ⟨n, hn⟩ := List.mem_iff_getElem?.mp hmem
    exact ⟨n, (inStep_of_undisturbed hdistinct answering hundisturbed).own n answer id hn, hn⟩

/-- A send times out, and its acknowledgement comes while no send waits. Of two sends after it the
first is acknowledged and the second refused. -/
def idleRun : List (Instant × Event) :=
  [(0, .request 1 (.send 0x0680 [0x3E, 0x00] (some (.ofMillis 10)))), (0, .take),
    (10000000, .deadline),
    (11000000, .read [0x02, 0xFD, 0x80, 0x03, 0, 0, 0, 5, 0x06, 0x80, 0x0E, 0x00, 0x03]),
    (12000000, .request 2 (.send 0x0680 [0x10, 0x03] none)), (12000000, .take),
    (12000000, .request 3 (.send 0x0680 [0x11, 0x01] none)), (12000000, .take),
    (13000000, .read [0x02, 0xFD, 0x80, 0x02, 0, 0, 0, 5, 0x06, 0x80, 0x0E, 0x00, 0x00,
      0x02, 0xFD, 0x80, 0x03, 0, 0, 0, 5, 0x06, 0x80, 0x0E, 0x00, 0x04])]

theorem idleRun_own :
    OwnReceipts (history idleRun (opened (.ofSettings 0x0E00 {}) 0x0680))
      (opened (.ofSettings 0x0E00 {}) 0x0680)
      (run idleRun (opened (.ofSettings 0x0E00 {}) 0x0680)).2 := by
  have answering : Answering (opened (.ofSettings 0x0E00 {}) 0x0680)
      (history idleRun (opened (.ofSettings 0x0E00 {}) 0x0680)) := by decide +kernel
  have undisturbed : Undisturbed (opened (.ofSettings 0x0E00 {}) 0x0680)
      (history idleRun (opened (.ofSettings 0x0E00 {}) 0x0680)) := by decide +kernel
  exact (own_receipts_iff _ _ idleRun (by decide) _ _ _ (point_run _ _) answering).mpr undisturbed

example :
    receipts (history idleRun (opened (.ofSettings 0x0E00 {}) 0x0680))
        (opened (.ofSettings 0x0E00 {}) 0x0680) =
      [⟨.failed (.negativeAck ⟨3⟩), none⟩, ⟨.acknowledged, some 2⟩,
        ⟨.failed (.negativeAck ⟨4⟩), some 3⟩] := by
  decide +kernel

/-- A send times out, and its acknowledgement comes while the next one waits. -/
def lateRun : List (Instant × Event) :=
  [(0, .request 1 (.send 0x0680 [0x3E, 0x00] (some (.ofMillis 10)))), (0, .take),
    (10000000, .deadline),
    (11000000, .request 2 (.send 0x0680 [0x10, 0x03] none)), (11000000, .take),
    (12000000, .read [0x02, 0xFD, 0x80, 0x03, 0, 0, 0, 5, 0x06, 0x80, 0x0E, 0x00, 0x03])]

/-- The second send is refused with the code that the gateway has given for the first. -/
theorem lateRun_misattributed :
    (requested lateRun).Nodup ∧
      Answering (opened (.ofSettings 0x0E00 {}) 0x0680)
        (history lateRun (opened (.ofSettings 0x0E00 {}) 0x0680)) ∧
      ⟨2, .failed (.negativeAck ⟨3⟩)⟩ ∈
        (run lateRun (opened (.ofSettings 0x0E00 {}) 0x0680)).2.replies ∧
      ¬OwnReceipts (history lateRun (opened (.ofSettings 0x0E00 {}) 0x0680))
        (opened (.ofSettings 0x0E00 {}) 0x0680)
        (run lateRun (opened (.ofSettings 0x0E00 {}) 0x0680)).2 := by
  have hreply : ⟨2, .failed (.negativeAck ⟨3⟩)⟩ ∈
      (run lateRun (opened (.ofSettings 0x0E00 {}) 0x0680)).2.replies := by decide +kernel
  refine ⟨by decide, by decide +kernel, hreply, ?_⟩
  intro hown
  obtain ⟨n, hsend, hreceipt⟩ := hown 2 _ hreply rfl
  have hsends : takenOf .send (history lateRun (opened (.ofSettings 0x0E00 {}) 0x0680))
      (opened (.ofSettings 0x0E00 {}) 0x0680) = [1, 2] := by decide +kernel
  have hreceipts : receipts (history lateRun (opened (.ofSettings 0x0E00 {}) 0x0680))
      (opened (.ofSettings 0x0E00 {}) 0x0680) = [⟨.failed (.negativeAck ⟨3⟩), some 2⟩] := by
    decide +kernel
  rw [hsends] at hsend
  rw [hreceipts] at hreceipt
  match n with
  | 0 => simp at hsend
  | n + 1 => simp at hreceipt

end Link
end Doip
