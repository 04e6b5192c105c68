import Doip.Proofs.Frame.Stream
import Doip.Proofs.Link.Accounts

/-! # What a link writes

The engine writes on three occasions: it starts an activation, it takes a send, it answers an
alive check. On each it writes the frame of one message, and on no other occasion anything
(`sent_act`). So what a link has written after some acts are the frames of the occasions that it
had, one after the other (`sent_actAll`), and whoever reads this stream gets their messages
(`reassemble_sent`). -/
namespace Doip

/-- Why the engine writes. -/
inductive Occasion where
  /-- It takes an activation and does not refuse it. -/
  | activation (id : CallId) (type : ActivationType)
  | send (id : CallId) (target : Address) (data : Octets)
  | aliveCheck
deriving DecidableEq, Repr

namespace Occasion

/-- What the engine of the tester `source` writes. -/
def message (source : Address) : Occasion → Message
  | activation _ type => .activationRequest ⟨source, type⟩
  | send _ target data => .diagnostic ⟨source, target, data⟩
  | aliveCheck => .aliveCheckResponse source

def frame (t : Tuning) (o : Occasion) : Frame := Frame.ofMessage t.version (o.message t.source)

theorem decode_message (source : Address) (o : Occasion) :
    Message.decode (o.message source).payloadType (o.message source).encode =
      .ok (o.message source) := by
  refine Message.decode_encode _ fun t data h => ?_
  cases o <;> cases h

/-- What is sent, and by which call. -/
def send? : Occasion → Option (CallId × Address × Octets)
  | send id target data => some (id, target, data)
  | activation _ _ | aliveCheck => none

/-- What is sent is not too long. -/
def Short (maxPayload : Nat) : Occasion → Prop
  | send _ _ data => data.length + 4 ≤ maxPayload
  | activation _ _ | aliveCheck => True

theorem length_message (source : Address) {o : Occasion} {maxPayload : Nat}
    (h : o.Short maxPayload) : (o.message source).encode.length ≤ max 7 maxPayload := by
  cases o with
  | activation id type => exact Nat.le_max_left _ _
  | aliveCheck => exact Nat.le_trans (show 2 ≤ 7 by decide) (Nat.le_max_left _ _)
  | send id target data =>
    have hlength : (message source (send id target data)).encode.length = data.length + 4 := by
      simp [message, Message.encode]
      omega
    rw [hlength]
    exact Nat.le_trans h (Nat.le_max_right _ _)

end Occasion

namespace Engine

/-- The occasion to write that comes with an input. -/
def occasion? (e : Engine) : Input → Option Occasion
  | .start id (.activate type) =>
    match e.activation with
    | none => some (.activation id type)
    | some _ => none
  | .start id (.send target data _) => some (.send id target data)
  | .dispatch f =>
    match f.message with
    | .ok .aliveCheckRequest => some .aliveCheck
    | _ => none
  | .start _ (.receive _) | .start _ (.collect _) | .keep _ | .expire => none

/-- The octets that are written on an occasion, if there is one. -/
def written (t : Tuning) (o : Option Occasion) : Octets :=
  Frame.encodeAll (o.toList.map (Occasion.frame t))

theorem written_some (t : Tuning) (o : Occasion) :
    written t (some o) = wire t (o.message t.source) := List.append_nil _

variable {t : Tuning} {target : Address} {now : Instant} {e : Engine}

theorem sent_settleAck (answer : Answer) : (e.settleAck answer).2.sent = [] := by
  unfold settleAck
  split <;> rfl

theorem sent_settleReceive (answer : Answer) : (e.settleReceive answer).2.sent = [] := by
  unfold settleReceive
  split <;> rfl

theorem sent_onResponse (fromTarget : Bool) (frame : Octets) :
    (e.onResponse t fromTarget frame).2.sent = [] := by
  unfold onResponse
  generalize (if fromTarget then { e with pendingAt := none } else e) = e'
  simp only
  by_cases hopen : e'.collections ≠ []
  · rw [if_pos hopen]
    rfl
  · rw [if_neg hopen]
    by_cases hwaits : (fromTarget && !e'.receives.isEmpty) = true
    · rw [if_pos hwaits]
      exact sent_settleReceive _
    · rw [if_neg hwaits]
      rfl

theorem sent_onDiagnostic (frame : Octets) (m : Diagnostic) :
    (e.onDiagnostic t target now frame m).2.sent = [] := by
  unfold onDiagnostic
  split
  · rfl
  · split
    · rfl
    · exact sent_onResponse _ _

theorem sent_onAck (a : Acknowledgement) (answer : Answer) : (e.onAck t a answer).2.sent = [] := by
  unfold onAck
  split
  · rfl
  · exact sent_settleAck _

theorem occasion?_of_alive {f : Frame} (h : f.message = .ok .aliveCheckRequest) :
    e.occasion? (.dispatch f) = some .aliveCheck := by
  simp only [occasion?, h]

theorem occasion?_of_other {f : Frame} (h : f.message ≠ .ok .aliveCheckRequest) :
    e.occasion? (.dispatch f) = none := by
  simp only [occasion?]

theorem sent_dispatch (f : Frame) :
    (e.dispatch t target now f).2.sent = written t (e.occasion? (.dispatch f)) := by
  by_cases halive : f.message = .ok .aliveCheckRequest
  · rw [occasion?_of_alive halive, written_some]
    simp only [dispatch, halive]
    rfl
  · rw [occasion?_of_other halive]
    change _ = []
    unfold dispatch
    split
    · split
      · exact sent_settleReceive _
      · rfl
    · rename_i m hm
      cases m with
      | aliveCheckRequest => exact absurd hm halive
      | activationResponse r =>
        simp only [onActivationResponse]
        split <;> rfl
      | positiveAck a => exact sent_onAck a _
      | negativeAck a => exact sent_onAck a _
      | diagnostic m => exact sent_onDiagnostic _ m
      | genericNack code =>
        simp only [onGenericNack]
        split
        · rfl
        · exact sent_settleAck _
      | activationRequest | aliveCheckResponse | unsupported => rfl

/-- The engine writes on an occasion, and nothing else. -/
theorem sent_handle (input : Input) :
    (e.handle t target now input).2.sent = written t (e.occasion? input) := by
  cases input with
  | start id call =>
    cases call with
    | activate type =>
      simp only [handle, start, startActivation, occasion?]
      cases e.activation with
      | none => exact (written_some t (.activation id type)).symm
      | some wait => rfl
    | send receiver data timeout => exact (written_some t (.send id receiver data)).symm
    | receive timeout =>
      simp only [handle, start, startReceive, occasion?]
      split <;> rfl
    | collect window =>
      simp only [handle, start, startCollection, occasion?]
      split <;> rfl
  | dispatch f => exact sent_dispatch f
  | keep rest => rfl
  | expire => rfl

end Engine

namespace Link

variable {start : Link} {past : List (Instant × Act)} {o : Occasion}

/-- The occasion to write that comes with an act. -/
def occasion? (l : Link) (a : Act) : Option Occasion := (l.input? a).bind l.engine.occasion?

/-- The occasions to write that a link has had. -/
def occasions (past : List (Instant × Act)) (start : Link) : List Occasion :=
  log (fun l _ a => (l.occasion? a).toList) past start

theorem sent_act (l : Link) (now : Instant) (a : Act) :
    (l.act now a).2.sent = Engine.written l.tuning (l.occasion? a) := by
  cases hp : l.phase with
  | stopped cause =>
    have hnone : l.occasion? a = none := by simp [occasion?, input?, hp]
    rw [hnone]
    cases a <;> simp only [act, hp] <;> rfl
  | running e =>
    have hengine : l.engine = e := engine_of_running hp
    simp only [act, hp]
    cases a with
    | dispatch f =>
      have hinput : l.input? (.dispatch f) = some (.dispatch f) := input?_of_worked hp rfl
      rw [occasion?, hinput, Option.bind_some, hengine]
      exact Engine.sent_handle (.dispatch f)
    | take =>
      simp only [actRunning, takeCommand]
      split
      · rename_i hq
        simp [occasion?, input?, hp, hq, Act.input?]
        rfl
      · rename_i queue hq
        simp [occasion?, input?, hp, hq, Act.input?, stop]
        rfl
      · rename_i id call queue hq
        have hinput : l.input? .take = some (.start id call) := by simp [input?, hp, hq]
        rw [occasion?, hinput, Option.bind_some, hengine]
        exact Engine.sent_handle (.start id call)
    | keep rest =>
      have hinput : l.input? (.keep rest) = some (.keep rest) := input?_of_worked hp rfl
      rw [occasion?, hinput]
      rfl
    | expire =>
      have hinput : l.input? .expire = some .expire := input?_of_worked hp rfl
      rw [occasion?, hinput]
      rfl
    | request | requestShutdown | retarget | stop =>
      simp [occasion?, input?, hp, Act.input?]
      rfl

/-- What has been written are the frames of the occasions, one after the other. -/
theorem sent_actAll (past : List (Instant × Act)) (start : Link) :
    (actAll past start).2.sent =
      Frame.encodeAll ((occasions past start).map (Occasion.frame start.tuning)) := by
  induction past generalizing start with
  | nil => rfl
  | cons x past ih =>
    obtain ⟨now, a⟩ := x
    have htuning : (start.act now a).1.tuning = start.tuning := tuning_actAll [(now, a)] start
    have hsent : (actAll ((now, a) :: past) start).2.sent =
        (start.act now a).2.sent ++ (actAll past (start.act now a).1).2.sent := rfl
    rw [hsent, ih, htuning, sent_act]
    simp only [occasions, log, List.map_append, Frame.encodeAll_append]
    rfl

/-- Whoever reads what has been written gets the messages of the occasions. -/
theorem reassemble_frames {t : Tuning} {occasions : List Occasion} {limit : UInt32}
    (short : ∀ o ∈ occasions, o.Short t.maxPayload.toNat)
    (hlimit : max 7 t.maxPayload.toNat ≤ limit.toNat) :
    reassemble limit (Frame.encodeAll (occasions.map (Occasion.frame t))) =
      ⟨occasions.map (Occasion.frame t), [], none⟩ := by
  refine reassemble_encodeAll fun f hf => ?_
  obtain ⟨o, ho, rfl⟩ := List.mem_map.mp hf
  exact Frame.fits_ofMessage (Nat.le_trans (o.length_message t.source (short o ho)) hlimit)

/-! ## Where the occasions come from -/

/-- What a taken call sends. -/
def sendOf : CallId × Call → Option (CallId × Address × Octets)
  | (id, .send target data _) => some (id, target, data)
  | _ => none

theorem send?_occasion? (l : Link) (now : Instant) (a : Act) :
    (l.occasion? a).toList.filterMap Occasion.send? = (taking l now a).filterMap sendOf := by
  cases hp : l.phase with
  | stopped cause => simp [occasion?, input?, taking, hp]
  | running e =>
    cases a with
    | take =>
      cases hq : l.queue with
      | nil => simp [occasion?, input?, taking, hp, hq, Act.input?]
      | cons command queue =>
        cases command with
        | shutdown => simp [occasion?, input?, taking, hp, hq, Act.input?]
        | call id call =>
          simp only [occasion?, input?, taking, hp, hq, Option.bind_some, engine_of_running hp]
          cases call with
          | activate type =>
            simp only [Engine.occasion?]
            cases e.activation <;> rfl
          | send | receive | collect => rfl
    | dispatch f =>
      simp only [occasion?, input?, taking, hp, Act.input?, Option.bind_some, engine_of_running hp]
      by_cases halive : f.message = .ok .aliveCheckRequest
      · rw [Engine.occasion?_of_alive halive]
        rfl
      · rw [Engine.occasion?_of_other halive]
        rfl
    | keep | expire | request | requestShutdown | retarget | stop =>
      simp [occasion?, input?, taking, hp, Act.input?, Engine.occasion?]

/-- What has been sent is what the sends that were taken ask for, in their order. -/
theorem sends_eq_taken (past : List (Instant × Act)) (start : Link) :
    (occasions past start).filterMap Occasion.send? = (taken past start).filterMap sendOf := by
  induction past generalizing start with
  | nil => rfl
  | cons x past ih =>
    obtain ⟨now, a⟩ := x
    simp only [occasions, taken, log, List.filterMap_append] at ih ⊢
    rw [ih, send?_occasion?]

/-- An activation that is taken is an occasion to write, or it is refused. -/
theorem activation_or_refused {id : CallId} {type : ActivationType}
    (h : (id, .activate type) ∈ taken past start) :
    .activation id type ∈ occasions past start ∨
      ⟨id, .failed (.invalidArgument "routing activation already in progress")⟩ ∈
        (actAll past start).2.replies := by
  induction past generalizing start with
  | nil => cases h
  | cons x past ih =>
    obtain ⟨now, a⟩ := x
    have hreplies : (actAll ((now, a) :: past) start).2.replies =
        (start.act now a).2.replies ++ (actAll past (start.act now a).1).2.replies := rfl
    rw [hreplies, List.mem_append]
    rcases List.mem_append.mp h with hnow | hlater
    · unfold taking at hnow
      split at hnow
      · rename_i e _ _ queue hp hq
        cases List.mem_singleton.mp hnow
        cases hactivation : e.activation with
        | none =>
          refine .inl (List.mem_append_left _ ?_)
          simp [occasion?, input?, hp, hq, engine_of_running hp, Engine.occasion?, hactivation]
        | some wait =>
          refine .inr (.inl ?_)
          simp [act, actRunning, takeCommand, hp, hq, Engine.start, Engine.startActivation,
            hactivation, Effect.reply]
      · cases hnow
    · rcases ih hlater with hoccasion | hrefused
      · exact .inl (List.mem_append_right _ hoccasion)
      · exact .inr (.inr hrefused)

theorem Step.mem_queue {now : Instant} {l l' : Link} {a : Act} {effect : Effect} {id : CallId}
    {call : Call} (h : Step now l a l' effect) (hq : .call id call ∈ l'.queue) :
    .call id call ∈ l.queue ∨ a = .request id call := by
  cases h with
  | requested alive =>
    rcases List.mem_append.mp hq with hold | hnew
    · exact .inl hold
    · cases List.mem_singleton.mp hnew
      exact .inr rfl
  | shutdownRequested alive =>
    rcases List.mem_append.mp hq with hold | hnew
    · exact .inl hold
    · cases List.mem_singleton.mp hnew
  | taken alive head turn =>
    rw [head]
    exact .inl (List.mem_cons_of_mem _ hq)
  | stopped | shutDown => cases hq
  | refused | retargeted | worked | idle | ended => exact .inl hq

/-- A call that the engine takes was in the queue, or has been requested before. -/
theorem requested_of_taken {id : CallId} {call : Call} (h : (id, call) ∈ taken past start) :
    .call id call ∈ start.queue ∨ ∃ now, (now, .request id call) ∈ past := by
  induction past generalizing start with
  | nil => cases h
  | cons x past ih =>
    obtain ⟨now, a⟩ := x
    rcases List.mem_append.mp h with hnow | hlater
    · unfold taking at hnow
      split at hnow
      · rename_i id' call' queue hp ha hq
        cases List.mem_singleton.mp hnow
        rw [hq]
        exact .inl List.mem_cons_self
      · cases hnow
    · rcases ih hlater with hqueued | ⟨time, hrequest⟩
      · rcases (step_act now a start).mem_queue hqueued with hold | rfl
        · exact .inl hold
        · exact .inr ⟨now, List.mem_cons_self⟩
      · exact .inr ⟨time, List.mem_cons_of_mem _ hrequest⟩

/-- An occasion comes with a call that is taken, or with an alive check that is dispatched. -/
def Stems (past : List (Instant × Act)) (start : Link) : Occasion → Prop
  | .activation id type => (id, .activate type) ∈ taken past start
  | .send id target data => ∃ timeout, (id, .send target data timeout) ∈ taken past start
  | .aliveCheck => ∃ now f, (now, .dispatch f) ∈ past ∧ f.message = .ok .aliveCheckRequest

theorem taking_of_start {l : Link} {a : Act} {id : CallId} {call : Call}
    (h : l.input? a = some (.start id call)) (now : Instant) : taking l now a = [(id, call)] := by
  unfold input? at h
  split at h
  · rename_i hp hq
    cases h
    simp only [taking, hp, hq]
  · unfold Act.input? at h
    split at h <;> cases h
  · cases h

theorem stems_of_occasion? {l : Link} {a : Act} (h : l.occasion? a = some o) (now : Instant) :
    Stems [(now, a)] l o := by
  obtain ⟨input, hinput, ho⟩ := Option.bind_eq_some_iff.mp h
  cases input with
  | start id call =>
    have htaken : (id, call) ∈ taken [(now, a)] l := by
      simp [taken, log, taking_of_start hinput now]
    cases call with
    | activate type =>
      simp only [Engine.occasion?] at ho
      split at ho
      · cases ho
        exact htaken
      · cases ho
    | send target data timeout =>
      cases ho
      exact ⟨timeout, htaken⟩
    | receive timeout => cases ho
    | collect window => cases ho
  | dispatch f =>
    obtain rfl : a = .dispatch f := act_of_input? hinput rfl
    by_cases halive : f.message = .ok .aliveCheckRequest
    · rw [Engine.occasion?_of_alive halive] at ho
      cases ho
      exact ⟨now, f, List.mem_singleton_self _, halive⟩
    · rw [Engine.occasion?_of_other halive] at ho
      cases ho
  | keep rest => cases ho
  | expire => cases ho

theorem Stems.mono {l : Link} {part : List (Instant × Act)} (h : Stems part l o)
    (htaken : taken part l ⊆ taken past start) (hpast : part ⊆ past) : Stems past start o := by
  cases o with
  | activation id type => exact htaken h
  | send id target data =>
    obtain ⟨timeout, hsend⟩ := h
    exact ⟨timeout, htaken hsend⟩
  | aliveCheck =>
    obtain ⟨now, f, hf, halive⟩ := h
    exact ⟨now, f, hpast hf, halive⟩

theorem stems_of_mem (h : o ∈ occasions past start) : Stems past start o := by
  induction past generalizing start with
  | nil => cases h
  | cons x past ih =>
    obtain ⟨now, a⟩ := x
    have htaken : taken ((now, a) :: past) start =
        taken [(now, a)] start ++ taken past (start.act now a).1 := by
      simp [taken, log]
    rcases List.mem_append.mp h with hnow | hlater
    · refine (stems_of_occasion? (Option.mem_toList.mp hnow) now).mono ?_ ?_
      · rw [htaken]
        exact List.subset_append_left _ _
      · exact List.cons_subset_cons _ (List.nil_subset _)
    · refine (ih hlater).mono ?_ ?_
      · rw [htaken]
        exact List.subset_append_right _ _
      · exact List.subset_cons_self _ _

end Link
end Doip
