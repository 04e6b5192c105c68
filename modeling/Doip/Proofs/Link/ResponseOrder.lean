import Doip.Proofs.Link.Settlement

/-! # Receives get the responses in order

A response reaches a receive out of the inbox when the receive is taken, or directly when
the response arrives. As long as the target does not change under a receive that waits,
the inbox holds nothing for such a receive (`Separate`), so that neither way overtakes the
other: of each sender, what receives have returned and what is in the inbox are, in this
order, responses in the order of their arrival (`returned_sublist`). -/
namespace Doip

/-- The response that an answer to a receive holds. -/
def Answer.frame? : Answer → Option Octets
  | .frame octets => some octets
  | _ => none

/-- The responses that receives return, first answer first. -/
def Effect.returned (effect : Effect) : List Octets := effect.replies.filterMap (·.answer.frame?)

@[simp] theorem Effect.returned_append (a b : Effect) :
    (a ++ b).returned = a.returned ++ b.returned := by
  simp [returned]

@[simp] theorem Effect.returned_none : Effect.none.returned = [] := rfl

@[simp] theorem Effect.returned_send (octets : Octets) : (Effect.send octets).returned = [] := rfl

@[simp] theorem Effect.returned_frame (id : CallId) (octets : Octets) :
    (Effect.reply id (.frame octets)).returned = [octets] := rfl

@[simp] theorem Effect.returned_failed (id : CallId) (failure : Failure) :
    (Effect.reply id (.failed failure)).returned = [] := rfl

/-- The answer holds no response. -/
def Answer.isPlain : Answer → Bool
  | .frame _ | .frames _ => false
  | .activated | .acknowledged | .failed _ => true

/-- No call is answered with responses. -/
def Effect.Plain (effect : Effect) : Prop := ∀ r ∈ effect.replies, r.answer.isPlain = true

theorem Effect.plain_none : Effect.none.Plain := by simp [Plain, none]

theorem Effect.plain_send (octets : Octets) : (Effect.send octets).Plain := by simp [Plain, send]

theorem Effect.plain_reply (id : CallId) {answer : Answer} (h : answer.isPlain = true) :
    (Effect.reply id answer).Plain := by
  simpa [Plain, reply] using h

theorem Answer.frame?_of_isPlain {answer : Answer} (h : answer.isPlain = true) :
    answer.frame? = none := by
  cases answer <;> simp [isPlain, frame?] at h ⊢

theorem Effect.returned_of_plain {effect : Effect} (h : effect.Plain) : effect.returned = [] :=
  List.filterMap_eq_nil_iff.mpr fun r hr => Answer.frame?_of_isPlain (h r hr)

/-- The frame comes from this sender. -/
def isFrom (sender : Address) (frame : Octets) : Bool := frameSource? frame = some sender

theorem isFrom_eq_true {sender : Address} {frame : Octets} :
    isFrom sender frame = true ↔ frameSource? frame = some sender := by
  simp [isFrom]

namespace Engine

/-- The response that arrives with an input. -/
def Input.arriving (t : Tuning) : Input → List Octets
  | .dispatch f => if (f.response? t).isSome then [f.encode] else []
  | _ => []

/-- While a receive waits, the inbox holds nothing from the target. -/
def Separate (target : Address) (e : Engine) : Prop :=
  e.receives ≠ [] → ∀ f ∈ e.inbox, frameSource? f ≠ some target

variable {t : Tuning} {target : Address} {now : Instant} {e e' : Engine} {input : Input}
  {effect : Effect}

theorem arriving_of_response? {f : Frame} {m : Diagnostic} (h : f.response? t = some m) :
    (Input.dispatch f).arriving t = [f.encode] := by
  simp [Input.arriving, h]

theorem frameSource?_of_response? {f : Frame} {m : Diagnostic} (h : f.response? t = some m) :
    frameSource? f.encode = some m.source :=
  Frame.frameSource?_encode (Frame.message_of_response? h).1

theorem expire_receives_sublist (now : Instant) (e : Engine) :
    (e.expire now).1.receives.Sublist e.receives :=
  List.filter_sublist

theorem returned_expire (now : Instant) (e : Engine) : (e.expire now).2.returned = [] := by
  refine List.filterMap_eq_nil_iff.mpr fun r hr => ?_
  obtain ⟨call, rfl⟩ | ⟨c, -, rfl⟩ := expired_cases hr <;> rfl

theorem plain_activationAnswer (id : CallId) (r : ActivationResponse) :
    (Effect.reply id (activationAnswer t r)).Plain := by
  refine Effect.plain_reply id ?_
  unfold activationAnswer
  split
  · rfl
  · split <;> rfl

theorem buffered_inbox_sublist (frame : Octets) (e : Engine) :
    (e.buffered t frame).inbox.Sublist (e.inbox ++ [frame]) := by
  simp only [buffered]
  split
  · exact (List.tail_sublist e.inbox).append (List.Sublist.refl _)
  · exact List.Sublist.refl _

/-- A receive waits only when nothing from the target is left, and then what the target sends
goes to it. -/
theorem Turn.separate (h : Turn t target now e input e' effect) (hs : Separate target e) :
    Separate target e' := by
  intro hw f hf
  cases h with
  | sent | collectionOpened => simp at hf
  | @claimed id timeout before after frame split others source =>
    refine hs hw f ?_
    rw [split]
    exact (List.sublist_append_right [frame] after |>.append_left before).subset hf
  | waited absent => exact absent f hf
  | receiveFailed _ _ waits | handed _ _ _ waits => exact hs (by simp [waits]) f hf
  | extended _ _ waits => exact hs (by simp [waits]) f hf
  | @kept f' m response closed idle =>
    have hmem := (buffered_inbox_sublist (t := t) f'.encode _).subset hf
    rcases List.mem_append.mp hmem with hmem | hmem
    · exact hs hw f hmem
    · rw [List.mem_singleton.mp hmem, frameSource?_of_response? response]
      intro hsource
      exact hw (idle (Option.some.inj hsource))
  | expired =>
    refine hs (fun hnil => hw ?_) f hf
    exact List.sublist_nil.mp (hnil ▸ expire_receives_sublist now e)
  | _ => exact hs hw f hf

/-- Only a receive returns a response: one that is taken, or the oldest one that waits. -/
theorem Turn.of_frame {id : CallId} {octets : Octets} (h : Turn t target now e input e' effect)
    (hr : ⟨id, .frame octets⟩ ∈ effect.replies) :
    (∃ timeout, input = .start id (.receive timeout)) ∨
      (∃ f m, input = .dispatch f ∧ f.response? t = some m ∧ f.encode = octets) ∧
        (e.waits .receive).head? = some id := by
  cases h with
  | @claimed id' timeout before after frame split others source =>
    cases List.mem_singleton.mp hr
    exact .inl ⟨timeout, rfl⟩
  | @handed f m wait receives response source closed waits =>
    cases List.mem_singleton.mp hr
    exact .inr ⟨⟨f, m, rfl, response, rfl⟩, by simp [Engine.waits, waits]⟩
  | expired =>
    have hnone := returned_expire now e
    have := List.filterMap_eq_nil_iff.mp hnone _ hr
    simp [Answer.frame?] at this
  | sendSettled message settles waits =>
    cases List.mem_singleton.mp hr
    cases settles
  | @activationAnswered f r wait message waits =>
    have := plain_activationAnswer (t := t) wait.call r _ hr
    simp [Answer.isPlain] at this
  | _ => simp [Effect.reply, Effect.none, Effect.send] at hr

/-- Of each sender, a turn returns and leaves in the inbox, in this order, what was in the
inbox and what arrives. -/
theorem Turn.returned_sublist (h : Turn t target now e input e' effect) (hs : Separate target e)
    (sender : Address) :
    ((effect.returned ++ e'.inbox).filter (isFrom sender)).Sublist
      ((e.inbox ++ input.arriving t).filter (isFrom sender)) := by
  cases h with
  | sent | collectionOpened => exact List.nil_sublist _
  | @claimed id timeout before after frame split others source =>
    have hnone : before.filter (isFrom target) = [] := by
      refine List.filter_eq_nil_iff.mpr fun f hf => ?_
      rw [isFrom_eq_true]
      exact others f hf
    simp only [split, Effect.returned_frame, Input.arriving, List.append_nil, List.filter_append,
      List.filter_cons, List.filter_nil]
    by_cases hsender : sender = target
    · subst hsender
      simp [hnone, isFrom_eq_true.mpr source]
    · have hother : isFrom sender frame = false := by
        simp [isFrom, source, Ne.symm hsender]
      simp [hother]
  | @handed f m wait receives response source closed waits =>
    have hsource := frameSource?_of_response? response
    simp only [Effect.returned_frame, arriving_of_response? response, List.filter_append]
    by_cases hsender : sender = target
    · subst hsender
      have hnone : e.inbox.filter (isFrom sender) = [] := by
        refine List.filter_eq_nil_iff.mpr fun x hx => ?_
        rw [isFrom_eq_true]
        exact hs (by simp [waits]) x hx
      simp [hnone]
    · have hother : isFrom sender f.encode = false := by
        simp [isFrom, hsource, source, Ne.symm hsender]
      simp [hother]
  | @kept f m response closed idle =>
    rw [arriving_of_response? response]
    exact (buffered_inbox_sublist f.encode _).filter _
  | expired =>
    rw [returned_expire]
    exact (List.sublist_append_left _ _).filter _
  | activationAnswered message waits =>
    rw [Effect.returned_of_plain (plain_activationAnswer _ _)]
    exact (List.sublist_append_left _ _).filter _
  | sendSettled message settles waits =>
    cases settles <;> exact (List.sublist_append_left _ _).filter _
  | _ => exact (List.sublist_append_left _ _).filter _

end Engine

namespace Link

/-- The response that arrives at an act. -/
def arriving (l : Link) (_ : Instant) (a : Act) : List Octets :=
  match l.phase, a with
  | .running _, .dispatch f => (Engine.Input.dispatch f).arriving l.tuning
  | _, _ => []

/-- The responses that have arrived, first one first. -/
def arrived (past : List (Instant × Act)) (start : Link) : List Octets := log arriving past start

/-- The target does not change while a receive waits. -/
def Steady (l : Link) (_ : Instant) : Act → Prop
  | .retarget target => target ≠ l.target → l.engine.receives = []
  | _ => True

instance (l : Link) (now : Instant) : (a : Act) → Decidable (Steady l now a)
  | .retarget target => inferInstanceAs (Decidable (target ≠ l.target → l.engine.receives = []))
  | .request _ _ | .requestShutdown | .take | .dispatch _ | .keep _ | .expire | .stop _ =>
    inferInstanceAs (Decidable True)

variable {now : Instant} {l l' : Link} {a : Act} {effect : Effect}

theorem plain_stop (failure : Failure) (e : Engine) (queue : List Command) :
    (Effect.mk (e.failAll failure ++ failQueued failure queue) []).Plain := by
  intro r hr
  rw [answer_of_stop hr]
  rfl

theorem arriving_of_input? {e : Engine} {input : Engine.Input} (alive : l.phase = .running e)
    (h : a.input? = some input) : arriving l now a = input.arriving l.tuning := by
  cases a <;> simp [Act.input?] at h
  all_goals
    subst h
    simp [arriving, alive, Engine.Input.arriving]

theorem Step.separate (h : Step now l a l' effect) (steady : Steady l now a)
    (hs : l.engine.Separate l.target) : l'.engine.Separate l'.target := by
  cases h with
  | @retargeted e target alive =>
    intro hw
    have hsame : target = l.target := by
      by_contra hne
      exact hw (by simpa [engine, alive] using steady hne)
    rw [hsame]
    exact hs (by simpa [engine, alive] using hw)
  | taken alive head turn | worked alive input_eq turn =>
    rw [engine_of_running alive] at hs
    exact turn.separate hs
  | stopped | shutDown => exact fun hw => absurd rfl hw
  | requested alive | shutdownRequested alive =>
    simpa [engine, alive] using hs
  | refused | idle | ended => exact hs

theorem Step.returned_sublist (h : Step now l a l' effect) (hs : l.engine.Separate l.target)
    (sender : Address) :
    ((effect.returned ++ l'.engine.inbox).filter (isFrom sender)).Sublist
      ((l.engine.inbox ++ arriving l now a).filter (isFrom sender)) := by
  cases h with
  | @taken e e' id call queue _ alive head turn =>
    rw [engine_of_running alive] at hs ⊢
    have := turn.returned_sublist hs sender
    simpa [arriving, alive, engine, Engine.Input.arriving] using this
  | worked alive input_eq turn =>
    rw [arriving_of_input? alive input_eq]
    rw [engine_of_running alive] at hs ⊢
    exact turn.returned_sublist hs sender
  | stopped | shutDown =>
    rw [Effect.returned_of_plain (plain_stop _ _ _)]
    exact List.nil_sublist _
  | requested alive | shutdownRequested alive | retargeted alive =>
    simp only [engine, alive]
    exact (List.sublist_append_left _ _).filter _
  | refused | idle | ended => exact (List.sublist_append_left _ _).filter _

theorem Step.of_frame {id : CallId} {octets : Octets} (h : Step now l a l' effect)
    (hr : ⟨id, .frame octets⟩ ∈ effect.replies) :
    (∃ timeout, (id, .receive timeout) ∈ taking l now a) ∨
      (∃ f m, a = .dispatch f ∧ f.response? l.tuning = some m ∧ f.encode = octets) ∧
        (l.engine.waits .receive).head? = some id := by
  cases h with
  | @taken e e' id' call queue _ alive head turn =>
    rcases turn.of_frame hr with ⟨timeout, hi⟩ | ⟨⟨f, m, hi, -⟩, -⟩
    · cases hi
      exact .inl ⟨timeout, by simp [taking, alive, head]⟩
    · cases hi
  | worked alive input_eq turn =>
    rw [engine_of_running alive]
    rcases turn.of_frame hr with ⟨timeout, rfl⟩ | ⟨⟨f, m, rfl, hm⟩, hw⟩
    · cases a <;> simp [Act.input?] at input_eq
    · refine .inr ⟨⟨f, m, ?_, hm⟩, hw⟩
      cases a <;> simp [Act.input?] at input_eq
      rw [input_eq]
  | stopped | shutDown =>
    have := plain_stop _ _ _ _ hr
    simp [Answer.isPlain] at this
  | _ => simp [Effect.reply, Effect.none] at hr

/-! ## The invariants of a run -/

/-- Who returns a response is a receive that was taken. -/
theorem receive_of_frame (past : List (Instant × Act)) (start : Link) {id : CallId}
    {octets : Octets} (h : ⟨id, .frame octets⟩ ∈ (actAll past start).2.replies) :
    id ∈ start.engine.waits .receive ++ takenOf .receive past start := by
  induction past generalizing start with
  | nil => simp [actAll] at h
  | cons a past ih =>
    obtain ⟨now, a⟩ := a
    rw [takenOf_cons, ← List.append_assoc]
    simp only [actAll, Effect.replies_append] at h
    rcases List.mem_append.mp h with h | h
    · refine List.mem_append_left _ ?_
      rcases (step_act now a start).of_frame h with ⟨timeout, ht⟩ | ⟨-, hw⟩
      · refine List.mem_append_right _ (List.mem_map.mpr ⟨_, List.mem_filter.mpr ⟨ht, ?_⟩, rfl⟩)
        rfl
      · exact List.mem_append_left _ (List.mem_of_mem_head? hw)
    · refine (List.Sublist.append ?_ (List.Sublist.refl _)).subset (ih _ h)
      exact (step_act now a start).waits_sublist .receive

theorem separate_of_steady (past : List (Instant × Act)) (start : Link)
    (steady : Throughout Steady past start) (hs : start.engine.Separate start.target) :
    (actAll past start).1.engine.Separate (actAll past start).1.target := by
  induction past generalizing start with
  | nil => exact hs
  | cons a past ih =>
    obtain ⟨now, a⟩ := a
    obtain ⟨hfirst, hrest⟩ := steady
    exact ih _ hrest ((step_act now a start).separate hfirst hs)

/-- Of each sender, what receives have returned and what is in the inbox are, in this order,
responses in the order of their arrival. -/
theorem returned_sublist (past : List (Instant × Act)) (start : Link)
    (steady : Throughout Steady past start) (hs : start.engine.Separate start.target)
    (sender : Address) :
    (((actAll past start).2.returned ++ (actAll past start).1.engine.inbox).filter
      (isFrom sender)).Sublist
      ((start.engine.inbox ++ arrived past start).filter (isFrom sender)) := by
  induction past generalizing start with
  | nil => simp [actAll, arrived, log]
  | cons a past ih =>
    obtain ⟨now, a⟩ := a
    obtain ⟨hfirst, hrest⟩ := steady
    have hstep := (step_act now a start).returned_sublist hs sender
    have hlater := ih _ hrest ((step_act now a start).separate hfirst hs)
    simp only [actAll, arrived, log, Effect.returned_append, List.filter_append,
      List.append_assoc] at hstep hlater ⊢
    refine ((List.Sublist.refl _).append hlater).trans ?_
    rw [← List.append_assoc, ← List.append_assoc (start.engine.inbox.filter _)]
    exact hstep.append (List.Sublist.refl _)

/-! ## The order of service -/

/-- How receives have been served at a point of a run with the acts `past`. -/
structure ServedInOrder (past : List (Instant × Act)) (start l : Link) (effect : Effect) :
    Prop where
  /-- No receive waits beside its response. -/
  separate : l.engine.receives ≠ [] → ∀ f ∈ l.engine.inbox, frameSource? f ≠ some l.target
  /-- Receives wait in the order in which they were taken. -/
  waiting : (l.engine.receives.map (·.call)).Sublist (takenOf .receive past start)
  /-- A response that is handed over when it arrives goes to the first receive that waits. -/
  oldest : ∀ now f id octets, ⟨id, .frame octets⟩ ∈ (l.act now (.dispatch f)).2.replies →
    octets = f.encode ∧ (l.engine.receives.map (·.call)).head? = some id
  /-- Only receives return responses. -/
  receivers : ∀ id octets, ⟨id, .frame octets⟩ ∈ effect.replies →
    id ∈ takenOf .receive past start
  /-- Of each sender, receives return responses in the order of their arrival, none twice. -/
  inOrder : ∀ sender, (effect.returned.filter (isFrom sender)).Sublist
    ((arrived past start).filter (isFrom sender))

theorem servedInOrder_of_steady {t : Tuning} {target : Address} {past : List (Instant × Act)}
    {l : Link} {effect : Effect} (h : actAll past (opened t target) = (l, effect))
    (steady : Throughout Steady past (opened t target)) :
    ServedInOrder past (opened t target) l effect := by
  have hseparate : (opened t target).engine.Separate (opened t target).target :=
    fun hw => absurd rfl hw
  refine ⟨?_, ?_, ?_, ?_, ?_⟩
  · have := separate_of_steady past _ steady hseparate
    rwa [h] at this
  · have := waits_sublist_takenOf .receive past (opened t target)
    rwa [h] at this
  · intro now f id octets hr
    rcases (step_act now (.dispatch f) l).of_frame hr with ⟨timeout, ht⟩ | ⟨⟨f', m, hf, -, hm⟩, hw⟩
    · simp [taking] at ht
    · cases hf
      exact ⟨hm.symm, hw⟩
  · intro id octets hr
    rw [show effect = (actAll past (opened t target)).2 from (congrArg Prod.snd h).symm] at hr
    exact receive_of_frame past (opened t target) hr
  · intro sender
    have := returned_sublist past _ steady hseparate sender
    rw [h, List.filter_append] at this
    exact (List.sublist_append_left _ _).trans this

theorem Point.throughout {events : List (Instant × Event)} {start l : Link}
    {past : List (Instant × Act)} {effect : Effect} {p : Link → Instant → Act → Prop}
    (point : Point events start past l effect) (h : Throughout p (history events start) start) :
    Throughout p past start := by
  obtain ⟨rest, hrest⟩ := point.isPast
  rw [← hrest] at h
  exact (throughout_append.mp h).1

/-- When the target changes only while no receive waits, receives are served in order at
every point of every run. -/
theorem receives_served_in_order (t : Tuning) (target : Address)
    (events : List (Instant × Event))
    (steady : Throughout Steady (history events (opened t target)) (opened t target))
    (past : List (Instant × Act)) (l : Link) (effect : Effect)
    (point : Point events (opened t target) past l effect) :
    ServedInOrder past (opened t target) l effect :=
  servedInOrder_of_steady point.reached (point.throughout steady)

/-- A response for a receive that waits, and one of another target that waits for its receive. -/
def retargetedRun : List (Instant × Event) :=
  [(0, .request 1 (.receive none)), (0, .take),
    (1, .read [0x02, 0xFD, 0x80, 0x01, 0, 0, 0, 5, 0x06, 0x80, 0x0E, 0x00, 0x50]),
    (2, .retarget 0x0700),
    (3, .read [0x02, 0xFD, 0x80, 0x01, 0, 0, 0, 5, 0x07, 0x00, 0x0E, 0x00, 0x51]),
    (4, .request 2 (.receive none)), (4, .take)]

theorem retargetedRun_in_order :
    Throughout Steady (history retargetedRun (opened (.ofSettings 0x0E00 {}) 0x0680))
        (opened (.ofSettings 0x0E00 {}) 0x0680) ∧
      ServedInOrder (history retargetedRun (opened (.ofSettings 0x0E00 {}) 0x0680))
        (opened (.ofSettings 0x0E00 {}) 0x0680)
        (run retargetedRun (opened (.ofSettings 0x0E00 {}) 0x0680)).1
        (run retargetedRun (opened (.ofSettings 0x0E00 {}) 0x0680)).2 := by
  have hsteady : Throughout Steady
      (history retargetedRun (opened (.ofSettings 0x0E00 {}) 0x0680))
      (opened (.ofSettings 0x0E00 {}) 0x0680) := by decide +kernel
  exact ⟨hsteady, receives_served_in_order _ _ retargetedRun hsteady _ _ _ (point_run _ _)⟩

end Link
end Doip
