import Doip.Proofs.Link.Ledger
import Mathlib.Data.List.Induction

/-! # Every response is accounted for

At each point of a run the ledger says where every response is that has arrived: the inbox,
the collections and the answers of receives hold the entries with the fate that names
them, and nothing else (`Books`). A turn keeps this because the calls it takes have not been
answered before and wait nowhere, so that no fate names them yet. -/
namespace Doip

/-- The responses that a receive returns. -/
def Effect.returnedBy (effect : Effect) (id : CallId) : List Octets :=
  (effect.replies.filter (·.call = id)).filterMap (·.answer.frame?)

namespace Effect

@[simp] theorem returnedBy_append (a b : Effect) (id : CallId) :
    (a ++ b).returnedBy id = a.returnedBy id ++ b.returnedBy id := by
  simp [returnedBy]

@[simp] theorem returnedBy_none (id : CallId) : none.returnedBy id = [] := rfl

theorem returnedBy_frame (call : CallId) (octets : Octets) (id : CallId) :
    (reply call (.frame octets)).returnedBy id = if call = id then [octets] else [] := by
  by_cases h : call = id <;> simp [returnedBy, reply, h, Answer.frame?]

theorem returnedBy_of_plain {effect : Effect} (h : effect.Plain) (id : CallId) :
    effect.returnedBy id = [] :=
  List.filterMap_eq_nil_iff.mpr fun r hr =>
    Answer.frame?_of_isPlain (h r (List.mem_filter.mp hr).1)

theorem length_returnedBy_le (effect : Effect) (id : CallId) :
    (effect.returnedBy id).length ≤ effect.answered.count id := by
  have hcount : effect.answered.count id = (effect.replies.filter (·.call = id)).length := by
    rw [answered, List.count, List.countP_map, List.countP_eq_length_filter]
    congr 1
  rw [hcount]
  exact List.length_filterMap_le _ _

theorem returnedBy_of_not_answered {effect : Effect} {id : CallId} (h : id ∉ effect.answered) :
    effect.returnedBy id = [] := by
  have := effect.length_returnedBy_le id
  rw [List.count_eq_zero.mpr h] at this
  exact List.length_eq_zero_iff.mp (by omega)

end Effect

/-- An unclaimed entry gets a fate, and the others keep theirs. -/
theorem Ledger.getElem?_resettled {older newer : Ledger} {octets : Octets} {i : Nat} {x : Entry}
    (fate : Fate) (hx : (older ++ ⟨octets, .unclaimed⟩ :: newer)[i]? = some x)
    (hf : x.fate ≠ .unclaimed) : (older ++ ⟨octets, fate⟩ :: newer)[i]? = some x := by
  rw [List.getElem?_append] at hx ⊢
  split at hx
  · rename_i hi
    rw [if_pos hi]
    exact hx
  · rename_i hi
    rw [if_neg hi]
    cases hn : i - older.length with
    | zero =>
      rw [hn, List.getElem?_cons_zero] at hx
      cases hx
      exact absurd rfl hf
    | succ k =>
      rw [hn, List.getElem?_cons_succ] at hx
      rw [List.getElem?_cons_succ]
      exact hx

namespace Engine

/-- The containers and the answers given so far hold what the ledger says. -/
structure Books (ledger : Ledger) (e : Engine) (effect : Effect) : Prop where
  opened : ∀ c ∈ e.collections, c.frames = ledger.held (·.isIn c.call)
  collected : ∀ id frames, ⟨id, .frames frames⟩ ∈ effect.replies →
    frames = ledger.held (·.isIn id)
  returned : ∀ id, effect.returnedBy id = ledger.held (· = .returned id)
  /-- Only collections that were opened hold responses. -/
  known : ∀ id, ledger.held (·.isIn id) ≠ [] → id ∈ effect.answered ++ e.waiting

variable {t : Tuning} {target : Address} {now : Instant} {e e' : Engine} {input : Input}
  {past effect : Effect} {ledger ledger' : Ledger}

/-- The ledger has an entry for each response, in the order of arrival. -/
theorem Custody.arrivals (h : Custody t target now e input e' effect ledger ledger') :
    ledger'.map (·.octets) = ledger.map (·.octets) ++ input.arriving t := by
  cases h with
  | untouched nothing => rw [nothing, List.append_nil]
  | completed => simp [Input.arriving]
  | discarded | swept => simp [Ledger.octets_settleAll, Input.arriving]
  | claimed => simp [Input.arriving]
  | gathered response | handed response | buffered response =>
    simp [arriving_of_response? response]
  | evicted response => simp [arriving_of_response? response]

theorem Custody.inbox (h : Custody t target now e input e' effect ledger ledger')
    (hinbox : e.inbox = ledger.unclaimed) : e'.inbox = ledger'.unclaimed := by
  cases h with
  | untouched _ inbox => rw [inbox, hinbox]
  | completed => exact hinbox
  | discarded inbox => rw [inbox, Ledger.unclaimed_settleAll (by simp)]
  | swept _ inbox => rw [inbox, Ledger.unclaimed_settleAll (by simp)]
  | claimed _ _ inbox =>
    rw [inbox]
    simp [Ledger.unclaimed, Ledger.held_append, Ledger.held_cons]
  | gathered _ _ inbox | handed _ _ _ _ inbox | buffered _ _ _ _ inbox =>
    rw [inbox, hinbox]
    simp [Ledger.unclaimed, Ledger.held_append, Ledger.held_cons]
  | evicted _ _ _ _ oldest inbox =>
    rw [inbox]
    rw [Ledger.unclaimed] at oldest
    simp [Ledger.unclaimed, Ledger.held_append, Ledger.held_cons, oldest]

/-- No fate other than unclaimed changes. -/
theorem Custody.final (h : Custody t target now e input e' effect ledger ledger') {i : Nat}
    {x : Entry} (hx : ledger[i]? = some x) (hf : x.fate ≠ .unclaimed) : ledger'[i]? = some x := by
  have happend : ∀ new : Ledger, (ledger ++ new)[i]? = some x := by
    intro new
    obtain ⟨hi, -⟩ := List.getElem?_eq_some_iff.mp hx
    rw [List.getElem?_append_left hi, hx]
  have hall : ∀ fate : Fate, (ledger.settleAll fate)[i]? = some x := by
    intro fate
    simp [Ledger.settleAll, hx, hf]
  cases h with
  | untouched | completed => exact hx
  | discarded | swept => exact hall _
  | gathered | handed | buffered => exact happend _
  | claimed => exact Ledger.getElem?_resettled _ hx hf
  | evicted =>
    have hi := Ledger.getElem?_resettled .evicted hx hf
    rw [List.getElem?_append_left (List.getElem?_eq_some_iff.mp hi).1, hi]

/-- The calls that the engine takes or lets wait have not been answered, and the call it takes
does not wait yet. -/
structure Fresh (input : Input) (e : Engine) (past : Effect) : Prop where
  unanswered : ∀ id ∈ input.calls.map (·.1) ++ e.waiting, id ∉ past.answered
  new : ∀ id ∈ input.calls.map (·.1), id ∉ e.waiting

theorem Books.held_of_fresh (hb : Books ledger e past) {id : CallId} (hnew : id ∉ e.waiting)
    (hunanswered : id ∉ past.answered) : ledger.held (·.isIn id) = [] := by
  by_contra hne
  rcases List.mem_append.mp (hb.known id hne) with h | h
  · exact hunanswered h
  · exact hnew h

theorem mem_waiting_of_collection {c : Collection} (h : c ∈ e.collections) : c.call ∈ e.waiting :=
  mem_waiting.mpr ⟨.collection, List.mem_map.mpr ⟨c, h, rfl⟩⟩

theorem Custody.held_isIn (h : Custody t target now e input e' effect ledger ledger')
    {id : CallId} (hnew : id ∉ input.calls.map (·.1)) (hclosed : id ∉ e.waits .collection) :
    ledger'.held (·.isIn id) = ledger.held (·.isIn id) := by
  cases h with
  | untouched | completed => rfl
  | discarded => exact Ledger.held_settleAll_of_false rfl rfl ledger
  | @swept sweeper window deadline e' _ fits inbox collections =>
    have hne : sweeper ≠ id := by
      rintro rfl
      exact hnew (by simp [Input.calls])
    exact Ledger.held_settleAll_of_false rfl (by simpa [Fate.isIn] using hne) ledger
  | claimed => simp [Ledger.held_append, Ledger.held_cons, Fate.isIn]
  | gathered =>
    have hout : (e.waits .collection).contains id = false := by simpa using hclosed
    simp [Ledger.held_append, Ledger.held_cons, Fate.isIn, hclosed]
  | handed | buffered | evicted => simp [Ledger.held_append, Ledger.held_cons, Fate.isIn]

theorem Custody.opened (h : Custody t target now e input e' effect ledger ledger')
    (hinbox : e.inbox = ledger.unclaimed) (hb : Books ledger e past) (hf : Fresh input e past) :
    ∀ c ∈ e'.collections, c.frames = ledger'.held (·.isIn c.call) := by
  intro c hc
  cases h with
  | untouched _ _ collections => exact hb.opened c (collections ▸ hc)
  | completed => exact hb.opened c (List.mem_filter.mp hc).1
  | discarded _ collections =>
    rw [hb.opened c (collections ▸ hc)]
    exact (Ledger.held_settleAll_of_false rfl rfl ledger).symm
  | @swept id window deadline e' _ fits inbox collections =>
    have hid : id ∈ (Input.start id (.collect window)).calls.map (·.1) := by simp [Input.calls]
    have hnew := hf.new id hid
    rw [collections] at hc
    rcases List.mem_append.mp hc with hold | hc
    · have hne : id ≠ c.call := by
        intro heq
        exact hnew (heq ▸ mem_waiting_of_collection hold)
      rw [hb.opened c hold]
      exact (Ledger.held_settleAll_of_false rfl (by simpa [Fate.isIn] using hne) ledger).symm
    · rw [List.mem_singleton.mp hc]
      have hunanswered := hf.unanswered id (List.mem_append_left _ hid)
      rw [Ledger.held_settleAll_of_true (by simp [Fate.isIn]) (hb.held_of_fresh hnew hunanswered)]
      exact hinbox
  | claimed _ _ _ collections =>
    rw [hb.opened c (collections ▸ hc)]
    simp [Ledger.held_append, Ledger.held_cons, Fate.isIn]
  | gathered _ _ _ collections =>
    rw [collections] at hc
    obtain ⟨c, hold, rfl⟩ := List.mem_map.mp hc
    have hin : c.call ∈ e.waits .collection := List.mem_map.mpr ⟨c, hold, rfl⟩
    rw [hb.opened c hold, Ledger.held_append, Ledger.held_cons, Ledger.held_nil]
    simp [Fate.isIn, hin]
  | handed _ _ _ _ _ collections | buffered _ _ _ _ _ collections
  | evicted _ _ _ _ _ _ collections =>
    rw [hb.opened c (collections ▸ hc)]
    simp [Ledger.held_append, Ledger.held_cons, Fate.isIn]

theorem Custody.of_frames (h : Custody t target now e input e' effect ledger ledger')
    {id : CallId} {frames : List Octets} (hr : ⟨id, .frames frames⟩ ∈ effect.replies) :
    ledger' = ledger ∧ ∃ c ∈ e.collections, c.call = id ∧ c.frames = frames := by
  cases h with
  | untouched _ _ _ plain | discarded _ _ plain =>
    have := plain _ hr
    simp [Answer.isPlain] at this
  | completed =>
    refine ⟨rfl, ?_⟩
    simp only [expire, List.mem_append, List.mem_map, timedOut] at hr
    obtain ((⟨w, -, hw⟩ | ⟨w, -, hw⟩) | ⟨w, -, hw⟩) | ⟨c, hc, hr⟩ := hr
    · cases hw
    · cases hw
    · cases hw
    · cases hr
      exact ⟨c, (List.mem_filter.mp hc).1, rfl, rfl⟩
  | swept | gathered | buffered | evicted => simp [Effect.none] at hr
  | claimed | handed => simp [Effect.reply] at hr

theorem Custody.collected (h : Custody t target now e input e' effect ledger ledger')
    (hb : Books ledger e past) (hf : Fresh input e past) :
    ∀ id frames, ⟨id, .frames frames⟩ ∈ (past ++ effect).replies →
      frames = ledger'.held (·.isIn id) := by
  intro id frames hr
  rcases List.mem_append.mp hr with hr | hr
  · have hanswered : id ∈ past.answered := List.mem_map.mpr ⟨_, hr, rfl⟩
    rw [hb.collected id frames hr]
    refine (h.held_isIn (fun hid => ?_) (fun hid => ?_)).symm
    · exact hf.unanswered id (List.mem_append_left _ hid) hanswered
    · exact hf.unanswered id (List.mem_append_right _ (mem_waiting.mpr ⟨_, hid⟩)) hanswered
  · obtain ⟨rfl, c, hc, rfl, rfl⟩ := h.of_frames hr
    exact hb.opened c hc

theorem Books.held_returned (hb : Books ledger e past) {id : CallId}
    (hunanswered : id ∉ past.answered) : ledger.held (· = .returned id) = [] := by
  rw [← hb.returned id]
  exact Effect.returnedBy_of_not_answered hunanswered

theorem returnedBy_expire (now : Instant) (e : Engine) (id : CallId) :
    (e.expire now).2.returnedBy id = [] := by
  have hnone := List.filterMap_eq_nil_iff.mp (returned_expire now e)
  exact List.filterMap_eq_nil_iff.mpr fun r hr => hnone r (List.mem_filter.mp hr).1

theorem Custody.returned (h : Custody t target now e input e' effect ledger ledger')
    (hb : Books ledger e past) (hf : Fresh input e past) :
    ∀ id, (past ++ effect).returnedBy id = ledger'.held (· = .returned id) := by
  intro id
  rw [Effect.returnedBy_append]
  cases h with
  | untouched _ _ _ plain => rw [Effect.returnedBy_of_plain plain, List.append_nil, hb.returned]
  | completed => rw [returnedBy_expire, List.append_nil, hb.returned]
  | discarded _ _ plain =>
    rw [Effect.returnedBy_of_plain plain, List.append_nil, hb.returned]
    exact (Ledger.held_settleAll_of_false rfl (by simp) ledger).symm
  | swept =>
    rw [Effect.returnedBy_none, List.append_nil, hb.returned]
    exact (Ledger.held_settleAll_of_false rfl (by simp) ledger).symm
  | @claimed call timeout octets e' older newer others source inbox collections =>
    rw [Effect.returnedBy_frame]
    by_cases hid : call = id
    · subst hid
      have hnone := hb.held_returned (hf.unanswered call (by simp [Input.calls]))
      rw [hb.returned, hnone]
      simp only [Ledger.held_append, Ledger.held_cons, List.append_eq_nil_iff] at hnone
      simp [Ledger.held_append, Ledger.held_cons, hnone]
    · rw [if_neg hid, List.append_nil, hb.returned]
      simp [Ledger.held_append, Ledger.held_cons, hid]
  | gathered | buffered | evicted =>
    rw [Effect.returnedBy_none, List.append_nil, hb.returned]
    simp [Ledger.held_append, Ledger.held_cons]
  | @handed f m wait receives e' _ response source closed waits inbox collections =>
    rw [Effect.returnedBy_frame, hb.returned]
    by_cases hid : wait.call = id <;> simp [Ledger.held_append, Ledger.held_cons, hid]

theorem Custody.known (h : Custody t target now e input e' effect ledger ledger')
    (hturn : Turn t target now e input e' effect) (hb : Books ledger e past) :
    ∀ id, ledger'.held (·.isIn id) ≠ [] → id ∈ (past ++ effect).answered ++ e'.waiting := by
  intro id hne
  -- who is taken or waits is answered or waits afterwards
  have hmoves : id ∈ input.calls.map (·.1) ++ e.waiting →
      id ∈ (past ++ effect).answered ++ e'.waiting := by
    intro hid
    have := hturn.answered_perm.subset hid
    rw [Effect.answered_append, List.append_assoc]
    exact List.mem_append_right _ this
  by_cases hnew : id ∈ input.calls.map (·.1)
  · exact hmoves (List.mem_append_left _ hnew)
  · by_cases hwaits : id ∈ e.waits .collection
    · exact hmoves (List.mem_append_right _ (mem_waiting.mpr ⟨_, hwaits⟩))
    · rw [h.held_isIn hnew hwaits] at hne
      rcases List.mem_append.mp (hb.known id hne) with hid | hid
      · rw [Effect.answered_append]
        exact List.mem_append_left _ (List.mem_append_left _ hid)
      · exact hmoves (List.mem_append_right _ hid)

/-- A turn keeps the books. -/
theorem Custody.books (h : Custody t target now e input e' effect ledger ledger')
    (hturn : Turn t target now e input e' effect) (hinbox : e.inbox = ledger.unclaimed)
    (hb : Books ledger e past) (hf : Fresh input e past) :
    Books ledger' e' (past ++ effect) :=
  ⟨h.opened hinbox hb hf, h.collected hb hf, h.returned hb hf, h.known hturn hb⟩

theorem Custody.length_inbox_le (h : Custody t target now e input e' effect ledger ledger')
    (hinbox : e.inbox = ledger.unclaimed) (hle : e.inbox.length ≤ t.inboxCapacity) :
    e'.inbox.length ≤ t.inboxCapacity := by
  cases h with
  | untouched _ inbox | gathered _ _ inbox | handed _ _ _ _ inbox => rwa [inbox]
  | completed => exact hle
  | discarded inbox | swept _ inbox =>
    rw [inbox]
    exact Nat.zero_le _
  | claimed _ _ inbox =>
    rw [hinbox] at hle
    simp only [inbox, Ledger.unclaimed, Ledger.held_append, Ledger.held_cons, decide_true,
      if_true, List.length_append, List.length_cons, List.length_nil] at hle ⊢
    omega
  | buffered _ _ _ room inbox =>
    rw [inbox, List.length_append, List.length_singleton]
    omega
  | evicted _ _ _ _ _ inbox =>
    rw [hinbox] at hle
    simp only [inbox, Ledger.unclaimed, Ledger.held_append, Ledger.held_cons, decide_true,
      if_true, List.length_append, List.length_cons, List.length_nil] at hle ⊢
    omega

end Engine

namespace Link

/-! ## The ledger of a run -/

/-- The ledger after an act. -/
def record (l : Link) (now : Instant) (a : Act) (ledger : Ledger) : Ledger :=
  match l.input? a with
  | some input => l.engine.record l.tuning l.target now input ledger
  | none => ledger

def recordAll : List (Instant × Act) → Link → Ledger → Ledger
  | [], _, ledger => ledger
  | (now, a) :: acts, l, ledger => recordAll acts (l.act now a).1 (l.record now a ledger)

/-- The ledger after the acts `past`. -/
def ledger (past : List (Instant × Act)) (start : Link) : Ledger := recordAll past start []

theorem recordAll_append (first others : List (Instant × Act)) (l : Link) (ledger : Ledger) :
    recordAll (first ++ others) l ledger =
      recordAll others (actAll first l).1 (recordAll first l ledger) := by
  induction first generalizing l ledger with
  | nil => rfl
  | cons a first ih =>
    obtain ⟨now, a⟩ := a
    simp only [List.cons_append, recordAll, actAll, ih]

theorem ledger_concat (past : List (Instant × Act)) (now : Instant) (a : Act) (start : Link) :
    ledger (past ++ [(now, a)]) start =
      (actAll past start).1.record now a (ledger past start) := by
  rw [ledger, recordAll_append]
  rfl

variable {now : Instant} {l l' : Link} {a : Act} {effect : Effect}

/-- Either the engine takes a turn, or no response is touched and the engine stays as it is or
stops. -/
theorem Step.turn_or_quiet (h : Step now l a l' effect) :
    (∃ e e' input, l.phase = .running e ∧ l'.phase = .running e' ∧ l.input? a = some input ∧
      Engine.Turn l.tuning l.target now e input e' effect) ∨
    (l.input? a = none ∧ effect.Plain ∧
      (l'.phase = l.phase ∨ ∃ cause, l'.phase = .stopped cause)) := by
  cases h with
  | requested alive =>
    exact .inr ⟨by simp [input?, alive, Act.input?], Effect.plain_none, .inl rfl⟩
  | refused dead => exact .inr ⟨by simp [input?, dead], Effect.plain_reply _ rfl, .inl rfl⟩
  | shutdownRequested alive | retargeted alive =>
    exact .inr ⟨by simp [input?, alive, Act.input?], Effect.plain_none, .inl rfl⟩
  | taken alive head turn => exact .inl ⟨_, _, _, alive, rfl, by simp [input?, alive, head], turn⟩
  | worked alive input_eq turn =>
    exact .inl ⟨_, _, _, alive, rfl, input?_of_worked alive input_eq, turn⟩
  | stopped alive =>
    exact .inr ⟨by simp [input?, alive, Act.input?], plain_stop _ _ _, .inr ⟨_, rfl⟩⟩
  | shutDown alive head =>
    exact .inr ⟨by simp [input?, alive, head, Act.input?], plain_stop _ _ _, .inr ⟨_, rfl⟩⟩
  | idle alive empty =>
    exact .inr ⟨by simp [input?, alive, empty, Act.input?], Effect.plain_none, .inl rfl⟩
  | ended dead other => exact .inr ⟨by simp [input?, dead], Effect.plain_none, .inl rfl⟩

theorem Step.tuning (h : Step now l a l' effect) : l'.tuning = l.tuning := by
  cases h <;> rfl

theorem tuning_actAll (past : List (Instant × Act)) (start : Link) :
    (actAll past start).1.tuning = start.tuning :=
  actAll_keeps (fun l => l.tuning = start.tuning) (fun hstep hl => hstep.tuning.trans hl) past
    start rfl

theorem tuning_step (now : Instant) (event : Event) (l : Link) :
    (l.step now event).1.tuning = l.tuning := by
  rw [step_eq_actAll]
  exact tuning_actAll _ l

theorem tuning_run (events : List (Instant × Event)) (l : Link) :
    (run events l).1.tuning = l.tuning := by
  rw [run_eq_actAll]
  exact tuning_actAll _ l

theorem arriving_of_some {input : Engine.Input} (h : l.input? a = some input) :
    arriving l now a = input.arriving l.tuning := by
  cases hp : l.phase with
  | stopped cause => simp [input?, hp] at h
  | running e =>
    simp only [input?, hp] at h
    split at h
    · cases h
      simp [arriving, hp, Engine.Input.arriving]
    · exact arriving_of_input? hp h
    · rename_i hstop
      cases hstop

theorem arriving_of_none (h : l.input? a = none) : arriving l now a = [] := by
  cases hp : l.phase with
  | stopped cause => simp [arriving, hp]
  | running e =>
    cases a with
    | dispatch f => simp [input?, hp, Act.input?] at h
    | _ => simp [arriving, hp]

theorem queued_of_input? {input : Engine.Input} (h : l.input? a = some input) :
    ∀ id ∈ input.calls.map (·.1), id ∈ queuedIn l.queue := by
  intro id hid
  simp only [input?] at h
  split at h
  · rename_i call queue _ hq
    cases h
    rw [hq, List.mem_singleton.mp hid]
    exact List.mem_cons_self
  · rw [(calls_of_input? h).2] at hid
    cases hid
  · cases h

/-- What is taken out of the queue is queued no more, and answered or waiting not yet. -/
theorem fresh_of_nodup {t : Tuning} {target : Address} {past : List (Instant × Act)}
    {input : Engine.Input} (h : actAll past (opened t target) = (l, effect))
    (distinct : (issued past).Nodup) (hinput : l.input? a = some input) :
    Engine.Fresh input l.engine effect := by
  refine ⟨?_, ?_⟩
  · intro id hid hanswered
    have := count_le_one h distinct id
    have := List.count_pos_iff.mpr hanswered
    rcases List.mem_append.mp hid with hid | hid
    · have := List.count_pos_iff.mpr (queued_of_input? hinput id hid)
      omega
    · have := List.count_pos_iff.mpr hid
      omega
  · intro id hid hwaits
    have := count_le_one h distinct id
    have := List.count_pos_iff.mpr (queued_of_input? hinput id hid)
    have := List.count_pos_iff.mpr hwaits
    omega

/-! ## Accounts -/

/-- Where the responses are at a point of a run with the acts `past`, whose inbox has this
capacity. -/
structure Accounted (capacity : Nat) (past : List (Instant × Act)) (start l : Link)
    (effect : Effect) : Prop where
  /-- The ledger has one entry, and so one fate, for each response that has arrived. -/
  arrivals : (ledger past start).map (·.octets) = arrived past start
  /-- The inbox holds the unclaimed ones. -/
  inbox : ∀ e, l.phase = .running e → e.inbox = (ledger past start).unclaimed
  /-- When the engine has stopped, it held them when it stopped. -/
  remained : ∀ cause, l.phase = .stopped cause → ∃ before last e, before ++ [last] <+: past ∧
    (actAll before start).1.phase = .running e ∧
    (actAll (before ++ [last]) start).1.phase = .stopped cause ∧
    e.inbox = (ledger past start).unclaimed
  /-- Collections and answers hold the entries whose fate names them. -/
  books : Engine.Books (ledger past start) l.engine effect
  /-- No receive returns two. -/
  once : ∀ id, ((ledger past start).held (· = .returned id)).length ≤ 1
  /-- A fate other than unclaimed does not change any more. -/
  final : ∀ before, before <+: past → ∀ (i : Nat) (x : Entry),
    (ledger before start)[i]? = some x → x.fate ≠ .unclaimed → (ledger past start)[i]? = some x
  bounded : l.engine.inbox.length ≤ capacity ∧ l.tuning.inboxCapacity = capacity
  /-- What the next act does with responses has one of the reasons that `Custody` names. -/
  follows : ∀ now a,
    (∃ input, l.input? a = some input ∧
      Engine.Custody l.tuning l.target now l.engine input (l.act now a).1.engine
        (l.act now a).2 (ledger past start) (ledger (past ++ [(now, a)]) start)) ∨
    l.input? a = none ∧ ledger (past ++ [(now, a)]) start = ledger past start

theorem engine_of_phase_eq (h : l'.phase = l.phase) : l'.engine = l.engine := by
  simp [engine, h]

theorem Step.turn_or_same (h : Step now l a l' effect) :
    (∃ input, l.input? a = some input ∧
      Engine.Turn l.tuning l.target now l.engine input l'.engine effect) ∨
    (l.input? a = none ∧ (l'.engine = l.engine ∨ ∃ cause, l'.phase = .stopped cause)) := by
  rcases h.turn_or_quiet with
    ⟨e, e', input, alive, alive', hinput, turn⟩ | ⟨hnone, -, hsame | hstop⟩
  · rw [engine_of_running alive, engine_of_running alive']
    exact .inl ⟨input, hinput, turn⟩
  · exact .inr ⟨hnone, .inl (engine_of_phase_eq hsame)⟩
  · exact .inr ⟨hnone, .inr hstop⟩

/-- An act either is a turn of the engine, which the ledger follows, or touches no response. -/
theorem record_cases (now : Instant) (a : Act) {ledger : Ledger}
    (hinbox : ∀ e, l.phase = .running e → e.inbox = ledger.unclaimed)
    (hpositive : 0 < l.tuning.inboxCapacity) :
    (∃ input, l.input? a = some input ∧ (∃ e, (l.act now a).1.phase = .running e) ∧
      l.engine.inbox = ledger.unclaimed ∧
      Engine.Turn l.tuning l.target now l.engine input (l.act now a).1.engine (l.act now a).2 ∧
      Engine.Custody l.tuning l.target now l.engine input (l.act now a).1.engine
        (l.act now a).2 ledger (l.record now a ledger)) ∨
    l.input? a = none ∧ l.record now a ledger = ledger ∧ (l.act now a).2.Plain ∧
      ((l.act now a).1.phase = l.phase ∨ ∃ cause, (l.act now a).1.phase = .stopped cause) := by
  rcases (step_act now a l).turn_or_quiet with
    ⟨e, e', input, alive, alive', hinput, turn⟩ | ⟨hnone, plain, hphase⟩
  · have hbox := hinbox e alive
    rw [← engine_of_running alive] at turn hbox
    rw [← engine_of_running alive'] at turn
    refine .inl ⟨input, hinput, ⟨e', alive'⟩, hbox, turn, ?_⟩
    have hrecord : l.record now a ledger =
        l.engine.record l.tuning l.target now input ledger := by
      simp only [record, hinput]
    rw [hrecord]
    exact turn.custody hbox hpositive
  · exact .inr ⟨hnone, by simp only [record, hnone], plain, hphase⟩

/-- Who waits is answered by an act or waits after it. -/
theorem Step.waiting_subset (h : Step now l a l' effect) {id : CallId}
    (hid : id ∈ l.engine.waiting) : id ∈ effect.answered ++ l'.engine.waiting := by
  cases h with
  | taken alive head turn | worked alive input_eq turn =>
    rw [engine_of_running alive] at hid
    exact turn.answered_perm.subset (List.mem_append_right _ hid)
  | stopped alive | shutDown alive head =>
    rw [engine_of_running alive] at hid
    rw [answered_stop]
    exact List.mem_append_left _ (List.mem_append_left _ hid)
  | requested alive | shutdownRequested alive | retargeted alive =>
    rw [engine_of_running alive] at hid
    simpa [engine, alive] using hid
  | refused | idle | ended => exact List.mem_append_right _ hid

/-- An act that touches no response and opens no collection keeps the books. -/
theorem books_of_quiet {ledger : Ledger} {past : Effect} (hb : Engine.Books ledger l.engine past)
    (hstep : Step now l a l' effect) (hplain : effect.Plain)
    (hopen : l'.engine.collections ⊆ l.engine.collections) :
    Engine.Books ledger l'.engine (past ++ effect) := by
  refine ⟨fun c hc => hb.opened c (hopen hc), ?_, ?_, ?_⟩
  · intro id frames hr
    rcases List.mem_append.mp hr with hr | hr
    · exact hb.collected id frames hr
    · have := hplain _ hr
      simp [Answer.isPlain] at this
  · intro id
    rw [Effect.returnedBy_append, Effect.returnedBy_of_plain hplain, List.append_nil]
    exact hb.returned id
  · intro id hne
    rw [Effect.answered_append, List.append_assoc]
    rcases List.mem_append.mp (hb.known id hne) with hid | hid
    · exact List.mem_append_left _ hid
    · exact List.mem_append_right _ (hstep.waiting_subset hid)

section
variable {ledger : Ledger} (hinbox : ∀ e, l.phase = .running e → e.inbox = ledger.unclaimed)
  (hpositive : 0 < l.tuning.inboxCapacity) (now : Instant) (a : Act)
include hinbox hpositive

theorem record_arrivals :
    (l.record now a ledger).map (·.octets) = ledger.map (·.octets) ++ arriving l now a := by
  rcases record_cases now a hinbox hpositive with ⟨input, hi, -, -, -, hc⟩ | ⟨hn, hr, -, -⟩
  · rw [hc.arrivals, arriving_of_some hi]
  · rw [hr, arriving_of_none hn, List.append_nil]

theorem record_inbox (e : Engine) (he : (l.act now a).1.phase = .running e) :
    e.inbox = (l.record now a ledger).unclaimed := by
  rcases record_cases now a hinbox hpositive with ⟨input, hi, -, hb, -, hc⟩ | ⟨hn, hr, -, hphase⟩
  · have := hc.inbox hb
    rwa [engine_of_running he] at this
  · rw [hr]
    rcases hphase with hsame | ⟨cause, hstop⟩
    · exact hinbox e (hsame.symm.trans he)
    · rw [hstop] at he
      cases he

theorem record_final {i : Nat} {x : Entry} (hx : ledger[i]? = some x)
    (hf : x.fate ≠ .unclaimed) : (l.record now a ledger)[i]? = some x := by
  rcases record_cases now a hinbox hpositive with ⟨input, hi, -, -, -, hc⟩ | ⟨hn, hr, -, -⟩
  · exact hc.final hx hf
  · rw [hr, hx]

theorem length_inbox_act_le (hle : l.engine.inbox.length ≤ l.tuning.inboxCapacity) :
    (l.act now a).1.engine.inbox.length ≤ l.tuning.inboxCapacity := by
  rcases record_cases now a hinbox hpositive with ⟨input, hi, -, hb, -, hc⟩ | ⟨hn, hr, -, hphase⟩
  · exact hc.length_inbox_le hb hle
  · rcases hphase with hsame | ⟨cause, hstop⟩
    · rwa [engine_of_phase_eq hsame]
    · rw [engine_of_stopped hstop]
      exact Nat.zero_le _

theorem record_books {past : Effect} (hb : Engine.Books ledger l.engine past)
    (hfresh : ∀ input, l.input? a = some input → Engine.Fresh input l.engine past) :
    Engine.Books (l.record now a ledger) (l.act now a).1.engine (past ++ (l.act now a).2) := by
  rcases record_cases now a hinbox hpositive with
    ⟨input, hi, -, hbox, turn, hc⟩ | ⟨hn, hr, hplain, hphase⟩
  · exact hc.books turn hbox hb (hfresh input hi)
  · rw [hr]
    refine books_of_quiet hb (step_act now a l) hplain ?_
    rcases hphase with hsame | ⟨cause, hstop⟩
    · rw [engine_of_phase_eq hsame]
      exact List.Subset.refl _
    · rw [engine_of_stopped hstop]
      exact List.nil_subset _

/-- The engine stops with what is unclaimed in its inbox. -/
theorem record_of_stop {e : Engine} {cause : Stop} (he : l.phase = .running e)
    (hstop : (l.act now a).1.phase = .stopped cause) :
    e.inbox = (l.record now a ledger).unclaimed := by
  rcases record_cases now a hinbox hpositive with ⟨input, -, ⟨e', he'⟩, -⟩ | ⟨hn, hr, -, -⟩
  · rw [hstop] at he'
    cases he'
  · rw [hr, hinbox e he]

end

theorem act_of_stopped {cause : Stop} (h : l.phase = .stopped cause) (now : Instant) (a : Act)
    (ledger : Ledger) : (l.act now a).1 = l ∧ l.record now a ledger = ledger := by
  refine ⟨?_, by simp [record, input?, h]⟩
  cases a <;> simp [act, h]

theorem accounted_nil {t : Tuning} {target : Address} (hpositive : 0 < t.inboxCapacity) :
    Accounted t.inboxCapacity [] (opened t target) (opened t target) .none := by
  have hinbox : ∀ e, (opened t target).phase = .running e →
      e.inbox = (ledger [] (opened t target)).unclaimed := by
    intro e he
    cases he
    rfl
  refine ⟨rfl, hinbox, ?_, ⟨?_, ?_, ?_, ?_⟩, ?_, ?_, ?_, ?_⟩
  · intro cause hstop
    cases hstop
  · intro c hc
    cases hc
  · intro id frames hr
    cases hr
  · intro id
    rfl
  · intro id hne
    exact absurd rfl hne
  · intro id
    exact Nat.zero_le _
  · intro before hbefore i x hx
    rw [List.prefix_nil.mp hbefore] at hx
    cases hx
  · exact ⟨Nat.zero_le _, rfl⟩
  · intro now a
    rw [ledger_concat]
    rcases record_cases now a hinbox hpositive with ⟨input, hi, -, -, -, hc⟩ | ⟨hn, hr, -, -⟩
    · exact .inl ⟨input, hi, hc⟩
    · exact .inr ⟨hn, hr⟩

theorem Accounted.concat {capacity : Nat} {past : List (Instant × Act)} {start : Link}
    (ha : Accounted capacity past start l effect) (h : actAll past start = (l, effect))
    (hpositive : 0 < capacity) (now : Instant) (a : Act)
    (hfresh : ∀ input, l.input? a = some input → Engine.Fresh input l.engine effect)
    (honce : (effect ++ (l.act now a).2).answered.Nodup) :
    Accounted capacity (past ++ [(now, a)]) start (l.act now a).1 (effect ++ (l.act now a).2) := by
  have hledger : ledger (past ++ [(now, a)]) start = l.record now a (ledger past start) := by
    rw [ledger_concat, h]
  have hcapacity : (l.act now a).1.tuning.inboxCapacity = capacity := by
    rw [(step_act now a l).tuning, ha.bounded.2]
  have hroom : 0 < l.tuning.inboxCapacity := ha.bounded.2 ▸ hpositive
  have hinbox := record_inbox ha.inbox hroom now a
  have hbooks := record_books ha.inbox hroom now a ha.books hfresh
  rw [← hledger] at hinbox hbooks
  refine ⟨?_, hinbox, ?_, hbooks, ?_, ?_, ⟨?_, hcapacity⟩, ?_⟩
  · rw [hledger, record_arrivals ha.inbox hroom, ha.arrivals, arrived, arrived, log_concat, h]
  · intro cause hstop
    rw [hledger]
    cases hp : l.phase with
    | running e =>
      refine ⟨past, (now, a), e, List.prefix_rfl, by rw [h]; exact hp, ?_, ?_⟩
      · rw [actAll_concat, h]
        exact hstop
      · exact record_of_stop ha.inbox hroom now a hp hstop
    | stopped earlier =>
      obtain ⟨hsame, hr⟩ := act_of_stopped hp now a (ledger past start)
      rw [hr]
      rw [hsame] at hstop
      obtain ⟨before, last, e, hprefix, hrest⟩ := ha.remained cause hstop
      exact ⟨before, last, e, hprefix.trans (List.prefix_append _ _), hrest⟩
  · intro id
    have hle := (effect ++ (l.act now a).2).length_returnedBy_le id
    have hone := List.nodup_iff_count.mp honce id
    rw [← hbooks.returned id]
    omega
  · intro before hbefore i x hx hf
    rcases List.prefix_concat_iff.mp hbefore with rfl | hbefore
    · exact hx
    · rw [hledger]
      exact record_final ha.inbox hroom now a (ha.final before hbefore i x hx hf) hf
  · have := length_inbox_act_le ha.inbox hroom now a (by rw [ha.bounded.2]; exact ha.bounded.1)
    rwa [ha.bounded.2] at this
  · intro later b
    have hnext : ledger (past ++ [(now, a)] ++ [(later, b)]) start =
        (l.act now a).1.record later b (ledger (past ++ [(now, a)]) start) := by
      rw [ledger_concat (past ++ [(now, a)]) later b start, actAll_concat, h]
    rw [hnext]
    rcases record_cases later b hinbox (hcapacity ▸ hpositive) with
      ⟨input, hi, -, -, -, hc⟩ | ⟨hn, hr, -, -⟩
    · exact .inl ⟨input, hi, hc⟩
    · exact .inr ⟨hn, hr⟩

theorem accounted_of_nodup {t : Tuning} {target : Address} (hpositive : 0 < t.inboxCapacity)
    (past : List (Instant × Act)) (distinct : (issued past).Nodup) :
    Accounted t.inboxCapacity past (opened t target) (actAll past (opened t target)).1
      (actAll past (opened t target)).2 := by
  induction past using List.reverseRecOn with
  | nil => exact accounted_nil hpositive
  | append_singleton past x ih =>
    obtain ⟨now, a⟩ := x
    have hpast : (issued past).Nodup := by
      rw [issued_append] at distinct
      exact (List.nodup_append.mp distinct).1
    have hsettled : Settled (past ++ [(now, a)]) (opened t target)
        (actAll (past ++ [(now, a)]) (opened t target)).1
        (actAll (past ++ [(now, a)]) (opened t target)).2 := settled_of_nodup rfl distinct
    have honce := hsettled.once
    rw [actAll_concat] at honce ⊢
    exact (ih hpast).concat rfl hpositive now a
      (fun input hi => fresh_of_nodup rfl hpast hi) honce

/-- At every point of every run each response that has arrived has one fate, which the inbox,
the collections and the answers bear out, and which changes only for the reasons of
`Custody`. -/
theorem every_response_accounted (source : Address) (settings : Settings) (target : Address)
    (events : List (Instant × Event)) (distinct : (requested events).Nodup)
    (past : List (Instant × Act)) (l : Link) (effect : Effect)
    (point : Point events (opened (.ofSettings source settings) target) past l effect) :
    Accounted (max 1 settings.inboxCapacity.toNat) past
      (opened (.ofSettings source settings) target) l effect := by
  have hcapacity : (Tuning.ofSettings source settings).inboxCapacity =
      max 1 settings.inboxCapacity.toNat := Nat.max_comm _ _
  have hpositive : 0 < (Tuning.ofSettings source settings).inboxCapacity := by
    rw [hcapacity]
    omega
  have hall : Accounted _ past (opened (.ofSettings source settings) target) _ _ :=
    accounted_of_nodup hpositive past (point.distinct distinct)
  rwa [point.reached, hcapacity] at hall

/-- Three responses for an inbox of two: the first is evicted, a receive returns the second,
and a collection takes the third. -/
def overflowRun : List (Instant × Event) :=
  [(0, .read [0x02, 0xFD, 0x80, 0x01, 0, 0, 0, 5, 0x06, 0x80, 0x0E, 0x00, 0x50]),
    (1, .read [0x02, 0xFD, 0x80, 0x01, 0, 0, 0, 5, 0x06, 0x80, 0x0E, 0x00, 0x51]),
    (2, .read [0x02, 0xFD, 0x80, 0x01, 0, 0, 0, 5, 0x06, 0x80, 0x0E, 0x00, 0x51]),
    (3, .request 1 (.receive none)), (3, .take),
    (4, .request 2 (.collect (.ofMillis 10))), (4, .take)]

theorem overflowRun_accounted :
    (requested overflowRun).Nodup ∧
      Accounted 2 (history overflowRun (opened (.ofSettings 0x0E00 { inboxCapacity := 2 }) 0x0680))
        (opened (.ofSettings 0x0E00 { inboxCapacity := 2 }) 0x0680)
        (run overflowRun (opened (.ofSettings 0x0E00 { inboxCapacity := 2 }) 0x0680)).1
        (run overflowRun (opened (.ofSettings 0x0E00 { inboxCapacity := 2 }) 0x0680)).2 :=
  ⟨by decide, every_response_accounted 0x0E00 { inboxCapacity := 2 } 0x0680 overflowRun (by decide)
    _ _ _ (point_run _ _)⟩

example :
    (ledger (history overflowRun (opened (.ofSettings 0x0E00 { inboxCapacity := 2 }) 0x0680))
      (opened (.ofSettings 0x0E00 { inboxCapacity := 2 }) 0x0680)).map (·.fate) =
      [.evicted, .returned 1, .swept 2] := by
  decide +kernel

end Link
end Doip
