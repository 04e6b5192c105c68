import Doip.Proofs.Link.Collecting
import Doip.Proofs.Link.Deadlines

/-! # A new request gets no old answer

A send makes stale what has arrived before it. The engine can keep a response in its inbox and a
response pending as an instant, and a send empties both (`clean_of_sent`). So every response that
has arrived has its final fate at the send, and the entries that the ledger gets after it
(`ledger_since`) are all that a call taken later can return. What moves the deadline of such a
call has come after the send as well (`wait_eq`). -/
namespace Doip

theorem Engine.Turn.clean_of_send {t : Tuning} {target receiver : Address} {now : Instant}
    {e e' : Engine} {id : CallId} {data : Octets} {timeout : Option Duration} {effect : Effect}
    (h : Turn t target now e (.start id (.send receiver data timeout)) e' effect) :
    e'.inbox = [] ∧ e'.pendingAt = none := by
  cases h
  exact ⟨rfl, rfl⟩

namespace Link

variable {t : Tuning} {target : Address} {first since : List (Instant × Act)} {now time : Instant}
  {a : Act} {id : CallId} {timeout : Option Duration}

/-! ## Calls taken later -/

/-- A call that is taken later has neither been answered before nor waits. -/
theorem new_of_taken_since (distinct : (issued (first ++ since)).Nodup)
    (h : id ∈ (taken since (actAll first (opened t target)).1).map (·.1)) :
    id ∉ (actAll first (opened t target)).2.answered ++
      (actAll first (opened t target)).1.engine.waiting := by
  have hnodup : ((taken (first ++ since) (opened t target)).map (·.1)).Nodup :=
    nodup_taken distinct
  rw [taken, log_append, List.map_append] at hnodup
  intro hmem
  rcases List.mem_append.mp hmem with hanswered | hwaiting
  · obtain ⟨⟨id', call⟩, hcall, rfl⟩ := List.mem_map.mp h
    obtain ⟨earlier, time, a, later, rfl, htaking⟩ := mem_log hcall
    have hdistinct : (issued (first ++ earlier)).Nodup :=
      distinct_of_prefix ⟨(time, a) :: later, by rw [List.append_assoc]⟩ distinct
    rw [← congrArg Prod.fst (actAll_append first earlier (opened t target))] at htaking
    have hfresh := fresh_of_nodup rfl hdistinct (input?_of_taking htaking)
    refine hfresh.unanswered id' (by simp [Engine.Input.calls]) ?_
    rw [actAll_append, Effect.answered_append]
    exact List.mem_append_left _ hanswered
  · exact (List.nodup_append.mp hnodup).2.2 id (taken_of_waiting hwaiting) id h rfl

/-! ## The ledger since a send -/

theorem fate_ne_of_unclaimed_eq_nil {ledger : Ledger} (h : ledger.unclaimed = []) {x : Entry}
    (hx : x ∈ ledger) : x.fate ≠ .unclaimed := by
  intro hfate
  rw [Ledger.unclaimed, Ledger.held, List.map_eq_nil_iff, List.filter_eq_nil_iff] at h
  exact h x hx (by simpa using hfate)

/-- Once nothing is unclaimed, the ledger only grows. -/
theorem ledger_since (hpositive : 0 < t.inboxCapacity) (distinct : (issued (first ++ since)).Nodup)
    (clean : (ledger first (opened t target)).unclaimed = []) :
    ∃ recent, ledger (first ++ since) (opened t target) = ledger first (opened t target) ++ recent ∧
      recent.map (·.octets) = arrived since (actAll first (opened t target)).1 := by
  have hdistinct := distinct_of_prefix (List.prefix_append first since) distinct
  have hall : Accounted _ (first ++ since) (opened t target) _ _ :=
    accounted_of_nodup hpositive _ distinct
  have hfirst : Accounted _ first (opened t target) _ _ :=
    accounted_of_nodup hpositive _ hdistinct
  have hprefix : ledger first (opened t target) <+: ledger (first ++ since) (opened t target) := by
    refine List.prefix_iff_getElem?.mpr fun i hi => ?_
    exact hall.final first (List.prefix_append _ _) i _ (List.getElem?_eq_getElem hi)
      (fate_ne_of_unclaimed_eq_nil clean (List.getElem_mem hi))
  obtain ⟨recent, hrecent⟩ := hprefix
  refine ⟨recent, hrecent.symm, ?_⟩
  have hsplit : arrived (first ++ since) (opened t target) =
      arrived first (opened t target) ++ arrived since (actAll first (opened t target)).1 :=
    log_append _ _ _ _
  have harrivals := hall.arrivals
  rw [← hrecent, List.map_append, hfirst.arrivals, hsplit] at harrivals
  exact List.append_cancel_left harrivals

/-- The fate of an entry does not name a call that is taken later. -/
theorem held_of_new (hpositive : 0 < t.inboxCapacity) (distinct : (issued first).Nodup)
    (new : id ∉ (actAll first (opened t target)).2.answered ++
      (actAll first (opened t target)).1.engine.waiting) :
    (ledger first (opened t target)).held (· = .returned id) = [] ∧
      (ledger first (opened t target)).held (·.isIn id) = [] := by
  have hfirst : Accounted _ first (opened t target) _ _ :=
    accounted_of_nodup hpositive _ distinct
  have hbooks := hfirst.books
  refine ⟨?_, ?_⟩
  · rw [← hbooks.returned id]
    exact Effect.returnedBy_of_not_answered fun h => new (List.mem_append_left _ h)
  · by_contra hne
    exact new (hbooks.known id hne)

/-! ## The deadlines of receives -/

/-- When response pendings of the target come while the receive `id` waits longest. -/
def restarts (id : CallId) (acts : List (Instant × Act)) (l : Link) : List Instant :=
  log (fun l now a =>
    if l.prolongs a = true ∧ (l.engine.waits .receive).head? = some id then [now] else []) acts l

/-- The wait, its timer restarted at these instants. -/
def extendAll (p2Star : Duration) (w : ReceiveWait) (instants : List Instant) : ReceiveWait :=
  instants.foldl (·.extend · p2Star) w

theorem extendAll_concat (p2Star : Duration) (w : ReceiveWait) (instants : List Instant)
    (now : Instant) :
    extendAll p2Star w (instants ++ [now]) = (extendAll p2Star w instants).extend now p2Star := by
  rw [extendAll, List.foldl_append]
  rfl

/-- What an act leaves of a receive that has waited before. -/
theorem Step.receive_from {l l' : Link} {effect : Effect} (h : Step now l a l' effect)
    (hnodup : (l.engine.waits .receive).Nodup) {w : ReceiveWait} (hw : w ∈ l'.engine.receives)
    (hold : w.call ∉ (taking l now a).map (·.1)) :
    ∃ old ∈ l.engine.receives, old.call = w.call ∧
      w = if l.prolongs a = true ∧ (l.engine.waits .receive).head? = some old.call then
        old.extend now l.tuning.p2Star else old := by
  rcases h.turn_or_same with ⟨input, hinput, turn⟩ | ⟨hnone, hsame | ⟨cause, hstop⟩⟩
  · have hprolongs : l.prolongs a = Engine.prolongs l.tuning l.target input := by
      rw [prolongs, hinput, Option.any_some]
    rw [hprolongs]
    cases hp : Engine.prolongs l.tuning l.target input with
    | true =>
      rw [turn.receives_eq_of_prolongs hp] at hw
      rw [Engine.waits] at hnodup ⊢
      cases hreceives : l.engine.receives with
      | nil =>
        rw [hreceives] at hw
        cases hw
      | cons first others =>
        rw [hreceives, List.modifyHead_cons] at hw
        rw [hreceives, List.map_cons, List.nodup_cons] at hnodup
        rcases List.mem_cons.mp hw with rfl | hw
        · exact ⟨first, List.mem_cons_self, (Engine.call_extend _ _).symm, by simp⟩
        · refine ⟨w, List.mem_cons_of_mem _ hw, rfl, ?_⟩
          have hother : first.call ≠ w.call := fun heq =>
            hnodup.1 (heq ▸ List.mem_map_of_mem hw)
          simp [hother]
    | false =>
      rcases turn.mem_receives_of_not_prolongs hp hw with hw | ⟨timeout, rfl, -⟩
      · exact ⟨w, hw, rfl, by simp⟩
      · rw [taking_of_start hinput] at hold
        exact absurd (List.mem_singleton_self w.call) hold
  · rw [hsame] at hw
    exact ⟨w, hw, rfl, by simp [prolongs, hnone]⟩
  · rw [engine_of_stopped hstop] at hw
    cases hw

/-- While a receive waits, its wait is the one with which it was taken, restarted at the response
pendings that have come since while it waited longest. -/
theorem wait_eq {later : List (Instant × Act)}
    (distinct : (issued (first ++ (time, .take) :: later)).Nodup)
    (htaking : (id, .receive timeout) ∈ taking (actAll first (opened t target)).1 time .take)
    {w : ReceiveWait}
    (hw : w ∈ (actAll (first ++ (time, .take) :: later) (opened t target)).1.engine.receives)
    (hid : w.call = id) :
    w = extendAll t.p2Star
      (Engine.receiveWait t time id timeout (actAll first (opened t target)).1.engine.pendingAt)
      (restarts id later (actAll (first ++ [(time, .take)]) (opened t target)).1) := by
  induction later using List.reverseRecOn generalizing w with
  | nil =>
    have hinput := input?_of_taking htaking
    have hfirst := distinct_of_prefix (List.prefix_append _ _) distinct
    rw [actAll_concat] at hw
    rcases (step_act time .take (actAll first (opened t target)).1).turn_or_same with
      ⟨input, hinput', turn⟩ | ⟨hnone, -⟩
    · rw [hinput] at hinput'
      cases hinput'
      rcases turn.mem_receives_of_not_prolongs rfl hw with hold | ⟨timeout', heq, hwait⟩
      · have hnew := (fresh_of_nodup rfl hfirst hinput).new id (by simp [Engine.Input.calls])
        exact absurd (Engine.mem_waiting.mpr ⟨.receive, List.mem_map.mpr ⟨w, hold, hid⟩⟩) hnew
      · cases heq
        rwa [tuning_actAll] at hwait
    · rw [hinput] at hnone
      cases hnone
  | append_singleton later x ih =>
    obtain ⟨now, a⟩ := x
    have hassoc : first ++ (time, .take) :: (later ++ [(now, a)]) =
        (first ++ (time, .take) :: later) ++ [(now, a)] := by
      rw [List.append_assoc, List.cons_append]
    rw [hassoc] at distinct hw
    have hpast := distinct_of_prefix (List.prefix_append _ _) distinct
    have htaken : id ∈ (taken (first ++ (time, .take) :: later) (opened t target)).map (·.1) := by
      rw [List.append_cons]
      refine List.map_subset _ (taken_subset (List.prefix_append _ _)) ?_
      rw [taken_concat]
      exact List.mem_map.mpr ⟨_, List.mem_append_right _ htaking, rfl⟩
    rw [actAll_concat] at hw
    obtain ⟨old, hold, hcall, rfl⟩ := (step_act now a _).receive_from
      (nodup_waits rfl hpast .receive) hw (hid ▸ not_taking_of_taken distinct htaken)
    have hwait := ih hpast hold (hcall.trans hid)
    rw [restarts, log_concat, ← actAll_split, ← hid, ← hcall, tuning_actAll]
    rw [restarts, ← hid, ← hcall] at hwait
    split
    · rw [extendAll_concat, ← hwait]
      rfl
    · rw [List.append_nil]
      exact hwait

/-! ## Afresh -/

theorem clean_of_sent {receiver : Address} {data : Octets}
    (htaking : (id, .send receiver data timeout) ∈ taking (actAll first (opened t target)).1 now a) :
    ∃ e, (actAll (first ++ [(now, a)]) (opened t target)).1.phase = .running e ∧ e.inbox = [] ∧
      e.pendingAt = none := by
  have hinput := input?_of_taking htaking
  rw [actAll_concat]
  rcases (step_act now a (actAll first (opened t target)).1).turn_or_quiet with
    ⟨e, e', input, -, alive', hinput', turn⟩ | ⟨hnone, -⟩
  · rw [hinput] at hinput'
    cases hinput'
    exact ⟨e', alive', turn.clean_of_send⟩
  · rw [hinput] at hnone
    cases hnone

/-- What the calls that are taken in `since`, after the link was `sent`, get and wait for: nothing
of it is from before. `recent` is what the ledger has got since then. -/
structure Afresh (since : List (Instant × Act)) (sent : Link) (recent : Ledger) (l : Link)
    (effect : Effect) : Prop where
  /-- The responses that have arrived since then, which are frames dispatched since then. -/
  arrivals : recent.map (·.octets) = arrived since sent
  dispatched : (arrived since sent).Sublist ((dispatched since).map Frame.encode)
  /-- A receive has returned what is recorded of it since then. -/
  received : ∀ id ∈ takenOf .receive since sent,
    effect.returnedBy id = recent.held (· = .returned id)
  /-- So has a collection, and an open one holds no more. -/
  collected : ∀ id ∈ takenOf .collection since sent,
    (∀ frames, ⟨id, .frames frames⟩ ∈ effect.replies → frames = recent.held (·.isIn id)) ∧
    ∀ c ∈ l.engine.collections, c.call = id → c.frames = recent.held (·.isIn id)
  /-- The wait of a receive goes back to response pendings that have come since then: the one that
  was remembered when it was taken, and those that came while it waited longest. -/
  deadlines : ∀ earlier time later id timeout, since = earlier ++ (time, .take) :: later →
    (id, .receive timeout) ∈ taking (actAll earlier sent).1 time .take →
    ∀ w ∈ l.engine.receives, w.call = id →
      ∃ seen? : Option Instant, (∀ seen, seen? = some seen ↔ Remembered earlier sent seen) ∧
        w = extendAll l.tuning.p2Star
          (Engine.receiveWait l.tuning time id timeout seen?)
          (restarts id later (actAll (earlier ++ [(time, .take)]) sent).1)

theorem deadlines_of_sent {sent l : Link} {effect : Effect}
    (hsent : (actAll first (opened t target)).1 = sent)
    (h : actAll (first ++ since) (opened t target) = (l, effect))
    (distinct : (issued (first ++ since)).Nodup)
    (unset : ∀ e, sent.phase = .running e → e.pendingAt = none)
    {earlier later : List (Instant × Act)} (split : since = earlier ++ (time, .take) :: later)
    (htaking : (id, .receive timeout) ∈ taking (actAll earlier sent).1 time .take) {w : ReceiveWait}
    (hw : w ∈ l.engine.receives) (hid : w.call = id) :
    ∃ seen? : Option Instant, (∀ seen, seen? = some seen ↔ Remembered earlier sent seen) ∧
      w = extendAll l.tuning.p2Star (Engine.receiveWait l.tuning time id timeout seen?)
        (restarts id later (actAll (earlier ++ [(time, .take)]) sent).1) := by
  subst split hsent
  have hl : l = (actAll (first ++ earlier ++ (time, .take) :: later) (opened t target)).1 := by
    rw [List.append_assoc, h]
  have htuning : l.tuning = t := by
    rw [hl]
    exact tuning_actAll _ _
  have hearlier : ∀ part, (actAll part (actAll first (opened t target)).1).1 =
      (actAll (first ++ part) (opened t target)).1 := by
    intro part
    rw [actAll_append]
  obtain ⟨e, alive⟩ := running_of_input? (input?_of_taking htaking)
  refine ⟨e.pendingAt, fun seen => ?_, ?_⟩
  · exact pendingAt_iff_remembered_since earlier unset alive seen
  · rw [hearlier] at htaking alive
    rw [hl] at hw
    rw [← List.append_assoc] at distinct
    rw [htuning, hearlier, ← List.append_assoc, ← engine_of_running alive]
    exact wait_eq distinct htaking hw hid

theorem mem_taken_of_takenOf {kind : CallKind} {l : Link} (h : id ∈ takenOf kind since l) :
    id ∈ (taken since l).map (·.1) := by
  obtain ⟨x, hx, rfl⟩ := List.mem_map.mp h
  exact List.mem_map_of_mem (List.mem_filter.mp hx).1

/-- A new request never gets an old answer. Once the engine has taken a send, whatever has arrived
before has its fate; and the calls that it takes afterwards return only what has arrived since,
and wait only as long as they ask and as response pendings that have come since grant them. -/
theorem send_makes_stale (source : Address) (settings : Settings) (target : Address)
    (events : List (Instant × Event)) (distinct : (requested events).Nodup)
    (before since : List (Instant × Act)) (now : Instant) (l : Link) (effect : Effect)
    (point : Point events (opened (.ofSettings source settings) target)
      (before ++ (now, .take) :: since) l effect)
    (id : CallId) (receiver : Address) (data : Octets) (timeout : Option Duration)
    (sent : (id, .send receiver data timeout) ∈
      taking (actAll before (opened (.ofSettings source settings) target)).1 now .take) :
    ∃ recent,
      ledger (before ++ (now, .take) :: since) (opened (.ofSettings source settings) target) =
        ledger (before ++ [(now, .take)]) (opened (.ofSettings source settings) target) ++ recent ∧
      (∀ x ∈ ledger (before ++ [(now, .take)]) (opened (.ofSettings source settings) target),
        x.fate ≠ .unclaimed) ∧
      Afresh since
        (actAll (before ++ [(now, .take)]) (opened (.ofSettings source settings) target)).1
        recent l effect := by
  rw [List.append_cons] at point ⊢
  generalize hfirst : before ++ [(now, .take)] = first at point ⊢
  obtain ⟨e, alive, hinbox, hpending⟩ := clean_of_sent sent
  rw [hfirst] at alive
  have hdistinct : (issued (first ++ since)).Nodup := point.distinct distinct
  have hpositive : 0 < (Tuning.ofSettings source settings).inboxCapacity :=
    Nat.lt_of_lt_of_le Nat.zero_lt_one (Nat.le_max_right _ _)
  have hdistinct' := distinct_of_prefix (List.prefix_append first since) hdistinct
  have hclean : (ledger first (opened (.ofSettings source settings) target)).unclaimed = [] := by
    rw [← (accounted_of_nodup hpositive first hdistinct').inbox e alive, hinbox]
  obtain ⟨recent, hrecent, harrivals⟩ := ledger_since hpositive hdistinct hclean
  have hall : Accounted _ (first ++ since) (opened (.ofSettings source settings) target) _ _ :=
    accounted_of_nodup hpositive _ hdistinct
  have hbooks := hall.books
  rw [point.reached, hrecent] at hbooks
  have hnew : ∀ {kind : CallKind} {id : CallId}, id ∈ takenOf kind since
      (actAll first (opened (.ofSettings source settings) target)).1 → _ := fun h =>
    held_of_new hpositive hdistinct' (new_of_taken_since hdistinct (mem_taken_of_takenOf h))
  refine ⟨recent, hrecent, fun x hx => fate_ne_of_unclaimed_eq_nil hclean hx, harrivals,
    arrived_sublist _ _, fun id hid => ?_, fun id hid => ⟨fun frames hr => ?_, fun c hc hcall => ?_⟩,
    fun earlier time later id timeout hsplit htaking w hw hid => ?_⟩
  · rw [hbooks.returned id, Ledger.held_append, (hnew hid).1, List.nil_append]
  · rw [hbooks.collected id frames hr, Ledger.held_append, (hnew hid).2, List.nil_append]
  · rw [hbooks.opened c hc, hcall, Ledger.held_append, (hnew hid).2, List.nil_append]
  · refine deadlines_of_sent rfl point.reached hdistinct (fun d hd => ?_) hsplit htaking hw hid
    cases alive.symm.trans hd
    exact hpending

/-- A response and a response pending that nobody waits for, a send, and a receive whose response
is announced once more before it comes. -/
def staleRun : List (Instant × Event) :=
  [(0, .read [0x02, 0xFD, 0x80, 0x01, 0, 0, 0, 5, 0x06, 0x80, 0x0E, 0x00, 0x50]),
    (1, .read [0x02, 0xFD, 0x80, 0x01, 0, 0, 0, 7, 0x06, 0x80, 0x0E, 0x00, 0x7F, 0x22, 0x78]),
    (2, .request 1 (.send 0x0680 [0x22] none)), (2, .take),
    (3, .request 2 (.receive (some (.ofMillis 100)))), (3, .take),
    (4, .read [0x02, 0xFD, 0x80, 0x01, 0, 0, 0, 7, 0x06, 0x80, 0x0E, 0x00, 0x7F, 0x22, 0x78]),
    (5, .read [0x02, 0xFD, 0x80, 0x01, 0, 0, 0, 5, 0x06, 0x80, 0x0E, 0x00, 0x62])]

/-- The receive returns the later response, which is all that has been recorded since the send. -/
theorem staleRun_afresh :
    ∃ recent : Ledger, recent.map (·.octets) =
        [[0x02, 0xFD, 0x80, 0x01, 0, 0, 0, 5, 0x06, 0x80, 0x0E, 0x00, 0x62]] ∧
      (run staleRun (opened (.ofSettings 0x0E00 {}) 0x0680)).2.returnedBy 2 =
        recent.held (· = .returned 2) ∧
      (run staleRun (opened (.ofSettings 0x0E00 {}) 0x0680)).2.returnedBy 2 =
        [[0x02, 0xFD, 0x80, 0x01, 0, 0, 0, 5, 0x06, 0x80, 0x0E, 0x00, 0x62]] := by
  have point := point_run staleRun (opened (.ofSettings 0x0E00 {}) 0x0680)
  have hsplit : history staleRun (opened (.ofSettings 0x0E00 {}) 0x0680) =
      (history staleRun (opened (.ofSettings 0x0E00 {}) 0x0680)).take 5 ++ (2, .take) ::
        (history staleRun (opened (.ofSettings 0x0E00 {}) 0x0680)).drop 6 := by decide +kernel
  rw [hsplit] at point
  obtain ⟨recent, -, -, afresh⟩ := send_makes_stale 0x0E00 {} 0x0680 staleRun (by decide) _ _ 2 _ _
    point 1 0x0680 [0x22] none (by decide +kernel)
  refine ⟨recent, ?_, afresh.received 2 (by decide +kernel), by decide +kernel⟩
  rw [afresh.arrivals]
  decide +kernel

end Link
end Doip
