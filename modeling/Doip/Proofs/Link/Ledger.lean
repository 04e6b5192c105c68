import Doip.Proofs.Link.ResponseOrder

/-! # The ledger of responses

The engine keeps responses as octets, and two that arrive may be equal. The ledger tells
them apart: it has an entry for each response in the order of arrival, with what became of
it. An entry is unclaimed while the response is in the inbox, and any other fate is final.
`Custody` lists what a turn of the engine does with responses and how the ledger follows;
`Turn.custody` says that it does nothing else. -/
namespace Doip

/-- What becomes of a response. -/
inductive Fate where
  /-- It is in the inbox. -/
  | unclaimed
  /-- It went to the collections that were open when it arrived. -/
  | gathered (calls : List CallId)
  /-- A receive returned it. -/
  | returned (call : CallId)
  /-- A later collection took it out of the inbox. -/
  | swept (call : CallId)
  /-- A send made it stale. -/
  | discarded (call : CallId)
  /-- It made room for a newer one. -/
  | evicted
deriving DecidableEq, Repr

/-- The response is in the collection of this call. -/
def Fate.isIn (call : CallId) : Fate → Bool
  | .gathered calls => calls.contains call
  | .swept sweeper => sweeper = call
  | _ => false

structure Entry where
  octets : Octets
  fate : Fate
deriving DecidableEq, Repr

/-- Oldest response first. -/
abbrev Ledger := List Entry

namespace Ledger

/-- The responses with such a fate. -/
def held (p : Fate → Bool) (ledger : Ledger) : List Octets :=
  (ledger.filter (p ·.fate)).map (·.octets)

/-- What is in the inbox. -/
def unclaimed (ledger : Ledger) : List Octets := ledger.held (· = .unclaimed)

/-- Every unclaimed response gets this fate. -/
def settleAll (fate : Fate) (ledger : Ledger) : Ledger :=
  ledger.map fun x => if x.fate = .unclaimed then { x with fate } else x

/-- The oldest of the unclaimed responses with the property gets this fate. -/
def settleFirst (p : Octets → Bool) (fate : Fate) : Ledger → Ledger
  | [] => []
  | x :: rest =>
    if x.fate = .unclaimed ∧ p x.octets = true then { x with fate } :: rest
    else x :: settleFirst p fate rest

theorem held_append (p : Fate → Bool) (a b : Ledger) : held p (a ++ b) = held p a ++ held p b := by
  simp [held]

theorem held_cons (p : Fate → Bool) (x : Entry) (rest : Ledger) :
    held p (x :: rest) = (if p x.fate then [x.octets] else []) ++ held p rest := by
  cases h : p x.fate <;> simp [held, h]

@[simp] theorem held_nil (p : Fate → Bool) : held p [] = [] := rfl

theorem octets_settleAll (fate : Fate) (ledger : Ledger) :
    (ledger.settleAll fate).map (·.octets) = ledger.map (·.octets) := by
  simp only [settleAll, List.map_map]
  refine List.map_congr_left fun x _ => ?_
  simp only [Function.comp_apply]
  split <;> rfl

theorem held_settleAll_of_false {p : Fate → Bool} {fate : Fate} (hu : p .unclaimed = false)
    (hf : p fate = false) (ledger : Ledger) : held p (ledger.settleAll fate) = held p ledger := by
  induction ledger with
  | nil => rfl
  | cons x rest ih =>
    change held p ((if x.fate = .unclaimed then { x with fate } else x) :: settleAll fate rest) = _
    rw [held_cons, held_cons, ih]
    by_cases hx : x.fate = .unclaimed <;> simp [hx, hu, hf]

/-- The unclaimed responses go where there was none. -/
theorem held_settleAll_of_true {p : Fate → Bool} {fate : Fate} (hf : p fate = true)
    {ledger : Ledger} (hnone : held p ledger = []) :
    held p (ledger.settleAll fate) = ledger.unclaimed := by
  induction ledger with
  | nil => rfl
  | cons x rest ih =>
    rw [held_cons, List.append_eq_nil_iff] at hnone
    change held p ((if x.fate = .unclaimed then { x with fate } else x) :: settleAll fate rest) = _
    rw [held_cons, ih hnone.2, unclaimed, unclaimed, held_cons]
    by_cases hx : x.fate = .unclaimed
    · simp [hx, hf]
    · have hp : p x.fate = false := by simpa using hnone.1
      simp [hx, hp]

theorem unclaimed_settleAll {fate : Fate} (hf : fate ≠ .unclaimed) (ledger : Ledger) :
    (ledger.settleAll fate).unclaimed = [] := by
  induction ledger with
  | nil => rfl
  | cons x rest ih =>
    change held _ ((if x.fate = .unclaimed then { x with fate } else x) :: settleAll fate rest) = _
    rw [held_cons]
    refine List.append_eq_nil_iff.mpr ⟨?_, ih⟩
    by_cases hx : x.fate = .unclaimed <;> simp [hx, hf]

/-- The entry that gets the fate is the one of the response that leaves the inbox. -/
theorem settleFirst_split {p : Octets → Bool} {ledger : Ledger} {before after : List Octets}
    {octets : Octets} (fate : Fate) (hsplit : ledger.unclaimed = before ++ octets :: after)
    (hbefore : ∀ f ∈ before, p f = false) (hp : p octets = true) :
    ∃ older newer : Ledger, ledger = older ++ ⟨octets, .unclaimed⟩ :: newer ∧
      ledger.settleFirst p fate = older ++ ⟨octets, fate⟩ :: newer ∧
      older.unclaimed = before ∧ newer.unclaimed = after := by
  induction ledger generalizing before with
  | nil => simp [unclaimed] at hsplit
  | cons x rest ih =>
    obtain ⟨o, fate'⟩ := x
    rw [unclaimed, held_cons] at hsplit
    by_cases hx : fate' = .unclaimed
    · subst hx
      cases before with
      | nil =>
        obtain ⟨rfl, hrest⟩ : o = octets ∧ held (· = .unclaimed) rest = after := by
          simpa using hsplit
        exact ⟨[], rest, rfl, by simp [settleFirst, hp], rfl, hrest⟩
      | cons f before =>
        obtain ⟨rfl, hrest⟩ : o = f ∧ held (· = .unclaimed) rest = before ++ octets :: after := by
          simpa using hsplit
        have ho : p o = false := hbefore o List.mem_cons_self
        obtain ⟨older, newer, rfl, hs, ha, hb⟩ :=
          ih hrest fun f hf => hbefore f (List.mem_cons_of_mem _ hf)
        refine ⟨⟨o, .unclaimed⟩ :: older, newer, rfl, by simp [settleFirst, ho, hs], ?_, hb⟩
        rw [← ha, unclaimed, held_cons]
        rfl
    · obtain ⟨older, newer, rfl, hs, ha, hb⟩ := ih (by simpa [unclaimed, hx] using hsplit) hbefore
      refine ⟨⟨o, fate'⟩ :: older, newer, rfl, by simp [settleFirst, hx, hs], ?_, hb⟩
      rw [← ha, unclaimed, held_cons]
      simp [hx, unclaimed]

theorem settleFirst_of_absent {p : Octets → Bool} {ledger : Ledger} (fate : Fate)
    (h : ∀ f ∈ ledger.unclaimed, p f = false) : ledger.settleFirst p fate = ledger := by
  induction ledger with
  | nil => rfl
  | cons x rest ih =>
    rw [unclaimed, held_cons] at h
    have hrest := ih fun f hf => h f (List.mem_append_right _ hf)
    have hx : ¬(x.fate = .unclaimed ∧ p x.octets = true) := by
      rintro ⟨hu, hp⟩
      rw [h x.octets (by simp [hu])] at hp
      cases hp
    rw [settleFirst, if_neg hx, hrest]

end Ledger

namespace Engine

/-- The entry of the ledger for a response that arrives. -/
def recordResponse (t : Tuning) (target : Address) (f : Frame) (m : Diagnostic) (e : Engine)
    (ledger : Ledger) : Ledger :=
  if e.collections ≠ [] then ledger ++ [⟨f.encode, .gathered (e.waits .collection)⟩]
  else
    match if m.source = target then e.waits .receive else [] with
    | id :: _ => ledger ++ [⟨f.encode, .returned id⟩]
    | [] =>
      (if t.inboxCapacity ≤ e.inbox.length then ledger.settleFirst (fun _ => true) .evicted
        else ledger) ++ [⟨f.encode, .unclaimed⟩]

/-- The ledger after an input. -/
def record (t : Tuning) (target : Address) (now : Instant) (input : Input) (e : Engine)
    (ledger : Ledger) : Ledger :=
  match input with
  | .start id (.send _ _ _) => ledger.settleAll (.discarded id)
  | .start id (.receive _) => ledger.settleFirst (isFrom target) (.returned id)
  | .start id (.collect window) =>
    if (collectionEnd? t now window).isSome then ledger.settleAll (.swept id) else ledger
  | .dispatch f =>
    match f.response? t with
    | some m => e.recordResponse t target f m ledger
    | none => ledger
  | .start _ (.activate _) | .keep _ | .expire => ledger

/-- What a turn does with responses, and how the ledger follows. -/
inductive Custody (t : Tuning) (target : Address) (now : Instant) (e : Engine) :
    Input → Engine → Effect → Ledger → Ledger → Prop where
  | untouched {input : Input} {e' : Engine} {effect : Effect} {ledger : Ledger}
      (nothing : input.arriving t = []) (inbox : e'.inbox = e.inbox)
      (collections : e'.collections = e.collections) (plain : effect.Plain) :
      Custody t target now e input e' effect ledger ledger
  | completed {ledger : Ledger} :
      Custody t target now e .expire (e.expire now).1 (e.expire now).2 ledger ledger
  /-- A send discards what is in the inbox. -/
  | discarded {id : CallId} {receiver : Address} {data : Octets} {timeout : Option Duration}
      {e' : Engine} {effect : Effect} {ledger : Ledger} (inbox : e'.inbox = [])
      (collections : e'.collections = e.collections) (plain : effect.Plain) :
      Custody t target now e (.start id (.send receiver data timeout)) e' effect ledger
        (ledger.settleAll (.discarded id))
  /-- A collection that is opened takes all that is in the inbox. -/
  | swept {id : CallId} {window : Duration} {deadline : Instant} {e' : Engine} {ledger : Ledger}
      (fits : collectionEnd? t now window = some deadline) (inbox : e'.inbox = [])
      (collections : e'.collections = e.collections ++ [⟨id, deadline, e.inbox⟩]) :
      Custody t target now e (.start id (.collect window)) e' .none ledger
        (ledger.settleAll (.swept id))
  /-- A receive returns the oldest response of the target in the inbox. -/
  | claimed {id : CallId} {timeout : Option Duration} {octets : Octets} {e' : Engine}
      {older newer : Ledger} (others : ∀ f ∈ older.unclaimed, frameSource? f ≠ some target)
      (source : frameSource? octets = some target)
      (inbox : e'.inbox = older.unclaimed ++ newer.unclaimed)
      (collections : e'.collections = e.collections) :
      Custody t target now e (.start id (.receive timeout)) e' (.reply id (.frame octets))
        (older ++ ⟨octets, .unclaimed⟩ :: newer) (older ++ ⟨octets, .returned id⟩ :: newer)
  /-- A response goes to all open collections, and nowhere else. -/
  | gathered {f : Frame} {m : Diagnostic} {e' : Engine} {ledger : Ledger}
      (response : f.response? t = some m) (isOpen : e.collections ≠ [])
      (inbox : e'.inbox = e.inbox)
      (collections : e'.collections =
        e.collections.map fun c => { c with frames := c.frames ++ [f.encode] }) :
      Custody t target now e (.dispatch f) e' .none ledger
        (ledger ++ [⟨f.encode, .gathered (e.waits .collection)⟩])
  /-- The oldest receive returns a response of the target. -/
  | handed {f : Frame} {m : Diagnostic} {wait : ReceiveWait} {receives : List ReceiveWait}
      {e' : Engine} {ledger : Ledger} (response : f.response? t = some m)
      (source : m.source = target) (closed : e.collections = [])
      (waits : e.receives = wait :: receives) (inbox : e'.inbox = e.inbox)
      (collections : e'.collections = e.collections) :
      Custody t target now e (.dispatch f) e' (.reply wait.call (.frame f.encode)) ledger
        (ledger ++ [⟨f.encode, .returned wait.call⟩])
  | buffered {f : Frame} {m : Diagnostic} {e' : Engine} {ledger : Ledger}
      (response : f.response? t = some m) (closed : e.collections = [])
      (idle : m.source = target → e.receives = []) (room : e.inbox.length < t.inboxCapacity)
      (inbox : e'.inbox = e.inbox ++ [f.encode]) (collections : e'.collections = e.collections) :
      Custody t target now e (.dispatch f) e' .none ledger (ledger ++ [⟨f.encode, .unclaimed⟩])
  /-- The oldest response in a full inbox makes room for another one. -/
  | evicted {f : Frame} {m : Diagnostic} {octets : Octets} {e' : Engine} {older newer : Ledger}
      (response : f.response? t = some m) (closed : e.collections = [])
      (idle : m.source = target → e.receives = []) (full : t.inboxCapacity ≤ e.inbox.length)
      (oldest : older.unclaimed = []) (inbox : e'.inbox = newer.unclaimed ++ [f.encode])
      (collections : e'.collections = e.collections) :
      Custody t target now e (.dispatch f) e' .none (older ++ ⟨octets, .unclaimed⟩ :: newer)
        (older ++ ⟨octets, .evicted⟩ :: newer ++ [⟨f.encode, .unclaimed⟩])

variable {t : Tuning} {target : Address} {now : Instant} {e e' : Engine} {input : Input}
  {effect : Effect} {ledger ledger' : Ledger}

theorem record_of_no_response {f : Frame} (h : f.response? t = none) :
    e.record t target now (.dispatch f) ledger = ledger := by
  simp only [record, h]

theorem custody_of_no_response {f : Frame} (h : f.response? t = none)
    (inbox : e'.inbox = e.inbox) (collections : e'.collections = e.collections)
    (plain : effect.Plain) :
    Custody t target now e (.dispatch f) e' effect ledger
      (e.record t target now (.dispatch f) ledger) := by
  rw [record_of_no_response h]
  exact .untouched (by simp [Input.arriving, h]) inbox collections plain

theorem custody_kept {f : Frame} {m : Diagnostic} (response : f.response? t = some m)
    (closed : e.collections = []) (idle : m.source = target → e.receives = [])
    (hinbox : e.inbox = ledger.unclaimed) (hpositive : 0 < t.inboxCapacity)
    (pendingAt : Option Instant) :
    Custody t target now e (.dispatch f) (buffered t f.encode { e with pendingAt }) .none ledger
      (e.record t target now (.dispatch f) ledger) := by
  have hnobody : (if m.source = target then e.waits .receive else []) = [] := by
    split
    · rename_i hs
      simp [waits, idle hs]
    · rfl
  have hrecord : e.record t target now (.dispatch f) ledger =
      (if t.inboxCapacity ≤ e.inbox.length then ledger.settleFirst (fun _ => true) .evicted
        else ledger) ++ [⟨f.encode, .unclaimed⟩] := by
    simp only [record, response, recordResponse, closed, ne_eq, not_true_eq_false, if_false,
      hnobody]
  rw [hrecord]
  by_cases hfull : t.inboxCapacity ≤ e.inbox.length
  · obtain ⟨octets, rest, hi⟩ := List.exists_cons_of_length_pos (Nat.lt_of_lt_of_le hpositive hfull)
    have hsplit : ledger.unclaimed = [] ++ octets :: rest := hinbox.symm.trans hi
    obtain ⟨older, newer, rfl, hs, ho, hn⟩ :=
      Ledger.settleFirst_split (p := fun _ => true) .evicted hsplit (by simp) rfl
    rw [if_pos hfull, hs]
    refine .evicted response closed idle hfull ho ?_ rfl
    simp only [buffered, if_pos hfull]
    rw [hi, List.tail_cons, hn]
  · rw [if_neg hfull]
    refine .buffered response closed idle (by omega) ?_ rfl
    simp only [buffered, hfull, if_false]

/-- A turn does nothing else with responses. -/
theorem Turn.custody (h : Turn t target now e input e' effect)
    (hinbox : e.inbox = ledger.unclaimed) (hpositive : 0 < t.inboxCapacity) :
    Custody t target now e input e' effect ledger (e.record t target now input ledger) := by
  cases h with
  | activationRefused => exact .untouched rfl rfl rfl (Effect.plain_reply _ rfl)
  | activationStarted => exact .untouched rfl rfl rfl (Effect.plain_send _)
  | sent => exact .discarded rfl rfl (Effect.plain_send _)
  | @claimed id timeout before after frame split others source =>
    obtain ⟨older, newer, rfl, hs, ho, hn⟩ := Ledger.settleFirst_split
      (p := isFrom target) (.returned id) (hinbox.symm.trans split)
      (fun f hf => by simpa [isFrom] using others f hf) (isFrom_eq_true.mpr source)
    rw [record, hs]
    exact .claimed (by rwa [ho]) source (by rw [ho, hn]) rfl
  | @waited id timeout absent =>
    have hnone : ledger.settleFirst (isFrom target) (.returned id) = ledger := by
      rw [hinbox] at absent
      refine Ledger.settleFirst_of_absent _ fun f hf => ?_
      simpa [isFrom] using absent f hf
    rw [record, hnone]
    exact .untouched rfl rfl rfl Effect.plain_none
  | collectionOpened fits =>
    simp only [record, fits, Option.isSome_some, if_true]
    exact .swept fits rfl rfl
  | collectionRefused late =>
    simp only [record, late, Option.isSome_none, Bool.false_eq_true, if_false]
    exact .untouched rfl rfl rfl (Effect.plain_reply _ rfl)
  | skipped other => exact custody_of_no_response other rfl rfl Effect.plain_none
  | aliveAnswered message =>
    exact custody_of_no_response (by simp [Frame.response?, message]) rfl rfl (Effect.plain_send _)
  | activationAnswered message waits =>
    exact custody_of_no_response (by simp [Frame.response?, message]) rfl rfl
      (plain_activationAnswer _ _)
  | sendSettled message settles waits =>
    cases settles <;> exact custody_of_no_response (by simp [Frame.response?, message]) rfl rfl
      (Effect.plain_reply _ rfl)
  | activationNacked message waits | sendNacked message free waits =>
    exact custody_of_no_response (by simp [Frame.response?, message]) rfl rfl
      (Effect.plain_reply _ rfl)
  | receiveFailed message kind waits =>
    exact custody_of_no_response (by simp [Frame.response?, message]) rfl rfl
      (Effect.plain_reply _ rfl)
  | extended pending source waits | remembered pending source idle =>
    exact custody_of_no_response (Frame.response?_of_pending? pending) rfl rfl Effect.plain_none
  | gathered response isOpen =>
    simp only [record, response, recordResponse, if_pos isOpen]
    exact .gathered response isOpen rfl rfl
  | @handed f m wait receives response source closed hw =>
    have hrecord : e.record t target now (.dispatch f) ledger =
        ledger ++ [⟨f.encode, .returned wait.call⟩] := by
      simp only [record, response, recordResponse, closed, ne_eq, not_true_eq_false, if_false,
        if_pos source, waits, hw, List.map_cons]
    rw [hrecord]
    exact .handed response source closed hw rfl rfl
  | kept response closed idle => exact custody_kept response closed idle hinbox hpositive _
  | refilled => exact .untouched rfl rfl rfl Effect.plain_none
  | expired => exact .completed

end Engine
end Doip
