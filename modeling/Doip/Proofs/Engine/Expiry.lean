import Doip.Engine.Expiry
import Mathlib.Data.List.Perm.Basic

/-! # Expiry is exact

Every wait comes to an `Ending` of its own accord, unless it has no deadline. The engine sleeps
until the earliest one and then expires what is due. `nextDeadline_eq`, `replies_expire` and
`endings_expire` say that both look at the same endings, so that the engine does not oversleep
and does not wake up for nothing. When it expires more often than it has to, the same calls are
resolved (`expireAll_concat`). -/
namespace Doip

/-! ## The earliest of several deadlines -/

theorem earlier_eq_some {a b : Option Instant} {d : Instant} (h : earlier a b = some d) :
    (a = some d ∨ b = some d) ∧ (∀ x, a = some x → d ≤ x) ∧ ∀ x, b = some x → d ≤ x := by
  cases a with
  | none =>
    obtain rfl : b = some d := h
    simp
  | some x =>
    cases b with
    | none =>
      obtain rfl : x = d := Option.some.inj h
      simp
    | some y =>
      obtain rfl : min x y = d := Option.some.inj h
      rcases Nat.le_total x y with hle | hle
      · rw [Nat.min_eq_left hle]
        simp [hle]
      · rw [Nat.min_eq_right hle]
        simp [hle]

theorem earlier_eq_none {a b : Option Instant} : earlier a b = none ↔ a = none ∧ b = none := by
  cases a <;> cases b <;> simp [earlier]

theorem earliest_eq_none {deadlines : List (Option Instant)} :
    earliest deadlines = none ↔ ∀ deadline ∈ deadlines, deadline = none := by
  induction deadlines with
  | nil => simp [earliest]
  | cons deadline deadlines ih =>
    rw [earliest, List.foldr_cons, earlier_eq_none, List.forall_mem_cons]
    exact and_congr_right fun _ => ih

theorem earliest_eq_some {deadlines : List (Option Instant)} {d : Instant}
    (h : earliest deadlines = some d) :
    some d ∈ deadlines ∧ ∀ x, some x ∈ deadlines → d ≤ x := by
  induction deadlines generalizing d with
  | nil => cases h
  | cons deadline deadlines ih =>
    obtain ⟨hone, hfirst, hothers⟩ := earlier_eq_some h
    constructor
    · rcases hone with rfl | hlater
      · exact List.mem_cons_self
      · exact List.mem_cons_of_mem _ (ih hlater).1
    · intro x hx
      rcases List.mem_cons.mp hx with rfl | hx
      · exact hfirst x rfl
      · cases hearliest : earliest deadlines with
        | none => cases earliest_eq_none.mp hearliest _ hx
        | some y => exact Nat.le_trans (hothers y hearliest) ((ih hearliest).2 x hx)

/-- Before the earliest deadline none has come, and at it one has. -/
theorem lt_earliest_iff {now : Instant} {deadlines : List (Option Instant)} :
    (∀ d, earliest deadlines = some d → now < d) ↔
      ∀ deadline ∈ deadlines, isDue now deadline = false := by
  constructor
  · intro h deadline hmem
    cases deadline with
    | none => rfl
    | some x =>
      cases hearliest : earliest deadlines with
      | none => cases earliest_eq_none.mp hearliest _ hmem
      | some d =>
        have hle := (earliest_eq_some hearliest).2 x hmem
        exact decide_eq_false (Nat.not_le.mpr (Nat.lt_of_lt_of_le (h d hearliest) hle))
  · intro h d hearliest
    have hdue := h _ (earliest_eq_some hearliest).1
    exact Nat.not_le.mp (of_decide_eq_false hdue)

theorem isDue_mono {now later : Instant} {deadline : Option Instant} (hle : now ≤ later)
    (h : isDue now deadline = true) : isDue later deadline = true := by
  cases deadline with
  | none => cases h
  | some d => exact decide_eq_true (Nat.le_trans (of_decide_eq_true h) hle)

namespace Engine

/-! ## Endings -/

/-- When a wait is over if nothing happens before, and what its call is told then. -/
structure Ending where
  deadline : Option Instant
  reply : Reply
deriving DecidableEq, Repr

/-- A call times out, but a collection is complete. -/
def endings (e : Engine) : List Ending :=
  (e.activation.toList.map fun w => ⟨w.deadline, timedOut w.call⟩) ++
    (e.acks.map fun w => ⟨w.deadline, timedOut w.call⟩) ++
    (e.receives.map fun w => ⟨w.deadline, timedOut w.call⟩) ++
    e.collections.map fun c => ⟨some c.deadline, ⟨c.call, .frames c.frames⟩⟩

/-- The engine with those of its waits whose deadlines pass the test. -/
def keeping (test : Option Instant → Bool) (e : Engine) : Engine :=
  { e with
    activation := e.activation.filter fun w => test w.deadline
    acks := e.acks.filter fun w => test w.deadline
    receives := e.receives.filter fun w => test w.deadline
    collections := e.collections.filter fun c => test (some c.deadline) }

variable {now later : Instant} {e : Engine} {test test' : Option Instant → Bool}

theorem nextDeadline_eq (e : Engine) : e.nextDeadline = earliest (e.endings.map (·.deadline)) := by
  simp only [nextDeadline, endings, List.map_append, List.map_map, Function.comp_def]

theorem waiting_eq_endings (e : Engine) : e.waiting = e.endings.map (·.reply.call) := by
  simp only [waiting, endings, timedOut, List.map_append, List.map_map, Function.comp_def]

theorem endings_keeping (test : Option Instant → Bool) (e : Engine) :
    (e.keeping test).endings = e.endings.filter fun x => test x.deadline := by
  simp only [keeping, endings, Option.toList_filter, List.filter_append, List.filter_map,
    Function.comp_def]

theorem keeping_keeping (test test' : Option Instant → Bool) (e : Engine) :
    (e.keeping test).keeping test' = e.keeping fun deadline => test deadline && test' deadline := by
  simp only [keeping, Option.filter_filter, List.filter_filter, Bool.and_comm]

theorem keeping_eq_self (h : ∀ x ∈ e.endings, test x.deadline = true) : e.keeping test = e := by
  obtain ⟨buffer, activation, acks, receives, collections, inbox, pendingAt⟩ := e
  simp only [endings, List.forall_mem_append, List.forall_mem_map, Option.mem_toList] at h
  obtain ⟨⟨⟨hactivation, hacks⟩, hreceives⟩, hcollections⟩ := h
  simp only [keeping, Engine.mk.injEq, true_and, and_true]
  refine ⟨?_, List.filter_eq_self.mpr hacks, List.filter_eq_self.mpr hreceives,
    List.filter_eq_self.mpr hcollections⟩
  cases activation with
  | none => rfl
  | some w => exact if_pos (hactivation w rfl)

/-! ## Expiry -/

theorem state_expire (now : Instant) (e : Engine) :
    (e.expire now).1 = e.keeping fun deadline => !isDue now deadline := by
  have hopen : (fun c : Collection => decide ¬c.deadline ≤ now) =
      fun c => !isDue now (some c.deadline) := by
    funext c
    exact decide_not
  simp only [expire, keeping, hopen]

theorem replies_expire (now : Instant) (e : Engine) :
    (e.expire now).2.replies =
      (e.endings.filter fun x => isDue now x.deadline).map (·.reply) := by
  simp only [expire, endings, List.filter_append, List.filter_map, List.map_append,
    List.map_map, Function.comp_def]
  rfl

theorem endings_expire (now : Instant) (e : Engine) :
    (e.expire now).1.endings = e.endings.filter fun x => !isDue now x.deadline := by
  rw [state_expire, endings_keeping]

/-- A collection is complete, and any other call times out. -/
theorem expired_cases {r : Reply} (h : r ∈ (e.expire now).2.replies) :
    (∃ call, r = timedOut call) ∨ ∃ c ∈ e.collections, r = ⟨c.call, .frames c.frames⟩ := by
  rw [replies_expire] at h
  obtain ⟨x, hx, rfl⟩ := List.mem_map.mp h
  have hending := (List.mem_filter.mp hx).1
  simp only [endings, List.mem_append, List.mem_map] at hending
  obtain ((⟨w, -, rfl⟩ | ⟨w, -, rfl⟩) | ⟨w, -, rfl⟩) | ⟨c, hc, rfl⟩ := hending
  · exact .inl ⟨w.call, rfl⟩
  · exact .inl ⟨w.call, rfl⟩
  · exact .inl ⟨w.call, rfl⟩
  · exact .inr ⟨c, hc, rfl⟩

/-- No wait is due. -/
def Idle (now : Instant) (e : Engine) : Prop := ∀ x ∈ e.endings, isDue now x.deadline = false

theorem idle_iff : Idle now e ↔ ∀ d, e.nextDeadline = some d → now < d := by
  rw [nextDeadline_eq, lt_earliest_iff, List.forall_mem_map, Idle]

theorem idle_expire (now : Instant) (e : Engine) : Idle now (e.expire now).1 := by
  intro x hx
  rw [endings_expire, List.mem_filter] at hx
  simpa using hx.2

theorem expire_of_idle (h : Idle now e) : e.expire now = (e, .none) := by
  refine Prod.ext ?_ (congrArg (Effect.mk · []) ?_)
  · rw [state_expire]
    exact keeping_eq_self fun x hx => by simp [h x hx]
  · refine (replies_expire now e).trans ?_
    rw [List.filter_eq_nil_iff.mpr fun x hx => by simp [h x hx], List.map_nil]

/-- An engine that is not idle gets rid of a wait. -/
theorem progress_of_not_idle (h : ¬Idle now e) :
    (e.expire now).2.replies ≠ [] ∧ (e.expire now).1.waiting.length < e.waiting.length := by
  simp only [Idle, not_forall, Bool.not_eq_false] at h
  obtain ⟨x, hx, hdue⟩ := h
  constructor
  · rw [replies_expire]
    exact List.ne_nil_of_mem (List.mem_map_of_mem (List.mem_filter.mpr ⟨hx, hdue⟩))
  · rw [waiting_eq_endings, waiting_eq_endings, List.length_map, List.length_map, endings_expire]
    exact List.length_filter_lt_length_iff_exists.mpr ⟨x, hx, by simp [hdue]⟩

/-! ## Expiry at several times -/

theorem not_isDue_and (hle : now ≤ later) (deadline : Option Instant) :
    (!isDue now deadline && !isDue later deadline) = !isDue later deadline := by
  cases hdue : isDue now deadline with
  | false => rfl
  | true => simp [isDue_mono hle hdue]

theorem isDue_and (hle : now ≤ later) (deadline : Option Instant) :
    (isDue now deadline && isDue later deadline) = isDue now deadline := by
  cases hdue : isDue now deadline with
  | false => rfl
  | true => simp [isDue_mono hle hdue]

theorem state_expire_expire (hle : now ≤ later) (e : Engine) :
    ((e.expire now).1.expire later).1 = (e.expire later).1 := by
  simp only [state_expire, keeping_keeping, not_isDue_and hle]

theorem replies_expire_expire (hle : now ≤ later) (e : Engine) :
    ((e.expire now).2.replies ++ ((e.expire now).1.expire later).2.replies).Perm
      (e.expire later).2.replies := by
  have hfirst : (e.endings.filter fun x => isDue later x.deadline).filter
      (fun x => isDue now x.deadline) = e.endings.filter fun x => isDue now x.deadline := by
    simp only [List.filter_filter, isDue_and hle]
  have hsplit := List.filter_append_perm (fun x : Ending => isDue now x.deadline)
    (e.endings.filter fun x => isDue later x.deadline)
  rw [hfirst, List.filter_comm, ← endings_expire] at hsplit
  simp only [replies_expire, ← List.map_append]
  exact hsplit.map _

/-- Expiry at several times, one after the other. -/
def expireAll : List Instant → Engine → Engine × Effect
  | [], e => (e, .none)
  | now :: times, e =>
    let (e, first) := e.expire now
    let (e, others) := expireAll times e
    (e, first ++ others)

theorem expireAll_concat {times : List Instant} (before : ∀ time ∈ times, time ≤ now) (e : Engine) :
    (expireAll (times ++ [now]) e).1 = (e.expire now).1 ∧
      (expireAll (times ++ [now]) e).2.replies.Perm (e.expire now).2.replies ∧
      (expireAll (times ++ [now]) e).2.sent = [] := by
  induction times generalizing e with
  | nil => exact ⟨rfl, .of_eq (List.append_nil _), rfl⟩
  | cons time times ih =>
    obtain ⟨hfirst, hothers⟩ := List.forall_mem_cons.mp before
    obtain ⟨hstate, hreplies, hsent⟩ := ih hothers (e.expire time).1
    refine ⟨hstate.trans (state_expire_expire hfirst e), ?_, hsent⟩
    exact (hreplies.append_left _).trans (replies_expire_expire hfirst e)

/-- What expiry at `now` does. -/
structure Expires (now : Instant) (e : Engine) : Prop where
  /-- The calls whose deadline has come are told how they end, and nobody else is told anything. -/
  resolved : (e.expire now).2 =
    ⟨(e.endings.filter fun x => isDue now x.deadline).map (·.reply), []⟩
  /-- The other waits are left, in order, and all else is left as it is. -/
  left : (e.expire now).1 = e.keeping fun deadline => !isDue now deadline
  /-- The engine can sleep. -/
  later : ∀ d, (e.expire now).1.nextDeadline = some d → now < d
  unchanged : (∀ d, e.nextDeadline = some d → now < d) → e.expire now = (e, .none)
  /-- The engine has not woken up for nothing. -/
  progress : ∀ d, e.nextDeadline = some d → d ≤ now →
    (e.expire now).2.replies ≠ [] ∧ (e.expire now).1.waiting.length < e.waiting.length

theorem expires (now : Instant) (e : Engine) : Expires now e where
  resolved := congrArg (Effect.mk · []) (replies_expire now e)
  left := state_expire now e
  later := idle_iff.mp (idle_expire now e)
  unchanged h := expire_of_idle (idle_iff.mpr h)
  progress d hd hle := progress_of_not_idle fun idle =>
    absurd hle (Nat.not_le.mpr (idle_iff.mp idle d hd))

/-- Expiry resolves just what is due, which there is if the next deadline has come, and leaves
nothing that is due. Expiry at earlier times before makes no difference to who is told what, nor
to the engine that is left. -/
theorem expiry_exact (now : Instant) (e : Engine) :
    Expires now e ∧
      ∀ times : List Instant, (∀ time ∈ times, time ≤ now) →
        (expireAll (times ++ [now]) e).1 = (e.expire now).1 ∧
          (expireAll (times ++ [now]) e).2.replies.Perm (e.expire now).2.replies ∧
          (expireAll (times ++ [now]) e).2.sent = [] :=
  ⟨expires now e, fun _ before => expireAll_concat before e⟩

/-- Of its six waits two end at 40, none does before, and one has no deadline. -/
def mixedWaits : Engine where
  buffer := [0x02]
  activation := some ⟨1, some 50⟩
  acks := [⟨2, some 40⟩, ⟨3, none⟩]
  receives := [⟨4, some 41, some (.ofMillis 1)⟩]
  collections := [⟨5, 60, []⟩, ⟨6, 40, [[0x02, 0xFD]]⟩]
  inbox := [[0x02]]
  pendingAt := some 7

theorem mixedWaits_expired :
    mixedWaits.nextDeadline = some 40 ∧ mixedWaits.expire 39 = (mixedWaits, .none) ∧
      (mixedWaits.expire 40).2 = ⟨[timedOut 2, ⟨6, .frames [[0x02, 0xFD]]⟩], []⟩ ∧
      (mixedWaits.expire 40).1.waiting = [1, 3, 4, 5] ∧
      (expireAll ([10, 40, 41] ++ [50]) mixedWaits).1 = (mixedWaits.expire 50).1 := by
  obtain ⟨asleep, -⟩ := expiry_exact 39 mixedWaits
  obtain ⟨awake, -⟩ := expiry_exact 40 mixedWaits
  obtain ⟨-, often⟩ := expiry_exact 50 mixedWaits
  refine ⟨by decide, asleep.unchanged (by decide), awake.resolved, ?_,
    (often [10, 40, 41] (by decide)).1⟩
  rw [awake.left]
  decide

end Engine
end Doip
