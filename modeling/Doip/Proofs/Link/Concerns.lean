import Doip.Proofs.Link.Settlement
import Doip.Proofs.Message.Layout

/-! # Which exchange a frame touches

A frame concerns one exchange, told by its payload type and by a few octets of its payload
(`Frame.concern`). Whatever else is going on, it ends the oldest wait of that exchange or none,
and leaves the rest of the engine as it is (`Touches`). -/
namespace Doip

/-- What a frame can be about. -/
inductive Concern where
  | activation
  /-- The sending of a diagnostic message. -/
  | send
  /-- The last request, as such. -/
  | request
  | aliveCheck
  /-- The waiting for a response, when what has come is too short to be one. -/
  | receive
  /-- A response that is still to come. -/
  | pending
  | response
  | nobody
deriving DecidableEq, Repr

/-- The kinds of calls of which one can end at a frame that concerns this. -/
def Concern.kinds : Concern → List CallKind
  | activation => [.activation]
  | send => [.send]
  | request => [.activation, .send]
  | receive | response => [.receive]
  | aliveCheck | pending | nobody => []

/-- What a frame concerns. Only a diagnostic message is missed if it is too short for its type. -/
def Frame.concern (t : Tuning) (f : Frame) : Concern :=
  if f.payload.length < Message.fewest f.header.payloadType then
    if f.header.payloadType = 0x8001 then .receive else .nobody
  else
    let own : Bool := word16At? f.payload 2 = some t.source
    match f.header.payloadType with
    | 0x0000 => .request
    | 0x0006 => .activation
    | 0x0007 => .aliveCheck
    | 0x8001 =>
      if !own then .nobody
      else if isResponsePending (f.payload.drop 4) then .pending
      else .response
    | 0x8002 | 0x8003 => if own then .send else .nobody
    | _ => .nobody

namespace Engine

/-- The engine without the oldest wait of a kind. -/
def dropOldest (e : Engine) : CallKind → Engine
  | .activation => { e with activation := none }
  | .send => { e with acks := e.acks.tail }
  | .receive => { e with receives := e.receives.tail }
  | .collection => { e with collections := e.collections.tail }

/-- The oldest call that waits in this kind is answered, if there is one, and nothing else
changes. -/
inductive EndsOldest (kind : CallKind) (e : Engine) : Engine → Effect → Prop
  | none (idle : e.waits kind = []) : EndsOldest kind e e .none
  | one {call : CallId} {answer : Answer} (oldest : (e.waits kind).head? = some call) :
      EndsOldest kind e (e.dropOldest kind) (.reply call answer)

/-- No call is answered: the deadline of the oldest receive moves, or the time is remembered. -/
inductive Defers (e : Engine) : Engine → Effect → Prop
  | skipped : Defers e e .none
  | moved {wait : ReceiveWait} {receives : List ReceiveWait} {deadline : Option Instant}
      (waits : e.receives = wait :: receives) :
      Defers e { e with receives := { wait with deadline } :: receives } .none
  | remembered {now : Instant} (idle : e.receives = []) :
      Defers e { e with pendingAt := some now } .none

/-- The frame goes to all open collections, else to the oldest receive or into the inbox, where the
oldest response may make room. -/
inductive Delivers (e : Engine) (frame : Octets) : Engine → Effect → Prop
  | gathered (isOpen : e.collections ≠ []) :
      Delivers e frame
        { e with
          collections := e.collections.map fun c => { c with frames := c.frames ++ [frame] } }
        .none
  | handed {call : CallId} (closed : e.collections = [])
      (oldest : (e.waits .receive).head? = some call) :
      Delivers e frame (e.dropOldest .receive) (.reply call (.frame frame))
  | kept {kept : List Octets} (closed : e.collections = [])
      (room : kept = e.inbox ∨ kept = e.inbox.tail) :
      Delivers e frame { e with inbox := kept ++ [frame] } .none

/-- The answer to an alive check request. -/
def aliveCheckAnswer (t : Tuning) : Octets :=
  (Frame.ofMessage t.version (.aliveCheckResponse t.source)).encode

/-- What a frame may do to the engine, by what it concerns. -/
def Touches (t : Tuning) (f : Frame) (e e' : Engine) (effect : Effect) : Concern → Prop
  | .activation => EndsOldest .activation e e' effect
  | .send => EndsOldest .send e e' effect
  | .request => EndsOldest (if e.activation.isSome then .activation else .send) e e' effect
  | .aliveCheck => e' = e ∧ effect = .send (aliveCheckAnswer t)
  | .receive => EndsOldest .receive e e' effect
  | .pending => Defers e e' effect
  | .response =>
    ∃ pendingAt, (pendingAt = e.pendingAt ∨ pendingAt = none) ∧
      Delivers { e with pendingAt } f.encode e' effect
  | .nobody => e' = e ∧ effect = .none

end Engine

/-! ## Frames by their messages -/

/-- What a message concerns. -/
def Message.concern (t : Tuning) : Message → Concern
  | genericNack _ => .request
  | activationResponse _ => .activation
  | aliveCheckRequest => .aliveCheck
  | diagnostic m =>
    if m.target ≠ t.source then .nobody
    else if isResponsePending m.data then .pending
    else .response
  | positiveAck a | negativeAck a => if a.target = t.source then .send else .nobody
  | activationRequest _ | aliveCheckResponse _ | unsupported _ _ => .nobody

namespace Frame

variable {t : Tuning} {f : Frame} {m : Message} {fault : WireError}

theorem concern_of_ok (h : f.message = .ok m) : f.concern t = m.concern t := by
  obtain ⟨type, honest, long, fields⟩ := Message.decode_eq_ok_iff.mp h
  rw [concern, if_neg (Nat.not_lt.mpr long), ← type]
  cases m with
  | genericNack | activationRequest | activationResponse | aliveCheckRequest
  | aliveCheckResponse => rfl
  | diagnostic m =>
    obtain ⟨-, htarget, hdata⟩ := fields
    simp [Message.payloadType, Message.concern, htarget, hdata]
  | positiveAck a | negativeAck a =>
    obtain ⟨-, htarget, -⟩ := fields
    simp [Message.payloadType, Message.concern, htarget]
  | unsupported code octets =>
    have unknown : code ∉ PayloadKind.known := fun known => honest ⟨code, octets, rfl, known⟩
    simp only [Message.payloadType, Message.concern]
    split
    case h_7 => rfl
    all_goals exact absurd (by decide) unknown

theorem concern_of_error (h : f.message = .error fault) :
    f.concern t = if f.header.payloadType = 0x8001 then .receive else .nobody := by
  have hrefused := Message.decode_eq_error_iff.mp h
  obtain ⟨⟨version, type, length⟩, payload⟩ := f
  cases hrefused with
  | short few => exact if_pos few
  | unknownType long place unknown => exact if_neg (Nat.not_lt.mpr long)

end Frame

namespace Engine

variable {t : Tuning} {target : Address} {now : Instant} {e e' : Engine} {f : Frame}
  {effect : Effect}

/-! ## What a frame does -/

theorem endsOldest_onActivationResponse (r : ActivationResponse) :
    EndsOldest .activation e (e.onActivationResponse t r).1 (e.onActivationResponse t r).2 := by
  unfold onActivationResponse
  split
  · rename_i free
    exact .none (by rw [waits, free]; rfl)
  · rename_i busy
    exact .one (by rw [waits, busy]; rfl)

theorem endsOldest_settleAck (answer : Answer) :
    EndsOldest .send e (e.settleAck answer).1 (e.settleAck answer).2 := by
  unfold settleAck
  split
  · rename_i idle
    exact .none (by rw [waits, idle]; rfl)
  · rename_i wait acks busy
    have hdrop : { e with acks } = e.dropOldest .send := by rw [dropOldest, busy]; rfl
    rw [hdrop]
    exact .one (by rw [waits, busy]; rfl)

theorem endsOldest_settleReceive (answer : Answer) :
    EndsOldest .receive e (e.settleReceive answer).1 (e.settleReceive answer).2 := by
  unfold settleReceive
  split
  · rename_i idle
    exact .none (by rw [waits, idle]; rfl)
  · rename_i wait receives busy
    have hdrop : { e with receives } = e.dropOldest .receive := by rw [dropOldest, busy]; rfl
    rw [hdrop]
    exact .one (by rw [waits, busy]; rfl)

theorem defers_onPending : Defers e (e.onPending t now) .none := by
  unfold onPending
  split
  · rename_i waits
    unfold ReceiveWait.extend
    split
    · exact .moved waits
    · exact .moved waits
  · rename_i idle
    exact .remembered idle

theorem delivers_onResponse (fromTarget : Bool) (frame : Octets) :
    ∃ pendingAt, (pendingAt = e.pendingAt ∨ pendingAt = none) ∧
      Delivers { e with pendingAt } frame (e.onResponse t fromTarget frame).1
        (e.onResponse t fromTarget frame).2 := by
  obtain ⟨pendingAt, hfrom, hpending⟩ : ∃ pendingAt, (pendingAt = e.pendingAt ∨ pendingAt = none) ∧
      (if fromTarget then { e with pendingAt := none } else e) = { e with pendingAt } := by
    cases fromTarget with
    | true => exact ⟨none, .inr rfl, rfl⟩
    | false => exact ⟨e.pendingAt, .inl rfl, rfl⟩
  refine ⟨pendingAt, hfrom, ?_⟩
  unfold onResponse
  rw [hpending]
  generalize { e with pendingAt } = e
  dsimp only
  by_cases isOpen : e.collections = []
  · rw [if_neg (not_not.mpr isOpen)]
    split
    · rename_i hwaits
      cases busy : e.receives with
      | nil => simp [busy] at hwaits
      | cons wait receives =>
        have hdrop : { e with receives } = e.dropOldest .receive := by rw [dropOldest, busy]; rfl
        simp only [settleReceive, busy, hdrop]
        exact .handed isOpen (by rw [waits, busy]; rfl)
    · refine .kept isOpen ?_
      split
      · exact .inr rfl
      · exact .inl rfl
  · rw [if_pos isOpen]
    exact .gathered isOpen

theorem touches_onGenericNack (code : UInt8) :
    Touches t f e (e.onGenericNack code).1 (e.onGenericNack code).2 .request := by
  unfold onGenericNack
  change EndsOldest (if e.activation.isSome then .activation else .send) e _ _
  cases busy : e.activation with
  | some wait => exact .one (by rw [Option.isSome_some, if_pos rfl, waits, busy]; rfl)
  | none => exact endsOldest_settleAck _

theorem touches_onAck (a : Acknowledgement) (answer : Answer) :
    Touches t f e (e.onAck t a answer).1 (e.onAck t a answer).2
      (if a.target = t.source then .send else .nobody) := by
  unfold onAck
  by_cases own : a.target = t.source
  · rw [if_neg (not_not.mpr own), if_pos own]
    exact endsOldest_settleAck _
  · rw [if_pos own, if_neg own]
    exact ⟨rfl, rfl⟩

theorem touches_onDiagnostic (m : Diagnostic) :
    Touches t f e (e.onDiagnostic t target now f.encode m).1
      (e.onDiagnostic t target now f.encode m).2 ((Message.diagnostic m).concern t) := by
  unfold onDiagnostic
  by_cases elsewhere : m.target ≠ t.source
  · have hconcern : (Message.diagnostic m).concern t = .nobody := if_pos elsewhere
    rw [hconcern, if_pos elsewhere]
    exact ⟨rfl, rfl⟩
  rw [if_neg elsewhere]
  cases hpending : isResponsePending m.data with
  | true =>
    have hconcern : (Message.diagnostic m).concern t = .pending := by
      simp only [Message.concern, if_neg elsewhere, hpending, if_true]
    rw [hconcern, if_pos rfl]
    split
    · exact defers_onPending
    · exact .skipped
  | false =>
    have hconcern : (Message.diagnostic m).concern t = .response := by
      simp only [Message.concern, if_neg elsewhere, hpending, Bool.false_eq_true, if_false]
    rw [hconcern, if_neg Bool.false_ne_true]
    exact delivers_onResponse _ _

/-- A frame touches the exchange that it concerns. -/
theorem touches_dispatch (f : Frame) (e : Engine) :
    Touches t f e (e.dispatch t target now f).1 (e.dispatch t target now f).2 (f.concern t) := by
  cases hm : f.message with
  | error fault =>
    rw [Frame.concern_of_error hm]
    simp only [dispatch, hm]
    by_cases htype : f.header.payloadType = 0x8001
    · have hkind : PayloadKind.ofCode f.header.payloadType = .diagnostic := by
        rw [htype]
        rfl
      rw [if_pos htype, if_pos hkind]
      exact endsOldest_settleReceive _
    · rw [if_neg htype, if_neg fun hkind => htype (PayloadKind.ofCode_eq_diagnostic hkind)]
      exact ⟨rfl, rfl⟩
  | ok m =>
    rw [Frame.concern_of_ok hm]
    simp only [dispatch, hm]
    cases m with
    | genericNack code => exact touches_onGenericNack code
    | activationResponse r => exact endsOldest_onActivationResponse r
    | diagnostic m => exact touches_onDiagnostic m
    | positiveAck a | negativeAck a => exact touches_onAck a _
    | aliveCheckRequest => exact ⟨rfl, rfl⟩
    | activationRequest | aliveCheckResponse | unsupported => exact ⟨rfl, rfl⟩

/-! ## What follows for the calls that wait -/

/-- At most one call is answered, the oldest that waits in one of these kinds. The others wait on
as before. -/
inductive EndsAtMostOne (kinds : List CallKind) (e e' : Engine) (effect : Effect) : Prop
  | none (replies : effect.replies = []) (waits : ∀ kind, e'.waits kind = e.waits kind)
  | one {kind : CallKind} {reply : Reply} (among : kind ∈ kinds)
      (replies : effect.replies = [reply])
      (oldest : e.waits kind = reply.call :: e'.waits kind)
      (others : ∀ other, other ≠ kind → e'.waits other = e.waits other)

variable {kind other : CallKind} {kinds : List CallKind} {call : CallId}

theorem waits_dropOldest (e : Engine) (kind : CallKind) :
    (e.dropOldest kind).waits kind = (e.waits kind).tail := by
  cases kind with
  | activation => cases h : e.activation <;> simp [dropOldest, waits, h]
  | send | receive | collection => exact List.map_tail

theorem waits_dropOldest_of_ne (h : other ≠ kind) :
    (e.dropOldest kind).waits other = e.waits other := by
  cases kind <;> cases other <;> simp_all [dropOldest, waits]

theorem EndsOldest.endsAtMostOne (h : EndsOldest kind e e' effect) (among : kind ∈ kinds) :
    EndsAtMostOne kinds e e' effect := by
  cases h with
  | none => exact .none rfl fun _ => rfl
  | one oldest =>
    refine .one among rfl ?_ fun other => waits_dropOldest_of_ne
    rw [waits_dropOldest]
    exact (List.cons_head?_tail oldest).symm

theorem Defers.endsAtMostOne (h : Defers e e' effect) : EndsAtMostOne kinds e e' effect := by
  cases h with
  | skipped => exact .none rfl fun _ => rfl
  | moved waits =>
    refine .none rfl fun kind => ?_
    cases kind with
    | receive => simp [Engine.waits, waits]
    | activation | send | collection => rfl
  | remembered => exact .none rfl fun kind => by cases kind <;> rfl

theorem Delivers.endsAtMostOne {frame : Octets} (h : Delivers e frame e' effect)
    (among : .receive ∈ kinds) : EndsAtMostOne kinds e e' effect := by
  cases h with
  | gathered =>
    refine .none rfl fun kind => ?_
    cases kind with
    | collection => simp [waits, Function.comp_def]
    | activation | send | receive => rfl
  | handed _ oldest => exact (EndsOldest.one oldest).endsAtMostOne among
  | kept => exact .none rfl fun kind => by cases kind <;> rfl

theorem EndsAtMostOne.of_pendingAt {pendingAt : Option Instant}
    (h : EndsAtMostOne kinds { e with pendingAt } e' effect) : EndsAtMostOne kinds e e' effect := by
  have hsame : ∀ kind, Engine.waits { e with pendingAt } kind = e.waits kind :=
    fun kind => by cases kind <;> rfl
  cases h with
  | none replies waits => exact .none replies fun kind => (waits kind).trans (hsame kind)
  | one among replies oldest others =>
    exact .one among replies ((hsame _).symm.trans oldest)
      fun other hother => (others other hother).trans (hsame other)

/-- Whatever a frame concerns, it ends at most one call. -/
theorem Touches.endsAtMostOne {c : Concern} (h : Touches t f e e' effect c) :
    EndsAtMostOne c.kinds e e' effect := by
  cases c with
  | activation | send | receive => exact EndsOldest.endsAtMostOne h (by decide)
  | request => exact EndsOldest.endsAtMostOne h (by cases e.activation <;> simp [Concern.kinds])
  | pending => exact Defers.endsAtMostOne h
  | response =>
    obtain ⟨_, -, hdelivers⟩ := h
    exact (hdelivers.endsAtMostOne (by decide)).of_pendingAt
  | aliveCheck | nobody =>
    obtain ⟨rfl, rfl⟩ := h
    exact .none rfl fun _ => rfl

/-! ## What follows for the output -/

theorem EndsOldest.sent_eq (h : EndsOldest kind e e' effect) : effect.sent = [] := by
  cases h <;> rfl

theorem Defers.sent_eq (h : Defers e e' effect) : effect.sent = [] := by
  cases h <;> rfl

theorem Delivers.sent_eq {frame : Octets} (h : Delivers e frame e' effect) : effect.sent = [] := by
  cases h <;> rfl

/-- Alive check requests are answered, and nothing else is written. -/
theorem Touches.sent_eq {c : Concern} (h : Touches t f e e' effect c) :
    effect.sent = if c = .aliveCheck then aliveCheckAnswer t else [] := by
  cases c with
  | activation | send | receive | request => exact EndsOldest.sent_eq h
  | pending => exact Defers.sent_eq h
  | response =>
    obtain ⟨_, -, hdelivers⟩ := h
    exact hdelivers.sent_eq
  | aliveCheck | nobody =>
    obtain ⟨-, rfl⟩ := h
    rfl

/-- A frame touches the exchange that it concerns and ends at most one call, whatever else waits.
Only alive check requests cause output. -/
theorem each_frame_touches_its_exchange (t : Tuning) (target : Address) (now : Instant)
    (f : Frame) (e : Engine) :
    let after := e.dispatch t target now f
    Touches t f e after.1 after.2 (f.concern t) ∧
      EndsAtMostOne (f.concern t).kinds e after.1 after.2 ∧
      (after.2.sent ≠ [] ↔ f.concern t = .aliveCheck) := by
  have htouches : Touches t f e (e.dispatch t target now f).1 (e.dispatch t target now f).2
      (f.concern t) := touches_dispatch f e
  refine ⟨htouches, htouches.endsAtMostOne, ?_⟩
  rw [htouches.sent_eq]
  by_cases halive : f.concern t = .aliveCheck
  · rw [if_pos halive]
    exact iff_of_true (List.cons_ne_nil _ _) halive
  · rw [if_neg halive]
    exact iff_of_false (fun h => h rfl) halive

end Engine
end Doip
