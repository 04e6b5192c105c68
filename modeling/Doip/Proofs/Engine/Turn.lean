import Doip.Engine.Dispatch
import Doip.Engine.Expiry

/-! # One turn of the engine

Whatever reaches the engine, it makes one of a few changes. `Turn` lists them, each
under the condition that selects it; `turn_handle` says that the engine does nothing
else. What a run keeps is proved by cases of `Turn`, so that only this file opens the
functions of the engine. -/
namespace Doip

/-- The final response to this tester that a frame holds. -/
def Frame.response? (t : Tuning) (f : Frame) : Option Diagnostic :=
  match f.message with
  | .ok (.diagnostic m) =>
    if m.target = t.source ∧ isResponsePending m.data = false then some m else none
  | _ => none

/-- The announcement of a later response to this tester that a frame holds. -/
def Frame.pending? (t : Tuning) (f : Frame) : Option Diagnostic :=
  match f.message with
  | .ok (.diagnostic m) =>
    if m.target = t.source ∧ isResponsePending m.data = true then some m else none
  | _ => none

theorem Frame.message_of_response? {t : Tuning} {f : Frame} {m : Diagnostic}
    (h : f.response? t = some m) :
    f.message = .ok (.diagnostic m) ∧ m.target = t.source ∧ isResponsePending m.data = false := by
  unfold Frame.response? at h
  split at h
  · rename_i m' hm
    split at h
    · rename_i hc
      cases h
      exact ⟨hm, hc⟩
    · cases h
  · cases h

theorem Frame.message_of_pending? {t : Tuning} {f : Frame} {m : Diagnostic}
    (h : f.pending? t = some m) :
    f.message = .ok (.diagnostic m) ∧ m.target = t.source ∧ isResponsePending m.data = true := by
  unfold Frame.pending? at h
  split at h
  · rename_i m' hm
    split at h
    · rename_i hc
      cases h
      exact ⟨hm, hc⟩
    · cases h
  · cases h

theorem Frame.response?_of_pending? {t : Tuning} {f : Frame} {m : Diagnostic}
    (h : f.pending? t = some m) : f.response? t = none := by
  obtain ⟨hm, ht, hp⟩ := Frame.message_of_pending? h
  simp [Frame.response?, hm, ht, hp]

theorem Frame.response?_of_unrelated {t : Tuning} {f : Frame}
    (h : ∀ m, f.message ≠ .ok (.diagnostic m)) : f.response? t = none := by
  cases hr : f.response? t with
  | none => rfl
  | some m => exact absurd (Frame.message_of_response? hr).1 (h m)

theorem Frame.pending?_of_unrelated {t : Tuning} {f : Frame}
    (h : ∀ m, f.message ≠ .ok (.diagnostic m)) : f.pending? t = none := by
  cases hp : f.pending? t with
  | none => rfl
  | some m => exact absurd (Frame.message_of_pending? hp).1 (h m)

theorem Message.payload_of_decode {code : UInt16} {data : Octets} {m : Diagnostic}
    (h : Message.decode code data = .ok (.diagnostic m)) :
    ∃ s1 s0 t1 t0 rest, data = s1 :: s0 :: t1 :: t0 :: rest ∧
      m = ⟨word16 s1 s0, word16 t1 t0, rest⟩ := by
  unfold Message.decode at h
  split at h
  case h_6 =>
    split at h
    · rename_i s1 s0 t1 t0 rest
      cases h
      exact ⟨s1, s0, t1, t0, rest, rfl, rfl⟩
    · cases h
  case h_2 =>
    split at h
    · split at h <;> cases h
    · cases h
  case h_7 | h_8 => cases hA : Message.acknowledgementOf code data <;> simp [hA, Except.map] at h
  all_goals first | cases h | (split at h <;> cases h)

/-- The source that is read off a frame of a diagnostic message is its sender. -/
theorem Frame.frameSource?_encode {f : Frame} {m : Diagnostic}
    (h : f.message = .ok (.diagnostic m)) : frameSource? f.encode = some m.source := by
  obtain ⟨s1, s0, t1, t0, rest, hp, rfl⟩ := Message.payload_of_decode h
  have hd : f.encode.drop 8 = f.payload := by
    rw [Frame.encode, List.drop_append_of_le_length (by simp [Header.size])]
    rfl
  simp only [frameSource?, hd, hp]

namespace Engine

/-- What reaches the engine. -/
inductive Input where
  /-- It takes a call. -/
  | start (id : CallId) (call : Call)
  | dispatch (frame : Frame)
  /-- These octets are left after the last whole frame. -/
  | keep (rest : Octets)
  /-- A deadline has come. -/
  | expire
deriving DecidableEq, Repr

def handle (t : Tuning) (target : Address) (now : Instant) (input : Input) (e : Engine) :
    Engine × Effect :=
  match input with
  | .start id call => e.start t target now id call
  | .dispatch f => e.dispatch t target now f
  | .keep rest => ({ e with buffer := rest }, .none)
  | .expire => e.expire now

/-- The answer of an acknowledgement to the send it settles. -/
inductive Settles (t : Tuning) : Message → Answer → Prop where
  | positive {a : Acknowledgement} : a.target = t.source → Settles t (.positiveAck a) .acknowledged
  | negative {a : Acknowledgement} : a.target = t.source →
      Settles t (.negativeAck a) (.failed (.negativeAck ⟨a.code⟩))

/-- The changes that the engine makes. -/
inductive Turn (t : Tuning) (target : Address) (now : Instant) (e : Engine) :
    Input → Engine → Effect → Prop where
  | activationRefused {id : CallId} {type : ActivationType} {wait : ActivationWait}
      (busy : e.activation = some wait) :
      Turn t target now e (.start id (.activate type)) e
        (.reply id (.failed (.invalidArgument "routing activation already in progress")))
  | activationStarted {id : CallId} {type : ActivationType} (free : e.activation = none) :
      Turn t target now e (.start id (.activate type))
        { e with activation := some ⟨id, deadlineAfter now (some t.activationTimeout)⟩ }
        (.send (wire t (.activationRequest ⟨t.source, type⟩)))
  | sent {id : CallId} {receiver : Address} {data : Octets} {timeout : Option Duration} :
      Turn t target now e (.start id (.send receiver data timeout))
        { e with
          inbox := []
          pendingAt := none
          acks := e.acks ++ [⟨id, deadlineAfter now timeout⟩] }
        (.send (wire t (.diagnostic ⟨t.source, receiver, data⟩)))
  /-- A receive takes the oldest response of the target out of the inbox. -/
  | claimed {id : CallId} {timeout : Option Duration} {before after : List Octets} {frame : Octets}
      (split : e.inbox = before ++ frame :: after)
      (others : ∀ f ∈ before, frameSource? f ≠ some target)
      (source : frameSource? frame = some target) :
      Turn t target now e (.start id (.receive timeout))
        { e with inbox := before ++ after } (.reply id (.frame frame))
  | waited {id : CallId} {timeout : Option Duration}
      (absent : ∀ f ∈ e.inbox, frameSource? f ≠ some target) :
      Turn t target now e (.start id (.receive timeout))
        { e with
          pendingAt := none
          receives := e.receives ++ [receiveWait t now id timeout e.pendingAt] } .none
  | collectionOpened {id : CallId} {window : Duration} {deadline : Instant}
      (fits : collectionEnd? t now window = some deadline) :
      Turn t target now e (.start id (.collect window))
        { e with inbox := [], collections := e.collections ++ [⟨id, deadline, e.inbox⟩] } .none
  | collectionRefused {id : CallId} {window : Duration} (late : collectionEnd? t now window = none) :
      Turn t target now e (.start id (.collect window)) e
        (.reply id (.failed (.invalidArgument "collection window is too large")))
  /-- The frame concerns nobody. -/
  | skipped {f : Frame} (other : f.response? t = none)
      (silent : ∀ m, f.pending? t = some m → m.source ≠ target) :
      Turn t target now e (.dispatch f) e .none
  | aliveAnswered {f : Frame} (message : f.message = .ok .aliveCheckRequest) :
      Turn t target now e (.dispatch f) e (.send (wire t (.aliveCheckResponse t.source)))
  | activationAnswered {f : Frame} {r : ActivationResponse} {wait : ActivationWait}
      (message : f.message = .ok (.activationResponse r)) (waits : e.activation = some wait) :
      Turn t target now e (.dispatch f) { e with activation := none }
        (.reply wait.call (activationAnswer t r))
  | sendSettled {f : Frame} {m : Message} {answer : Answer} {wait : AckWait} {acks : List AckWait}
      (message : f.message = .ok m) (settles : Settles t m answer) (waits : e.acks = wait :: acks) :
      Turn t target now e (.dispatch f) { e with acks } (.reply wait.call answer)
  | activationNacked {f : Frame} {code : UInt8} {wait : ActivationWait}
      (message : f.message = .ok (.genericNack code)) (waits : e.activation = some wait) :
      Turn t target now e (.dispatch f) { e with activation := none }
        (.reply wait.call (.failed (.unexpectedResponse ("generic NACK 0x" ++ Text.hex2 code))))
  | sendNacked {f : Frame} {code : UInt8} {wait : AckWait} {acks : List AckWait}
      (message : f.message = .ok (.genericNack code)) (free : e.activation = none)
      (waits : e.acks = wait :: acks) :
      Turn t target now e (.dispatch f) { e with acks }
        (.reply wait.call (.failed (.unexpectedResponse ("generic NACK 0x" ++ Text.hex2 code))))
  | receiveFailed {f : Frame} {fault : WireError} {wait : ReceiveWait} {receives : List ReceiveWait}
      (message : f.message = .error fault)
      (kind : PayloadKind.ofCode f.header.payloadType = .diagnostic)
      (waits : e.receives = wait :: receives) :
      Turn t target now e (.dispatch f) { e with receives }
        (.reply wait.call (.failed (.ofWireError fault)))
  /-- A response pending restarts the timer of the oldest receive. -/
  | extended {f : Frame} {m : Diagnostic} {wait : ReceiveWait} {receives : List ReceiveWait}
      (pending : f.pending? t = some m) (source : m.source = target)
      (waits : e.receives = wait :: receives) :
      Turn t target now e (.dispatch f)
        { e with receives := wait.extend now t.p2Star :: receives } .none
  | remembered {f : Frame} {m : Diagnostic} (pending : f.pending? t = some m)
      (source : m.source = target) (idle : e.receives = []) :
      Turn t target now e (.dispatch f) { e with pendingAt := some now } .none
  /-- A response goes to every open collection. -/
  | gathered {f : Frame} {m : Diagnostic} (response : f.response? t = some m)
      (isOpen : e.collections ≠ []) :
      Turn t target now e (.dispatch f)
        { e with
          pendingAt := if m.source = target then none else e.pendingAt
          collections := e.collections.map fun c => { c with frames := c.frames ++ [f.encode] } }
        .none
  /-- A response of the target goes to the oldest receive. -/
  | handed {f : Frame} {m : Diagnostic} {wait : ReceiveWait} {receives : List ReceiveWait}
      (response : f.response? t = some m) (source : m.source = target)
      (closed : e.collections = []) (waits : e.receives = wait :: receives) :
      Turn t target now e (.dispatch f) { e with pendingAt := none, receives }
        (.reply wait.call (.frame f.encode))
  | kept {f : Frame} {m : Diagnostic} (response : f.response? t = some m)
      (closed : e.collections = []) (idle : m.source = target → e.receives = []) :
      Turn t target now e (.dispatch f)
        (buffered t f.encode
          { e with pendingAt := if m.source = target then none else e.pendingAt }) .none
  | refilled {rest : Octets} : Turn t target now e (.keep rest) { e with buffer := rest } .none
  | expired : Turn t target now e .expire (e.expire now).1 (e.expire now).2

variable {t : Tuning} {target : Address} {now : Instant} {e : Engine}

theorem turn_start (id : CallId) (call : Call) :
    Turn t target now e (.start id call) (e.start t target now id call).1
      (e.start t target now id call).2 := by
  cases call with
  | activate type =>
    simp only [start, startActivation]
    cases ha : e.activation with
    | none => exact .activationStarted ha
    | some wait => exact .activationRefused ha
  | send receiver data timeout => exact .sent
  | receive timeout =>
    simp only [start, startReceive]
    split
    · rename_i frame hf
      obtain ⟨hs, before, after, hi, hb⟩ := List.find?_eq_some_iff_append.mp hf
      have he : e.inbox.eraseP (fun f => decide (frameSource? f = some target)) =
          before ++ after := by
        rw [hi, List.eraseP_append_right _ (by simpa using hb)]
        simp only [List.eraseP_cons, hs, cond_true]
      rw [he]
      exact .claimed hi (by simpa using hb) (by simpa using hs)
    · rename_i hf
      exact .waited (by simpa using hf)
  | collect window =>
    simp only [start, startCollection]
    cases hc : collectionEnd? t now window with
    | some deadline => exact .collectionOpened hc
    | none => exact .collectionRefused hc

theorem turn_unrelated {f : Frame} (h : ∀ m, f.message ≠ .ok (.diagnostic m)) :
    Turn t target now e (.dispatch f) e .none :=
  .skipped (Frame.response?_of_unrelated h) fun m hp => by
    rw [Frame.pending?_of_unrelated h] at hp
    cases hp

theorem turn_onResponse {f : Frame} {m : Diagnostic} (h : f.response? t = some m) :
    Turn t target now e (.dispatch f) (e.onResponse t (m.source = target) f.encode).1
      (e.onResponse t (m.source = target) f.encode).2 := by
  obtain ⟨buffer, activation, acks, receives, collections, inbox, pendingAt⟩ := e
  cases collections with
  | cons c rest =>
    have ht : Turn t target now ⟨buffer, activation, acks, receives, c :: rest, inbox, pendingAt⟩
        (.dispatch f) _ _ := .gathered h (by simp)
    by_cases hs : m.source = target <;> simpa [onResponse, hs] using ht
  | nil =>
    by_cases hs : m.source = target
    · cases receives with
      | nil =>
        have ht : Turn t target now ⟨buffer, activation, acks, [], [], inbox, pendingAt⟩
            (.dispatch f) _ _ := .kept h rfl (fun _ => rfl)
        simpa [onResponse, hs] using ht
      | cons wait rest =>
        have ht : Turn t target now ⟨buffer, activation, acks, wait :: rest, [], inbox, pendingAt⟩
            (.dispatch f) _ _ := .handed h hs rfl rfl
        simpa [onResponse, hs, settleReceive] using ht
    · have ht : Turn t target now ⟨buffer, activation, acks, receives, [], inbox, pendingAt⟩
          (.dispatch f) _ _ := .kept h rfl (fun he => absurd he hs)
      simpa [onResponse, hs] using ht

theorem turn_onDiagnostic {f : Frame} {m : Diagnostic} (hm : f.message = .ok (.diagnostic m)) :
    Turn t target now e (.dispatch f) (e.onDiagnostic t target now f.encode m).1
      (e.onDiagnostic t target now f.encode m).2 := by
  unfold onDiagnostic
  by_cases ht : m.target = t.source
  · rw [if_neg (by simpa using ht)]
    cases hp : isResponsePending m.data with
    | true =>
      have hpending : f.pending? t = some m := by simp [Frame.pending?, hm, ht, hp]
      by_cases hs : m.source = target
      · simp only [hs, if_true, onPending]
        split
        · rename_i wait rest hr
          exact .extended hpending hs hr
        · rename_i hr
          exact .remembered hpending hs hr
      · simp only [hs, if_true, if_false]
        refine .skipped (Frame.response?_of_pending? hpending) fun m' hm' => ?_
        rw [hpending] at hm'
        cases hm'
        exact hs
    | false => exact turn_onResponse (by simp [Frame.response?, hm, ht, hp])
  · rw [if_pos (by simpa using ht)]
    exact .skipped (by simp [Frame.response?, hm, ht]) (by simp [Frame.pending?, hm, ht])

theorem turn_settleAck {f : Frame} {m : Message} {answer : Answer} (hm : f.message = .ok m)
    (hs : Settles t m answer) :
    Turn t target now e (.dispatch f) (e.settleAck answer).1 (e.settleAck answer).2 := by
  unfold settleAck
  cases ha : e.acks with
  | nil =>
    refine turn_unrelated fun m' hm' => ?_
    rw [hm] at hm'
    cases hs <;> cases hm'
  | cons wait acks => exact .sendSettled hm hs ha

theorem turn_dispatch (f : Frame) :
    Turn t target now e (.dispatch f) (e.dispatch t target now f).1
      (e.dispatch t target now f).2 := by
  unfold dispatch
  split
  · rename_i fault hm
    have hunrelated : ∀ m, f.message ≠ .ok (.diagnostic m) := by simp [hm]
    by_cases hk : PayloadKind.ofCode f.header.payloadType = .diagnostic
    · simp only [hk, if_true, settleReceive]
      cases hr : e.receives with
      | nil => exact turn_unrelated hunrelated
      | cons wait receives => exact .receiveFailed hm hk hr
    · simp only [hk, if_false]
      exact turn_unrelated hunrelated
  · rename_i m hm
    cases m with
    | aliveCheckRequest => exact .aliveAnswered hm
    | activationResponse r =>
      simp only [onActivationResponse]
      cases ha : e.activation with
      | none => exact turn_unrelated (by simp [hm])
      | some wait => exact .activationAnswered hm ha
    | positiveAck a =>
      simp only [onAck]
      by_cases ht : a.target = t.source
      · simp only [ht, ne_eq, not_true_eq_false, if_false]
        exact turn_settleAck hm (.positive ht)
      · simp only [ht, ne_eq, not_false_eq_true, if_true]
        exact turn_unrelated (by simp [hm])
    | negativeAck a =>
      simp only [onAck]
      by_cases ht : a.target = t.source
      · simp only [ht, ne_eq, not_true_eq_false, if_false]
        exact turn_settleAck hm (.negative ht)
      · simp only [ht, ne_eq, not_false_eq_true, if_true]
        exact turn_unrelated (by simp [hm])
    | diagnostic m => exact turn_onDiagnostic hm
    | genericNack code =>
      simp only [onGenericNack]
      split
      · rename_i wait ha
        exact .activationNacked hm ha
      · rename_i ha
        unfold settleAck
        split
        · exact turn_unrelated (by simp [hm])
        · rename_i wait acks hk
          exact .sendNacked hm ha hk
    | activationRequest r => exact turn_unrelated (by simp [hm])
    | aliveCheckResponse s => exact turn_unrelated (by simp [hm])
    | unsupported c d => exact turn_unrelated (by simp [hm])

/-- The engine makes no other change. -/
theorem turn_handle (input : Input) :
    Turn t target now e input (e.handle t target now input).1
      (e.handle t target now input).2 := by
  cases input with
  | start id call => exact turn_start id call
  | dispatch f => exact turn_dispatch f
  | keep rest => exact .refilled
  | expire => exact .expired

end Engine
end Doip
