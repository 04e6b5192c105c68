import Doip.Proofs.Message.Layout

/-! # The grammar of payloads

Whoever reads a payload takes the fields off its front one after the other, and has checked its
length once before that. `FieldReader.message` reads in this way. That it comes to what decoding
comes to (`run'_message`) means that the check in front suffices: no field is read where no octets
are left. `payloads_judged` sums up which payloads are decoded, into what, and with which faults
the others are refused. -/
namespace Doip

/-- Why a reader gives up. -/
inductive Halt where
  | refused (fault : WireError)
  /-- It reads on where no octets are left. -/
  | dry
deriving DecidableEq, Repr

/-- A reader that takes octets off the front of a payload. -/
abbrev FieldReader := StateT Octets (Except Halt)

namespace FieldReader

def octet : FieldReader UInt8
  | [] => .error .dry
  | first :: left => .ok (first, left)

def word : FieldReader UInt16 := do
  let hi ← octet
  let lo ← octet
  return word16 hi lo

def longWord : FieldReader UInt32 := do
  let a ← octet
  let b ← octet
  let c ← octet
  let d ← octet
  return word32 a b c d

def skip : Nat → FieldReader Unit
  | 0 => pure ()
  | count + 1 => do
    let _ ← octet
    skip count

def others : FieldReader Octets := fun left => .ok (left, [])

/-- Refuses a payload of type `t` with less than `count` octets. -/
def require (t : UInt16) (count : Nat) : FieldReader Unit := fun left =>
  if left.length < count then .error (.refused (.truncated t count left.length))
  else .ok ((), left)

def activationType (value : UInt8) : FieldReader ActivationType := fun left =>
  match ActivationType.ofCode value with
  | .ok type => .ok (type, left)
  | .error fault => .error (.refused fault)

/-- A word, where one is left. -/
def oem : FieldReader (Option UInt32) := fun left =>
  if 4 ≤ left.length then (some <$> longWord) left else .ok (none, left)

def acknowledgement (t : UInt16) : FieldReader Acknowledgement := do
  require t 5
  let source ← word
  let target ← word
  let code ← octet
  return ⟨source, target, code, ← others⟩

/-- Reads the payload of type `t` field by field. The length is checked once, in front. -/
def message (t : UInt16) : FieldReader Message :=
  match PayloadKind.ofCode t with
  | .genericNack => do
    require t 1
    return .genericNack (← octet)
  | .activationRequest => do
    require t 7
    let source ← word
    let type ← activationType (← octet)
    return .activationRequest ⟨source, type⟩
  | .activationResponse => do
    require t 9
    let tester ← word
    let entity ← word
    let code ← octet
    skip 4
    return .activationResponse ⟨tester, entity, ⟨code⟩, ← oem⟩
  | .aliveCheckRequest => return .aliveCheckRequest
  | .aliveCheckResponse => do
    require t 2
    return .aliveCheckResponse (← word)
  | .diagnostic => do
    require t 4
    let source ← word
    let target ← word
    return .diagnostic ⟨source, target, ← others⟩
  | .positiveAck => return .positiveAck (← acknowledgement t)
  | .negativeAck => return .negativeAck (← acknowledgement t)
  | .unsupported => return .unsupported t (← others)

theorem run'_require_of_short {α : Type} {t : UInt16} {count : Nat} {data : Octets}
    (few : data.length < count) (next : Unit → FieldReader α) :
    (require t count >>= next).run' data =
      .error (.refused (.truncated t count data.length)) := by
  have hrefused : require t count data = .error (.refused (.truncated t count data.length)) :=
    if_pos few
  change Except.map Prod.fst (Except.bind (require t count data) _) = _
  rw [hrefused]
  rfl

/-- What the check in front refuses. -/
theorem run'_message_of_short {t : UInt16} {data : Octets} (few : data.length < Message.fewest t) :
    (message t).run' data = .error (.refused (.truncated t (Message.fewest t) data.length)) := by
  by_cases known : t ∈ PayloadKind.known
  · simp only [PayloadKind.known, List.mem_cons, List.not_mem_nil, or_false] at known
    rcases known with rfl | rfl | rfl | rfl | rfl | rfl | rfl | rfl
    case inr.inr.inr.inl => cases few
    case inr.inr.inr.inr.inr.inr.inl | inr.inr.inr.inr.inr.inr.inr =>
      change (acknowledgement _ >>= _).run' data = _
      rw [acknowledgement, bind_assoc]
      exact run'_require_of_short few _
    all_goals exact run'_require_of_short few _
  · rw [Message.fewest_of_unknown known] at few
    cases few

theorem run'_message (t : UInt16) (data : Octets) :
    (message t).run' data = (Message.decode t data).mapError .refused := by
  rcases Nat.lt_or_ge data.length (Message.fewest t) with few | long
  · rw [run'_message_of_short few, Message.decode_of_short few]
    rfl
  · by_cases known : t ∈ PayloadKind.known
    · simp only [PayloadKind.known, List.mem_cons, List.not_mem_nil, or_false] at known
      rcases known with rfl | rfl | rfl | rfl | rfl | rfl | rfl | rfl
      · obtain ⟨code, rest, rfl, -⟩ := exists_octet long
        rfl
      · obtain ⟨s1, s0, _, rfl, hvalue⟩ := exists_word long
        obtain ⟨value, _, rfl, hreserved⟩ := exists_octet hvalue
        obtain ⟨r3, r2, r1, r0, rest, rfl, -⟩ := exists_longWord hreserved
        change Except.map Prod.fst (Except.bind (activationType value _) _) = Except.mapError _
          (Message.decode 0x0005 _)
        have hkind : PayloadKind.ofCode 0x0005 = .activationRequest := rfl
        simp only [activationType, Message.decode, hkind]
        cases ActivationType.ofCode value <;> rfl
      · obtain ⟨t1, t0, _, rfl, hentity⟩ := exists_word long
        obtain ⟨e1, e0, _, rfl, hcode⟩ := exists_word hentity
        obtain ⟨code, _, rfl, hreserved⟩ := exists_octet hcode
        obtain ⟨r3, r2, r1, r0, rest, rfl, -⟩ := exists_longWord hreserved
        -- less than four octets are no optional field
        rcases rest with _ | ⟨a, _ | ⟨b, _ | ⟨c, _ | ⟨d, rest⟩⟩⟩⟩ <;> rfl
      · rfl
      · obtain ⟨s1, s0, rest, rfl, -⟩ := exists_word long
        rfl
      · obtain ⟨s1, s0, _, rfl, htarget⟩ := exists_word long
        obtain ⟨t1, t0, rest, rfl, -⟩ := exists_word htarget
        rfl
      · obtain ⟨s1, s0, _, rfl, htarget⟩ := exists_word long
        obtain ⟨t1, t0, _, rfl, hcode⟩ := exists_word htarget
        obtain ⟨code, rest, rfl, -⟩ := exists_octet hcode
        rfl
      · obtain ⟨s1, s0, _, rfl, htarget⟩ := exists_word long
        obtain ⟨t1, t0, _, rfl, hcode⟩ := exists_word htarget
        obtain ⟨code, rest, rfl, -⟩ := exists_octet hcode
        rfl
    · have hkind := PayloadKind.ofCode_eq_unsupported.mpr known
      simp only [message, hkind, Message.decode]
      rfl

end FieldReader

/-! ## Faults -/

theorem Message.Refused.isHeaderError {t : UInt16} {data : Octets} {fault : WireError}
    (h : Message.Refused t data fault) : fault.isHeaderError = false := by
  cases h with
  | short => rfl
  | unknownType => rfl

theorem Frame.isHeaderError_of_scan {limit : UInt32} {buffer : Octets} {fault : WireError}
    (h : Frame.scan limit buffer = .broken fault) : fault.isHeaderError = true := by
  cases remainder_of_broken h with
  | mismatched => rfl
  | oversized => rfl

namespace Message

/-- How a payload of type `t` is judged. -/
structure Judged (t : UInt16) (data : Octets) : Prop where
  truncated : decode t data = .error (.truncated t (fewest t) data.length) ↔
    data.length < fewest t
  unknownType : ∀ value, decode t data = .error (.unknownActivationType value) ↔
    t = 0x0005 ∧ 7 ≤ data.length ∧ data[2]? = some value ∧ value ∉ ActivationType.codes
  /-- There is no third reason to refuse it. -/
  accepted : (∃ m, decode t data = .ok m) ↔ ¬data.length < fewest t ∧
    ¬∃ value, t = 0x0005 ∧ 7 ≤ data.length ∧ data[2]? = some value ∧ value ∉ ActivationType.codes
  placed : ∀ m, decode t data = .ok m ↔ LaidOut t data m
  oem : ∀ r, decode t data = .ok (.activationResponse r) → (r.oem.isSome ↔ 13 ≤ data.length)
  /-- No field is read beyond the end. -/
  inside : (FieldReader.message t).run' data = (decode t data).mapError .refused
  /-- The stream stays in step. -/
  harmless : ∀ fault, decode t data = .error fault → fault.isHeaderError = false

theorem judged (t : UInt16) (data : Octets) : Judged t data where
  truncated := by
    rw [decode_eq_error_iff]
    constructor
    · intro h
      cases h with
      | short few => exact few
    · exact .short
  unknownType value := by
    rw [decode_eq_error_iff]
    constructor
    · intro h
      cases h with
      | unknownType long place unknown => exact ⟨rfl, long, place, unknown⟩
    · rintro ⟨rfl, long, place, unknown⟩
      exact .unknownType long place unknown
  accepted := by
    constructor
    · rintro ⟨m, hm⟩
      refine ⟨fun few => ?_, ?_⟩
      · cases hm.symm.trans (Refused.short few).decode
      · rintro ⟨value, rfl, long, place, unknown⟩
        cases hm.symm.trans (Refused.unknownType long place unknown).decode
    · rintro ⟨long, readable⟩
      obtain ⟨m, hm⟩ | ⟨fault, few | ⟨long', place, unknown⟩⟩ := laidOut_or_refused t data
      · exact ⟨m, hm.decode⟩
      · exact absurd few long
      · exact absurd ⟨_, rfl, long', place, unknown⟩ readable
  placed m := decode_eq_ok_iff
  oem r hr := by
    obtain ⟨-, -, -, hoem⟩ := (decode_eq_ok_iff.mp hr).fields
    rw [← hoem]
    exact isSome_word32At?
  inside := FieldReader.run'_message t data
  harmless fault h := (decode_eq_error_iff.mp h).isHeaderError

/-- A payload is refused if it has too few octets for its type, or asks for an activation of no
known type, and is otherwise the message whose fields stand at their places. What is wrong with
a payload is never a fault of a header, and what stops the search for frames always is. -/
theorem payloads_judged :
    (∀ t data, Judged t data) ∧
      ∀ limit buffer fault, Frame.scan limit buffer = .broken fault → fault.isHeaderError = true :=
  ⟨judged, fun _ _ _ h => Frame.isHeaderError_of_scan h⟩

/-- An activation response whose optional field is not complete, a request of no known type, a
diagnostic message without its target, and a header that announces too much. -/
theorem edgePayloads_judged :
    decode 0x0006 [0x0E, 0x00, 0x06, 0x80, 0x10, 0, 0, 0, 0, 0xDE, 0xAD, 0xBE] =
        .ok (.activationResponse ⟨0x0E00, 0x0680, ⟨0x10⟩, none⟩) ∧
      decode 0x0005 [0x0E, 0x00, 0x02, 0, 0, 0, 0] = .error (.unknownActivationType 0x02) ∧
      decode 0x8001 [0x06, 0x80, 0x0E] = .error (.truncated 0x8001 4 3) ∧
      (WireError.payloadTooLarge 256 16).isHeaderError = true := by
  obtain ⟨hjudged, hheader⟩ := payloads_judged
  refine ⟨((hjudged _ _).placed _).mpr ⟨rfl, ?_, by decide, ?_⟩, ?_, ?_, ?_⟩
  · rintro ⟨_, _, ⟨⟩, _⟩
  · exact ⟨rfl, rfl, rfl, rfl⟩
  · exact ((hjudged _ _).unknownType _).mpr ⟨rfl, by decide, rfl, by decide⟩
  · exact (hjudged _ _).truncated.mpr (by decide)
  · exact hheader 16 [0x02, 0xFD, 0x80, 0x01, 0, 0, 1, 0] _ (by decide +kernel)

end Message
end Doip
