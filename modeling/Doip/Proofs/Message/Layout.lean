import Doip.Proofs.Frame.Messages

/-! # Which payloads are read, and as what

A payload type asks for a number of octets (`Message.fewest`), and the fields of its message
stand at fixed places (`Message.StandsIn`). `decode_eq_ok_iff` and `decode_eq_error_iff` say that
payloads are judged by this and by nothing else: one that is `LaidOut` is decoded into its message,
and one that is `Refused` gives its fault. Every payload is one or the other. -/
namespace Doip

/-- The word of the octets at `place` and after it, the most significant one first. -/
def word16At? (data : Octets) (place : Nat) : Option UInt16 := do
  return word16 (← data[place]?) (← data[place + 1]?)

def word32At? (data : Octets) (place : Nat) : Option UInt32 := do
  return word32 (← data[place]?) (← data[place + 1]?) (← data[place + 2]?) (← data[place + 3]?)

theorem isSome_word32At? {data : Octets} {place : Nat} :
    (word32At? data place).isSome ↔ place + 4 ≤ data.length := by
  constructor
  · intro h
    obtain ⟨w, hw⟩ := Option.isSome_iff_exists.mp h
    simp only [word32At?, Option.bind_eq_bind, Option.bind_eq_some_iff] at hw
    obtain ⟨-, -, -, -, -, -, d, hd, -⟩ := hw
    obtain ⟨inside, -⟩ := List.getElem?_eq_some_iff.mp hd
    exact inside
  · intro h
    have h0 : place < data.length := by omega
    have h1 : place + 1 < data.length := by omega
    have h2 : place + 2 < data.length := by omega
    have h3 : place + 3 < data.length := by omega
    simp [word32At?, h0, h1, h2, h3]

/-! Octets that are there can be taken off the front. -/

section
variable {data : Octets} {count : Nat}

theorem exists_octet (h : count + 1 ≤ data.length) :
    ∃ first rest, data = first :: rest ∧ count ≤ rest.length := by
  cases data with
  | nil => cases h
  | cons first rest => exact ⟨first, rest, rfl, Nat.le_of_succ_le_succ h⟩

theorem exists_word (h : count + 2 ≤ data.length) :
    ∃ hi lo rest, data = hi :: lo :: rest ∧ count ≤ rest.length := by
  obtain ⟨hi, _, rfl, hlo⟩ := exists_octet h
  obtain ⟨lo, rest, rfl, hrest⟩ := exists_octet hlo
  exact ⟨hi, lo, rest, rfl, hrest⟩

theorem exists_longWord (h : count + 4 ≤ data.length) :
    ∃ a b c d rest, data = a :: b :: c :: d :: rest ∧ count ≤ rest.length := by
  obtain ⟨a, b, _, rfl, hlower⟩ := exists_word h
  obtain ⟨c, d, rest, rfl, hrest⟩ := exists_word hlower
  exact ⟨a, b, c, d, rest, rfl, hrest⟩

end

namespace ActivationType

/-- The codes that activation types have. -/
def codes : List UInt8 := [0x00, 0x01, 0xE0, 0xE1]

theorem ofCode_eq_error {value : UInt8} {fault : WireError} :
    ofCode value = .error fault ↔ value ∉ codes ∧ fault = .unknownActivationType value := by
  rw [ofCode_eq_error_iff]
  simp [codes, and_comm]

theorem mem_codes {value : UInt8} : value ∈ codes ↔ ∃ type : ActivationType, value = type.code := by
  constructor
  · intro h
    cases hread : ofCode value with
    | ok type => exact ⟨type, (code_of_ofCode hread).symm⟩
    | error fault => exact absurd h (ofCode_eq_error.mp hread).1
  · rintro ⟨type, rfl⟩
    cases type <;> decide

end ActivationType

namespace Message

/-- The payload types that have a meaning here, and how many octets each takes at least. -/
def minima : List (UInt16 × Nat) :=
  [(0x0000, 1), (0x0005, 7), (0x0006, 9), (0x0007, 0), (0x0008, 2), (0x8001, 4), (0x8002, 5),
    (0x8003, 5)]

/-- How many octets a payload of type `t` takes at least. -/
def fewest (t : UInt16) : Nat := (minima.lookup t).getD 0

theorem fewest_of_unknown {t : UInt16} (h : t ∉ PayloadKind.known) : fewest t = 0 := by
  have absent : minima.lookup t = none := by
    refine List.lookup_eq_none_iff.mpr fun entry hentry => ?_
    rw [bne_iff_ne]
    rintro rfl
    exact h (List.mem_map_of_mem hentry : entry.1 ∈ minima.map Prod.fst)
  rw [fewest, absent, Option.getD_none]

theorem minLength_ofCode (t : UInt16) : (PayloadKind.ofCode t).minLength = fewest t := by
  by_cases known : t ∈ PayloadKind.known
  · simp only [PayloadKind.known, List.mem_cons, List.not_mem_nil, or_false] at known
    rcases known with rfl | rfl | rfl | rfl | rfl | rfl | rfl | rfl <;> rfl
  · rw [fewest_of_unknown known, PayloadKind.ofCode_eq_unsupported.mpr known, PayloadKind.minLength]

/-- The fields of a message stand in a payload, each at its place. -/
def StandsIn (data : Octets) : Message → Prop
  | genericNack code => data[0]? = some code
  | activationRequest r => word16At? data 0 = some r.source ∧ data[2]? = some r.type.code
  | activationResponse r =>
    word16At? data 0 = some r.tester ∧ word16At? data 2 = some r.entity ∧
      data[4]? = some r.code.value ∧ word32At? data 9 = r.oem
  | aliveCheckRequest => True
  | aliveCheckResponse source => word16At? data 0 = some source
  | diagnostic m =>
    word16At? data 0 = some m.source ∧ word16At? data 2 = some m.target ∧ data.drop 4 = m.data
  | positiveAck a | negativeAck a =>
    word16At? data 0 = some a.source ∧ word16At? data 2 = some a.target ∧
      data[4]? = some a.code ∧ data.drop 5 = a.previous
  | unsupported _ octets => data = octets

/-- A payload of type `t` is long enough and holds the message. -/
structure LaidOut (t : UInt16) (data : Octets) (m : Message) : Prop where
  type : m.payloadType = t
  honest : ¬m.Disguised
  long : fewest t ≤ data.length
  fields : m.StandsIn data

variable {t : UInt16} {data : Octets} {m : Message} {fault : WireError}

theorem acknowledgementOf_of_short (few : data.length < 5) :
    acknowledgementOf t data = .error (tooShort t data) := by
  match data, few with
  | [], _ | [_], _ | [_, _], _ | [_, _, _], _ | [_, _, _, _], _ => rfl

/-- A payload with too few octets is refused. -/
theorem decode_of_short (few : data.length < fewest t) :
    decode t data = .error (.truncated t (fewest t) data.length) := by
  have hrefused : decode t data = .error (tooShort t data) := by
    rw [← minLength_ofCode] at few
    unfold decode
    split <;> rename_i hkind <;> rw [hkind] at few
    case h_4 | h_9 => cases few
    case h_7 | h_8 =>
      rw [acknowledgementOf_of_short few]
      rfl
    case h_1 | h_2 | h_3 | h_5 | h_6 =>
      split
      · simp only [PayloadKind.minLength, List.length_cons] at few
        omega
      · rfl
  rw [hrefused, tooShort, minLength_ofCode]

theorem word32At?_eq_oemField (rest : Octets) : word32At? rest 0 = oemField rest := by
  match rest with
  | [] | [_] | [_, _] | [_, _, _] | _ :: _ :: _ :: _ :: _ => rfl

/-- An honest message is decoded from any payload that is long enough and holds its fields. -/
theorem LaidOut.decode (h : LaidOut t data m) : decode t data = .ok m := by
  obtain ⟨rfl, honest, long, fields⟩ := h
  cases m with
  | genericNack code =>
    obtain ⟨c, rest, rfl, -⟩ := exists_octet long
    obtain rfl : c = code := by simpa [StandsIn] using fields
    rfl
  | activationRequest r =>
    obtain ⟨s1, s0, _, rfl, hvalue⟩ := exists_word long
    obtain ⟨value, _, rfl, hreserved⟩ := exists_octet hvalue
    obtain ⟨r3, r2, r1, r0, rest, rfl, -⟩ := exists_longWord hreserved
    obtain ⟨source, type⟩ := r
    obtain ⟨rfl, rfl⟩ : word16 s1 s0 = source ∧ value = type.code := by
      simpa [StandsIn, word16At?] using fields
    have hkind : PayloadKind.ofCode 0x0005 = .activationRequest := rfl
    simp only [Message.decode, payloadType, hkind, ActivationType.ofCode_code]
  | activationResponse r =>
    obtain ⟨t1, t0, _, rfl, hentity⟩ := exists_word long
    obtain ⟨e1, e0, _, rfl, hvalue⟩ := exists_word hentity
    obtain ⟨value, _, rfl, hreserved⟩ := exists_octet hvalue
    obtain ⟨r3, r2, r1, r0, rest, rfl, -⟩ := exists_longWord hreserved
    obtain ⟨tester, entity, ⟨code⟩, oem⟩ := r
    obtain ⟨rfl, rfl, rfl, hoem⟩ : word16 t1 t0 = tester ∧ word16 e1 e0 = entity ∧
        value = code ∧ word32At? rest 0 = oem := by
      simpa [StandsIn, word16At?, word32At?] using fields
    rw [word32At?_eq_oemField] at hoem
    subst hoem
    rfl
  | aliveCheckRequest => rfl
  | aliveCheckResponse source =>
    obtain ⟨s1, s0, rest, rfl, -⟩ := exists_word long
    obtain rfl : word16 s1 s0 = source := by simpa [StandsIn, word16At?] using fields
    rfl
  | diagnostic d =>
    obtain ⟨s1, s0, _, rfl, htarget⟩ := exists_word long
    obtain ⟨t1, t0, rest, rfl, -⟩ := exists_word htarget
    obtain ⟨source, target, octets⟩ := d
    obtain ⟨rfl, rfl, rfl⟩ : word16 s1 s0 = source ∧ word16 t1 t0 = target ∧ rest = octets := by
      simpa [StandsIn, word16At?] using fields
    rfl
  | positiveAck a | negativeAck a =>
    obtain ⟨s1, s0, _, rfl, htarget⟩ := exists_word long
    obtain ⟨t1, t0, _, rfl, hvalue⟩ := exists_word htarget
    obtain ⟨value, rest, rfl, -⟩ := exists_octet hvalue
    obtain ⟨source, target, code, previous⟩ := a
    obtain ⟨rfl, rfl, rfl, rfl⟩ : word16 s1 s0 = source ∧ word16 t1 t0 = target ∧
        value = code ∧ rest = previous := by
      simpa [StandsIn, word16At?] using fields
    rfl
  | unsupported t octets =>
    obtain rfl : data = octets := fields
    have unknown : t ∉ PayloadKind.known := fun known => honest ⟨t, data, rfl, known⟩
    simp only [Message.decode, payloadType, PayloadKind.ofCode_eq_unsupported.mpr unknown]

/-- Each payload that is long enough holds a message, but for an activation request of no known
type. -/
theorem exists_laidOut (long : fewest t ≤ data.length)
    (readable : t = 0x0005 → ∀ value, data[2]? = some value → value ∈ ActivationType.codes) :
    ∃ m, LaidOut t data m := by
  by_cases known : t ∈ PayloadKind.known
  · simp only [PayloadKind.known, List.mem_cons, List.not_mem_nil, or_false] at known
    rcases known with rfl | rfl | rfl | rfl | rfl | rfl | rfl | rfl
    · obtain ⟨code, rest, rfl, -⟩ := exists_octet long
      exact ⟨genericNack code, rfl, by rintro ⟨_, _, ⟨⟩, _⟩, long, by simp [StandsIn]⟩
    · obtain ⟨s1, s0, _, rfl, hvalue⟩ := exists_word long
      obtain ⟨value, rest, rfl, -⟩ := exists_octet hvalue
      obtain ⟨type, rfl⟩ := ActivationType.mem_codes.mp (readable rfl value rfl)
      exact ⟨activationRequest ⟨word16 s1 s0, type⟩, rfl, by rintro ⟨_, _, ⟨⟩, _⟩, long,
        by simp [StandsIn, word16At?]⟩
    · obtain ⟨t1, t0, _, rfl, hentity⟩ := exists_word long
      obtain ⟨e1, e0, _, rfl, hcode⟩ := exists_word hentity
      obtain ⟨code, rest, rfl, -⟩ := exists_octet hcode
      exact ⟨activationResponse ⟨word16 t1 t0, word16 e1 e0, ⟨code⟩, word32At? rest 4⟩, rfl,
        by rintro ⟨_, _, ⟨⟩, _⟩, long, by simp [StandsIn, word16At?, word32At?]⟩
    · exact ⟨aliveCheckRequest, rfl, by rintro ⟨_, _, ⟨⟩, _⟩, long, trivial⟩
    · obtain ⟨s1, s0, rest, rfl, -⟩ := exists_word long
      exact ⟨aliveCheckResponse (word16 s1 s0), rfl, by rintro ⟨_, _, ⟨⟩, _⟩, long,
        by simp [StandsIn, word16At?]⟩
    · obtain ⟨s1, s0, _, rfl, htarget⟩ := exists_word long
      obtain ⟨t1, t0, rest, rfl, -⟩ := exists_word htarget
      exact ⟨diagnostic ⟨word16 s1 s0, word16 t1 t0, rest⟩, rfl, by rintro ⟨_, _, ⟨⟩, _⟩, long,
        by simp [StandsIn, word16At?]⟩
    · obtain ⟨s1, s0, _, rfl, htarget⟩ := exists_word long
      obtain ⟨t1, t0, _, rfl, hcode⟩ := exists_word htarget
      obtain ⟨code, rest, rfl, -⟩ := exists_octet hcode
      exact ⟨positiveAck ⟨word16 s1 s0, word16 t1 t0, code, rest⟩, rfl,
        by rintro ⟨_, _, ⟨⟩, _⟩, long, by simp [StandsIn, word16At?]⟩
    · obtain ⟨s1, s0, _, rfl, htarget⟩ := exists_word long
      obtain ⟨t1, t0, _, rfl, hcode⟩ := exists_word htarget
      obtain ⟨code, rest, rfl, -⟩ := exists_octet hcode
      exact ⟨negativeAck ⟨word16 s1 s0, word16 t1 t0, code, rest⟩, rfl,
        by rintro ⟨_, _, ⟨⟩, _⟩, long, by simp [StandsIn, word16At?]⟩
  · refine ⟨unsupported t data, rfl, ?_, long, rfl⟩
    rintro ⟨_, _, ⟨⟩, known'⟩
    exact known known'

/-- Why a payload of type `t` is refused. -/
inductive Refused : UInt16 → Octets → WireError → Prop
  | short {t : UInt16} {data : Octets} (few : data.length < fewest t) :
      Refused t data (.truncated t (fewest t) data.length)
  | unknownType {data : Octets} {value : UInt8} (long : 7 ≤ data.length)
      (place : data[2]? = some value) (unknown : value ∉ ActivationType.codes) :
      Refused 0x0005 data (.unknownActivationType value)

theorem Refused.decode (h : Refused t data fault) : decode t data = .error fault := by
  cases h with
  | short few => exact decode_of_short few
  | @unknownType _ value long place unknown =>
    obtain ⟨s1, s0, _, rfl, hvalue⟩ := exists_word long
    obtain ⟨type, _, rfl, hreserved⟩ := exists_octet hvalue
    obtain ⟨r3, r2, r1, r0, rest, rfl, -⟩ := exists_longWord hreserved
    obtain rfl : type = value := Option.some.inj place
    have hkind : PayloadKind.ofCode 0x0005 = .activationRequest := rfl
    simp only [Message.decode, hkind, ActivationType.ofCode_eq_error.mpr ⟨unknown, rfl⟩]

theorem laidOut_or_refused (t : UInt16) (data : Octets) :
    (∃ m, LaidOut t data m) ∨ ∃ fault, Refused t data fault := by
  rcases Nat.lt_or_ge data.length (fewest t) with few | long
  · exact .inr ⟨_, .short few⟩
  · by_cases readable : t = 0x0005 → ∀ value, data[2]? = some value → value ∈ ActivationType.codes
    · exact .inl (exists_laidOut long readable)
    · push Not at readable
      obtain ⟨rfl, value, place, unknown⟩ := readable
      exact .inr ⟨_, .unknownType long place unknown⟩

theorem decode_eq_ok_iff : decode t data = .ok m ↔ LaidOut t data m := by
  refine ⟨fun h => ?_, LaidOut.decode⟩
  rcases laidOut_or_refused t data with ⟨m', holds⟩ | ⟨fault, refused⟩
  · obtain rfl : m' = m := Except.ok.inj (holds.decode.symm.trans h)
    exact holds
  · cases refused.decode.symm.trans h

theorem decode_eq_error_iff : decode t data = .error fault ↔ Refused t data fault := by
  refine ⟨fun h => ?_, Refused.decode⟩
  rcases laidOut_or_refused t data with ⟨m, holds⟩ | ⟨fault', refused⟩
  · cases holds.decode.symm.trans h
  · obtain rfl : fault' = fault := Except.error.inj (refused.decode.symm.trans h)
    exact refused

end Message

end Doip
