import Doip.Proofs.Message.Layout

/-! # What is read and written again

A message that is written is read back, unless it is disguised. A payload that is read and written
again comes out in its `canonical` form: reserved octets are zero, and octets that nobody reads are
gone. It is read as the same message, and is no longer than it was (`payloads_read_back`). -/
namespace Doip.Message

/-- The payload with zeros for its reserved octets, and without the octets that are not read. -/
def canonical (t : UInt16) (data : Octets) : Octets :=
  match PayloadKind.ofCode t with
  | .genericNack => data.take 1
  | .activationRequest => data.take 3 ++ octets32 0
  | .activationResponse =>
    data.take 5 ++ octets32 0 ++ if 13 ≤ data.length then (data.drop 9).take 4 else []
  | .aliveCheckRequest => []
  | .aliveCheckResponse => data.take 2
  | .diagnostic | .positiveAck | .negativeAck | .unsupported => data

/-- The payload types whose octets are all read. -/
def verbatim : List UInt16 := [0x8001, 0x8002, 0x8003]

variable {t : UInt16} {data : Octets} {m : Message}

theorem canonical_of_verbatim (h : t ∈ verbatim ∨ t ∉ PayloadKind.known) :
    canonical t data = data := by
  rcases h with listed | unknown
  · simp only [verbatim, List.mem_cons, List.not_mem_nil, or_false] at listed
    rcases listed with rfl | rfl | rfl <;> rfl
  · simp only [canonical, PayloadKind.ofCode_eq_unsupported.mpr unknown]

theorem length_canonical_le (long : fewest t ≤ data.length) :
    (canonical t data).length ≤ data.length := by
  rw [← minLength_ofCode] at long
  unfold canonical
  split <;> rename_i hkind <;> simp only [hkind, PayloadKind.minLength] at long
  case h_2 =>
    rw [List.length_append, List.length_take, length_octets32]
    omega
  case h_3 =>
    split <;> simp only [List.length_append, List.length_take, List.length_drop, length_octets32,
      List.length_nil] <;> omega
  case h_1 | h_5 => exact List.length_take_le' _ _
  case h_4 => exact Nat.zero_le _
  all_goals exact Nat.le_refl _

theorem octets16_of_word16At? {place : Nat} {w : UInt16} (h : word16At? data place = some w) :
    octets16 w = (data.drop place).take 2 := by
  simp only [word16At?, Option.bind_eq_bind, Option.bind_eq_some_iff] at h
  obtain ⟨hi, hhi, lo, hlo, hw⟩ := h
  obtain rfl : word16 hi lo = w := Option.some.inj hw
  rw [octets16_word16, List.take_add_one, List.take_add_one, List.getElem?_drop, List.getElem?_drop]
  simp [hhi, hlo]

theorem octets32_of_word32At? {place : Nat} {w : UInt32} (h : word32At? data place = some w) :
    octets32 w = (data.drop place).take 4 := by
  simp only [word32At?, Option.bind_eq_bind, Option.bind_eq_some_iff] at h
  obtain ⟨a, ha, b, hb, c, hc, d, hd, hw⟩ := h
  obtain rfl : word32 a b c d = w := Option.some.inj hw
  rw [octets32_word32, List.take_add_one, List.take_add_one, List.take_add_one, List.take_add_one]
  simp [ha, hb, hc, hd]

theorem octets16_append_octets16 {a b : UInt16} (ha : word16At? data 0 = some a)
    (hb : word16At? data 2 = some b) : octets16 a ++ octets16 b = data.take 4 := by
  rw [octets16_of_word16At? ha, octets16_of_word16At? hb, List.drop_zero, ← List.take_add]

theorem take_append_octet {place : Nat} {b : UInt8} (h : data[place]? = some b) :
    data.take place ++ [b] = data.take (place + 1) := by
  rw [List.take_add_one, h, Option.toList_some]

theorem oem_octets {oem : Option UInt32} (h : word32At? data 9 = oem) :
    (oem.map octets32).getD [] = if 13 ≤ data.length then (data.drop 9).take 4 else [] := by
  have hsome : (word32At? data 9).isSome ↔ 13 ≤ data.length := isSome_word32At?
  cases oem with
  | none =>
    rw [h] at hsome
    rw [if_neg (by simpa using hsome)]
    rfl
  | some w =>
    rw [h] at hsome
    rw [if_pos (hsome.mp rfl), ← octets32_of_word32At? h]
    rfl

/-- What is decoded is written in the canonical form of the payload it was decoded from. -/
theorem encode_of_laidOut (h : LaidOut t data m) : m.encode = canonical t data := by
  obtain ⟨rfl, honest, long, fields⟩ := h
  cases m with
  | genericNack code =>
    have hcode := take_append_octet fields
    exact hcode
  | activationRequest r =>
    obtain ⟨hsource, htype⟩ := fields
    have hfields : octets16 r.source ++ [r.type.code] = data.take 3 := by
      rw [octets16_of_word16At? hsource, List.drop_zero, take_append_octet htype]
    change octets16 r.source ++ ([r.type.code] ++ octets32 0) = data.take 3 ++ octets32 0
    rw [← List.append_assoc, hfields]
  | activationResponse r =>
    obtain ⟨htester, hentity, hcode, hoem⟩ := fields
    have hfields : octets16 r.tester ++ octets16 r.entity ++ [r.code.value] = data.take 5 := by
      rw [octets16_append_octets16 htester hentity, take_append_octet hcode]
    change octets16 r.tester ++ octets16 r.entity ++ ([r.code.value] ++ octets32 0) ++
        (r.oem.map octets32).getD [] = data.take 5 ++ octets32 0 ++
          if 13 ≤ data.length then (data.drop 9).take 4 else []
    rw [← List.append_assoc, hfields, oem_octets hoem]
  | aliveCheckRequest => rfl
  | aliveCheckResponse source =>
    change octets16 source = data.take 2
    rw [octets16_of_word16At? fields, List.drop_zero]
  | diagnostic d =>
    obtain ⟨hsource, htarget, hdata⟩ := fields
    change octets16 d.source ++ octets16 d.target ++ d.data = data
    rw [octets16_append_octets16 hsource htarget, ← hdata, List.take_append_drop]
  | positiveAck a | negativeAck a =>
    obtain ⟨hsource, htarget, hcode, hprevious⟩ := fields
    change octets16 a.source ++ octets16 a.target ++ ([a.code] ++ a.previous) = data
    rw [← List.append_assoc, octets16_append_octets16 hsource htarget, take_append_octet hcode,
      ← hprevious, List.take_append_drop]
  | unsupported t octets =>
    have unknown : t ∉ PayloadKind.known := fun known => honest ⟨t, octets, rfl, known⟩
    rw [encode, ← fields, payloadType, canonical_of_verbatim (.inr unknown)]

/-- A message is read back unless it is disguised. What a payload is read as is written with the
payload's type, in its canonical form: it is read as the same message again, it is no longer than
the payload, and it is the payload where all octets are read. -/
theorem payloads_read_back :
    (∀ m : Message, decode m.payloadType m.encode = .ok m ↔ ¬m.Disguised) ∧
      ∀ t data m, decode t data = .ok m →
        m.payloadType = t ∧ decode t m.encode = .ok m ∧ m.encode = canonical t data ∧
          m.encode.length ≤ data.length ∧
          (t ∈ verbatim ∨ t ∉ PayloadKind.known → m.encode = data) := by
  refine ⟨decode_encode_iff, fun t data m h => ?_⟩
  have hlaid := decode_eq_ok_iff.mp h
  have hencode := encode_of_laidOut hlaid
  refine ⟨hlaid.type, ?_, hencode, ?_, fun hall => ?_⟩
  · rw [← hlaid.type]
    exact (decode_encode_iff m).mpr hlaid.honest
  · rw [hencode]
    exact length_canonical_le hlaid.long
  · rw [hencode, canonical_of_verbatim hall]

/-- An activation response with octets in its reserved field and behind its optional one, and a
negative acknowledgement with an echo. -/
theorem padded_read_back :
    decode 0x0006 (encode (.activationResponse ⟨0x0E00, 0x0680, ⟨0x10⟩, some 0xDEADBEEF⟩)) =
        .ok (.activationResponse ⟨0x0E00, 0x0680, ⟨0x10⟩, some 0xDEADBEEF⟩) ∧
      encode (.activationResponse ⟨0x0E00, 0x0680, ⟨0x10⟩, some 0xDEADBEEF⟩) =
        canonical 0x0006
          [0x0E, 0x00, 0x06, 0x80, 0x10, 1, 2, 3, 4, 0xDE, 0xAD, 0xBE, 0xEF, 5, 6] ∧
      encode (.negativeAck ⟨0x0680, 0x0E00, 0x03, [0x22]⟩) =
        [0x06, 0x80, 0x0E, 0x00, 0x03, 0x22] := by
  obtain ⟨-, hread⟩ := payloads_read_back
  obtain ⟨-, hagain, hcanonical, -⟩ := hread 0x0006
    [0x0E, 0x00, 0x06, 0x80, 0x10, 1, 2, 3, 4, 0xDE, 0xAD, 0xBE, 0xEF, 5, 6] _ rfl
  obtain ⟨-, -, -, -, hverbatim⟩ := hread 0x8003 [0x06, 0x80, 0x0E, 0x00, 0x03, 0x22] _ rfl
  exact ⟨hagain, hcanonical, hverbatim (.inl (by decide))⟩

end Doip.Message
