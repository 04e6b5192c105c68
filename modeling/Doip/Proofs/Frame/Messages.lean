import Doip.Proofs.Frame.Decoding
import Mathlib.Data.List.Forall2

/-! # A stream of messages is decoded into these messages

Whoever writes messages, each in a version of the protocol, and whoever reads the stream in
chunks of any size agree on what has been said (`messages_decoded`). The one message that is
taken for another is a payload that is passed off as of no meaning under a type that has one
(`Message.Disguised`). -/
namespace Doip

namespace PayloadKind

/-- The payload types that have a meaning here. -/
def known : List UInt16 := [0x0000, 0x0005, 0x0006, 0x0007, 0x0008, 0x8001, 0x8002, 0x8003]

theorem ofCode_eq_unsupported {t : UInt16} : ofCode t = .unsupported ↔ t ∉ known := by
  unfold ofCode known
  repeat' split
  all_goals simp_all

theorem ofCode_eq_diagnostic {t : UInt16} (h : ofCode t = .diagnostic) : t = 0x8001 := by
  unfold ofCode at h
  repeat' split at h
  all_goals first | assumption | cases h

end PayloadKind

namespace Message

/-- A payload of a type that has a meaning is passed off as one of a type that has none. -/
def Disguised (m : Message) : Prop := ∃ t data, m = .unsupported t data ∧ t ∈ PayloadKind.known

/-- What a message is, without its fields. -/
def kind : Message → PayloadKind
  | genericNack _ => .genericNack
  | activationRequest _ => .activationRequest
  | activationResponse _ => .activationResponse
  | aliveCheckRequest => .aliveCheckRequest
  | aliveCheckResponse _ => .aliveCheckResponse
  | diagnostic _ => .diagnostic
  | positiveAck _ => .positiveAck
  | negativeAck _ => .negativeAck
  | unsupported _ _ => .unsupported

/-- A payload is read as what its type says. -/
theorem ofCode_of_decode {t : UInt16} {data : Octets} {m : Message} (h : decode t data = .ok m) :
    PayloadKind.ofCode t = m.kind := by
  unfold decode at h
  split at h <;> rename_i hkind <;> rw [hkind]
  case h_2 =>
    split at h
    · split at h
      · cases h
        rfl
      · cases h
    · cases h
  case h_7 | h_8 =>
    cases hA : acknowledgementOf t data with
    | error fault =>
      rw [hA] at h
      cases h
    | ok a =>
      rw [hA] at h
      cases h
      rfl
  all_goals first | (cases h; rfl) | (split at h <;> cases h; rfl)

/-- Only a disguised message is not read as it was written. -/
theorem decode_encode_iff (m : Message) :
    decode m.payloadType m.encode = .ok m ↔ ¬m.Disguised := by
  constructor
  · rintro h ⟨t, data, rfl, ht⟩
    exact PayloadKind.ofCode_eq_unsupported.mp (ofCode_of_decode h) ht
  · intro honest
    refine decode_encode m fun t data hm => ?_
    exact PayloadKind.ofCode_eq_unsupported.mpr fun ht => honest ⟨t, data, hm, ht⟩

end Message

variable {limit : UInt32} {chunks : List Octets} {sent : List (UInt8 × Message)}

/-- The frame is that of the message in its version, and is read as this message unless the
message is disguised. -/
structure Frame.Holds (said : UInt8 × Message) (f : Frame) : Prop where
  version : f.header.version = said.1
  payloadType : f.header.payloadType = said.2.payloadType
  read : f.message = .ok said.2 ↔ ¬said.2.Disguised

theorem Frame.holds_ofMessage (said : UInt8 × Message) :
    (Frame.ofMessage said.1 said.2).Holds said :=
  ⟨rfl, rfl, Message.decode_encode_iff said.2⟩

/-- The frames of messages, each in its version. -/
def framesOf (sent : List (UInt8 × Message)) : List Frame :=
  sent.map fun said => Frame.ofMessage said.1 said.2

theorem fits_framesOf (short : ∀ said ∈ sent, said.2.encode.length ≤ limit.toNat) :
    ∀ f ∈ framesOf sent, f.Fits limit := by
  intro f hf
  obtain ⟨said, hsaid, rfl⟩ := List.mem_map.mp hf
  exact Frame.fits_ofMessage (short said hsaid)

/-- A chunk gives what the part of the stream up to its end gives more than the part before it. -/
theorem mem_feed {r : Reassembly} (h : r ∈ feed limit [] chunks) :
    ∃ before chunk after, chunks = before ++ chunk :: after ∧
      r = reassemble limit ((reassemble limit before.flatten).rest ++ chunk) := by
  obtain ⟨i, hi⟩ := List.mem_iff_getElem?.mp h
  have hlt : i < chunks.length := by
    rw [← length_feed limit [] chunks]
    exact (List.getElem?_eq_some_iff.mp hi).1
  have hsplit : chunks = chunks.take i ++ chunks[i] :: chunks.drop (i + 1) := by simp
  have hfeed := feed_append limit [] (chunks.take i) (chunks[i] :: chunks.drop (i + 1))
  rw [reassemble_nil, List.nil_append, ← hsplit] at hfeed
  refine ⟨_, _, _, hsplit, ?_⟩
  rw [hfeed, List.getElem?_append_right (by rw [length_feed]; exact List.length_take_le _ _),
    length_feed, List.length_take_of_le (Nat.le_of_lt hlt), Nat.sub_self] at hi
  exact (Option.some.inj hi).symm

/-- No chunk of a stream of whole frames shows a fault. -/
theorem error_of_mem_feed {frames : List Frame} (h : ∀ f ∈ frames, f.Fits limit)
    (cut : chunks.flatten = Frame.encodeAll frames) {r : Reassembly}
    (hr : r ∈ feed limit [] chunks) : r.error = none := by
  obtain ⟨before, chunk, after, rfl, rfl⟩ := mem_feed hr
  have hpart : (before.flatten ++ chunk) ++ after.flatten = Frame.encodeAll frames := by
    rw [← cut, List.flatten_append, List.flatten_cons, List.append_assoc]
  obtain ⟨-, -, hnone, -⟩ := reassemble_of_part h hpart
  rwa [← followedBy_reassemble, Reassembly.followedBy] at hnone

/-- However the stream of messages is cut, the frames of the messages are found, in order, and
nothing is left. Each is read as its message, unless this is disguised. -/
theorem messages_decoded (limit : UInt32) (sent : List (UInt8 × Message))
    (short : ∀ said ∈ sent, said.2.encode.length ≤ limit.toNat) (chunks : List Octets)
    (cut : chunks.flatten = Frame.encodeAll (framesOf sent)) :
    feedAll limit chunks = ⟨framesOf sent, [], none⟩ ∧
      (∀ r ∈ feed limit [] chunks, r.error = none) ∧
      List.Forall₂ Frame.Holds sent (framesOf sent) := by
  have hfits := fits_framesOf short
  refine ⟨?_, fun r hr => error_of_mem_feed hfits cut hr, ?_⟩
  · rw [feedAll_eq, cut, reassemble_encodeAll hfits]
  · rw [framesOf, List.forall₂_map_right_iff]
    exact List.forall₂_same.mpr fun said _ => Frame.holds_ofMessage said

/-- A refusal in another version, an activation response with its optional field, and a payload
that is passed off as of no meaning under the type of an alive check. -/
def mixedMessages : List (UInt8 × Message) :=
  [(0x03, .genericNack 0x04),
    (0x02, .activationResponse ⟨0x0E00, 0x0680, ⟨0x10⟩, some 0xDEADBEEF⟩),
    (0x02, .unsupported 0x0007 [0x01])]

/-- The messages are found in a stream that is cut in headers and payloads. The second one is read
as it was written, the third one is not. -/
theorem mixedMessages_decoded :
    feedAll 13 [[0x03, 0xFC, 0, 0, 0], [0, 0, 1, 0x04, 0x02, 0xFD, 0, 6, 0, 0, 0, 13, 0x0E],
        [0x00, 0x06, 0x80, 0x10, 0, 0, 0, 0, 0xDE, 0xAD, 0xBE, 0xEF, 0x02],
        [0xFD, 0, 7, 0, 0, 0, 1, 1]] = ⟨framesOf mixedMessages, [], none⟩ ∧
      (Frame.ofMessage 0x02 (.activationResponse
        ⟨0x0E00, 0x0680, ⟨0x10⟩, some 0xDEADBEEF⟩)).message =
          .ok (.activationResponse ⟨0x0E00, 0x0680, ⟨0x10⟩, some 0xDEADBEEF⟩) ∧
      (Frame.ofMessage 0x02 (.unsupported 0x0007 [0x01])).message ≠
        .ok (.unsupported 0x0007 [0x01]) := by
  obtain ⟨hfound, -, hholds⟩ := messages_decoded 13 mixedMessages (by decide)
    [[0x03, 0xFC, 0, 0, 0], [0, 0, 1, 0x04, 0x02, 0xFD, 0, 6, 0, 0, 0, 13, 0x0E],
      [0x00, 0x06, 0x80, 0x10, 0, 0, 0, 0, 0xDE, 0xAD, 0xBE, 0xEF, 0x02],
      [0xFD, 0, 7, 0, 0, 0, 1, 1]] (by decide)
  simp only [mixedMessages, framesOf, List.map_cons, List.forall₂_cons] at hholds
  obtain ⟨-, hsecond, hthird, -⟩ := hholds
  refine ⟨hfound, hsecond.read.mpr ?_, fun hread => ?_⟩
  · rintro ⟨t, data, hm, -⟩
    cases hm
  · exact hthird.read.mp hread ⟨0x0007, [0x01], rfl, by decide⟩

end Doip
