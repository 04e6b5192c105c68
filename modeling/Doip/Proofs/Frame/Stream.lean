import Doip.Proofs.Frame.Reassembly

/-! # Streams of frames

A message is read as it was written, and so is a frame whose header `Fits` its payload. A stream
of such frames is therefore taken apart into these frames, with nothing left
(`reassemble_encodeAll`), and any first part of it into the first of them
(`reassemble_of_part`). -/
namespace Doip

/-- A message is read as it was written, unless a payload of a type that has a meaning is passed
off as one of a type that has none. -/
theorem Message.decode_encode (m : Message)
    (honest : ∀ t data, m = .unsupported t data → PayloadKind.ofCode t = .unsupported) :
    decode m.payloadType m.encode = .ok m := by
  cases m with
  | genericNack code => rfl
  | activationRequest r =>
    have hkind : PayloadKind.ofCode 0x0005 = .activationRequest := rfl
    simp [decode, payloadType, encode, hkind, octets16, octets32, word16_octets16]
  | activationResponse r =>
    have hkind : PayloadKind.ofCode 0x0006 = .activationResponse := rfl
    obtain ⟨tester, entity, code, oem⟩ := r
    cases oem with
    | none =>
      simp [decode, payloadType, encode, hkind, octets16, octets32, word16_octets16, oemField]
    | some oem =>
      simp [decode, payloadType, encode, hkind, octets16, octets32, word16_octets16,
        word32_octets32, oemField]
  | aliveCheckRequest => rfl
  | aliveCheckResponse source =>
    have hkind : PayloadKind.ofCode 0x0008 = .aliveCheckResponse := rfl
    simp [decode, payloadType, encode, hkind, octets16, word16_octets16]
  | diagnostic d =>
    have hkind : PayloadKind.ofCode 0x8001 = .diagnostic := rfl
    simp [decode, payloadType, encode, hkind, octets16, word16_octets16]
  | positiveAck a =>
    have hkind : PayloadKind.ofCode 0x8002 = .positiveAck := rfl
    simp [decode, payloadType, encode, hkind, octets16, word16_octets16, acknowledgementOf,
      Except.map]
  | negativeAck a =>
    have hkind : PayloadKind.ofCode 0x8003 = .negativeAck := rfl
    simp [decode, payloadType, encode, hkind, octets16, word16_octets16, acknowledgementOf,
      Except.map]
  | unsupported t data =>
    have hkind := honest t data rfl
    simp only [decode, payloadType, encode, hkind]

namespace Frame

/-- The header announces just the payload, which is within the limit. -/
structure Fits (limit : UInt32) (f : Frame) : Prop where
  length : f.header.payloadLength.toNat = f.payload.length
  within : f.header.payloadLength ≤ limit

variable {limit : UInt32} {f : Frame} {frames : List Frame} {version : UInt8} {m : Message}

theorem fits_ofMessage (short : m.encode.length ≤ limit.toNat) :
    (ofMessage version m).Fits limit := by
  have hlimit := limit.toNat_lt
  have hlength : (ofMessage version m).header.payloadLength.toNat = m.encode.length := by
    simp only [ofMessage, UInt32.toNat_ofNat']
    omega
  refine ⟨hlength, UInt32.le_iff_toNat_le.mpr ?_⟩
  rw [hlength]
  exact short

/-- A scan goes by what the header announces and by how much there is behind it. -/
theorem scan_header (limit : UInt32) (header : Header) (body : Octets) :
    scan limit (header.encode ++ body) =
      if limit < header.payloadLength then .broken (.payloadTooLarge header.payloadLength limit)
      else if body.length < header.payloadLength.toNat then .incomplete
      else .complete ⟨header, body.take header.payloadLength.toNat⟩
        (body.drop header.payloadLength.toNat) := by
  have hdrop : (header.encode ++ body).drop Header.size = body := List.drop_left' rfl
  simp only [scan, Header.parse?_encode, hdrop]

theorem scan_encode (h : f.Fits limit) (more : Octets) :
    scan limit (f.encode ++ more) = .complete f more := by
  have enough : ¬(f.payload ++ more).length < f.payload.length := by
    rw [List.length_append]
    exact Nat.not_lt.mpr (Nat.le_add_right _ _)
  rw [encode, List.append_assoc, scan_header, if_neg (UInt32.not_lt.mpr h.within), h.length,
    if_neg enough, List.take_left, List.drop_left]

theorem encodeAll_append (first others : List Frame) :
    encodeAll (first ++ others) = encodeAll first ++ encodeAll others := List.flatMap_append

end Frame

variable {limit : UInt32} {frames : List Frame}

theorem reassemble_encodeAll (h : ∀ f ∈ frames, f.Fits limit) :
    reassemble limit (Frame.encodeAll frames) = ⟨frames, [], none⟩ := by
  induction frames with
  | nil =>
    rw [reassemble_eq]
    rfl
  | cons f frames ih =>
    rw [Frame.encodeAll_cons, reassemble_of_complete (Frame.scan_encode (h f List.mem_cons_self) _),
      ih fun g hg => h g (List.mem_cons_of_mem _ hg)]

/-- What is left over is less than a frame. -/
theorem scan_rest {buffer : Octets} (h : (reassemble limit buffer).error = none) :
    Frame.scan limit (reassemble limit buffer).rest = .incomplete := by
  fun_induction reassemble limit buffer with
  | case1 buffer hscan => exact hscan
  | case2 buffer fault hscan => cases h
  | case3 buffer f rest hscan r ih => exact ih h

/-- A first part of a stream gives the first frames of it. What is left of the part and what
follows are the other frames. -/
theorem reassemble_of_part {part more : Octets} (h : ∀ f ∈ frames, f.Fits limit)
    (whole : part ++ more = Frame.encodeAll frames) :
    ∃ others, frames = (reassemble limit part).frames ++ others ∧
      (reassemble limit part).error = none ∧
      (reassemble limit part).rest ++ more = Frame.encodeAll others := by
  have hresume := reassemble_append limit part more
  rw [whole, reassemble_encodeAll h] at hresume
  cases herror : (reassemble limit part).error with
  | some fault =>
    rw [Reassembly.resume_of_error herror] at hresume
    cases congrArg Reassembly.error hresume
  | none =>
    rw [Reassembly.resume_of_none herror] at hresume
    obtain ⟨hframes, -, -⟩ := Reassembly.mk.inj hresume
    refine ⟨_, hframes, rfl, ?_⟩
    have hboth : Frame.encodeAll (reassemble limit part).frames ++
        ((reassemble limit part).rest ++ more) =
          Frame.encodeAll (reassemble limit part).frames ++ Frame.encodeAll
            (reassemble limit ((reassemble limit part).rest ++ more)).frames := by
      rw [← List.append_assoc, encode_reassemble, ← Frame.encodeAll_append, ← hframes, whole]
    exact List.append_cancel_left hboth

/-- At the front of a first part of a stream stands its first frame, or too little of it. -/
theorem scan_of_part {part more : Octets} (h : ∀ f ∈ frames, f.Fits limit)
    (whole : part ++ more = Frame.encodeAll frames) :
    Frame.scan limit part = .incomplete ∨
      ∃ f others rest, frames = f :: others ∧ Frame.scan limit part = .complete f rest ∧
        rest ++ more = Frame.encodeAll others := by
  cases hscan : Frame.scan limit part with
  | incomplete => exact .inl rfl
  | broken fault =>
    obtain ⟨others, -, herror, -⟩ := reassemble_of_part h whole
    rw [reassemble_of_broken hscan] at herror
    cases herror
  | complete f rest =>
    have hwhole := Frame.scan_append_of_complete hscan more
    rw [whole] at hwhole
    cases frames with
    | nil => cases hwhole
    | cons g others =>
      rw [Frame.encodeAll_cons, Frame.scan_encode (h g List.mem_cons_self)] at hwhole
      obtain ⟨rfl, hrest⟩ := Scan.complete.inj hwhole
      exact .inr ⟨g, others, rest, rfl, rfl, hrest.symm⟩

/-! ## Streams of messages -/

namespace Message

/-- The message is read as it was written, and whoever accepts payloads up to the limit does read
it. -/
structure Travels (limit : UInt32) (m : Message) : Prop where
  readable : decode m.payloadType m.encode = .ok m
  short : m.encode.length ≤ limit.toNat

theorem travels_diagnostic {limit : UInt32} {source target : Address} {data : Octets}
    (short : data.length + 4 ≤ limit.toNat) :
    (diagnostic ⟨source, target, data⟩).Travels limit := by
  refine ⟨decode_encode _ (fun _ _ h => by cases h), ?_⟩
  simp only [encode, List.length_append, length_octets16]
  omega

/-- The octets of messages from a side that writes this version. -/
def stream (version : UInt8) (ms : List Message) : Octets :=
  Frame.encodeAll (ms.map (Frame.ofMessage version))

theorem stream_append (version : UInt8) (first others : List Message) :
    stream version (first ++ others) = stream version first ++ stream version others := by
  rw [stream, List.map_append, Frame.encodeAll_append]
  rfl

theorem stream_singleton (version : UInt8) (m : Message) :
    stream version [m] = (Frame.ofMessage version m).encode := List.append_nil _

variable {limit : UInt32} {version : UInt8} {ms : List Message}

theorem fits_of_travels (h : ∀ m ∈ ms, m.Travels limit) :
    ∀ f ∈ ms.map (Frame.ofMessage version), f.Fits limit := by
  intro f hf
  obtain ⟨m, hm, rfl⟩ := List.mem_map.mp hf
  exact Frame.fits_ofMessage (h m hm).short

theorem scan_stream {m : Message} (h : ∀ m' ∈ m :: ms, m'.Travels limit) (version : UInt8) :
    Frame.scan limit (stream version (m :: ms)) =
      .complete (Frame.ofMessage version m) (stream version ms) :=
  Frame.scan_encode (fits_of_travels h _ List.mem_cons_self) _

end Message
end Doip
