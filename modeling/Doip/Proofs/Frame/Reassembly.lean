import Doip.Frame

/-! # Reassembly of a byte stream

What stands at the front of the octets that have arrived does not change when more of
them arrive, unless they were too few to tell. So a stream that comes in two parts is
reassembled like the whole (`reassemble_append`). Nothing is lost on the way: the frames,
written again, and the rest are the stream (`encode_reassemble`). -/
namespace Doip

namespace Header

theorem parse?_append {buffer : Octets} {r : Except WireError Header}
    (h : parse? buffer = some r) (more : Octets) : parse? (buffer ++ more) = some r := by
  unfold parse? at h
  split at h
  · exact h
  · cases h

/-- A header is written again as it was read. -/
theorem encode_of_parse? {buffer : Octets} {header : Header}
    (h : parse? buffer = some (.ok header)) : header.encode ++ buffer.drop size = buffer := by
  unfold parse? at h
  split at h
  · rename_i version inverse t1 t0 l3 l2 l1 l0 rest
    split at h
    · rename_i hinverse
      cases h
      simp [encode, octets16_word16, octets32_word32, size, hinverse]
    · cases h
  · cases h

end Header

namespace Frame

variable {limit : UInt32} {buffer rest : Octets} {f : Frame} {fault : WireError}

/-- When a frame is found at the front: its header stands there and its payload is all there. -/
theorem scan_eq_complete : scan limit buffer = .complete f rest ↔
    ∃ header, Header.parse? buffer = some (.ok header) ∧ header.payloadLength ≤ limit ∧
      header.payloadLength.toNat ≤ (buffer.drop Header.size).length ∧
      f = ⟨header, (buffer.drop Header.size).take header.payloadLength.toNat⟩ ∧
      rest = (buffer.drop Header.size).drop header.payloadLength.toNat := by
  unfold scan
  constructor
  · intro h
    split at h
    · cases h
    · cases h
    · rename_i header hp
      split at h
      · cases h
      · rename_i hlimit
        simp only at h
        split at h
        · cases h
        · rename_i hlength
          cases h
          exact ⟨header, hp, UInt32.not_lt.mp hlimit, Nat.not_lt.mp hlength, rfl, rfl⟩
  · rintro ⟨header, hp, hlimit, hlength, rfl, rfl⟩
    simp only [hp, if_neg (UInt32.not_lt.mpr hlimit), if_neg (Nat.not_lt.mpr hlength)]

/-- When a header at the front is at fault. -/
theorem scan_eq_broken : scan limit buffer = .broken fault ↔
    Header.parse? buffer = some (.error fault) ∨
      ∃ header, Header.parse? buffer = some (.ok header) ∧ limit < header.payloadLength ∧
        fault = .payloadTooLarge header.payloadLength limit := by
  unfold scan
  constructor
  · intro h
    split at h
    · cases h
    · rename_i e hp
      cases h
      exact .inl hp
    · rename_i header hp
      split at h
      · rename_i hlimit
        cases h
        exact .inr ⟨header, hp, hlimit, rfl⟩
      · simp only at h
        split at h <;> cases h
  · rintro (hp | ⟨header, hp, hlimit, rfl⟩)
    · simp only [hp]
    · simp only [hp, if_pos hlimit]

theorem scan_append_of_complete (h : scan limit buffer = .complete f rest) (more : Octets) :
    scan limit (buffer ++ more) = .complete f (rest ++ more) := by
  obtain ⟨header, hp, hlimit, hlength, rfl, rfl⟩ := scan_eq_complete.mp h
  have hdrop : (buffer ++ more).drop Header.size = buffer.drop Header.size ++ more :=
    List.drop_append_of_le_length (Header.size_le_of_parse? hp)
  refine scan_eq_complete.mpr ⟨header, Header.parse?_append hp more, hlimit, ?_, ?_, ?_⟩
  · rw [hdrop, List.length_append]
    omega
  · rw [hdrop, List.take_append_of_le_length hlength]
  · rw [hdrop, List.drop_append_of_le_length hlength]

theorem scan_append_of_broken (h : scan limit buffer = .broken fault) (more : Octets) :
    scan limit (buffer ++ more) = .broken fault := by
  rw [scan_eq_broken] at h ⊢
  rcases h with hp | ⟨header, hp, hlimit, rfl⟩
  · exact .inl (Header.parse?_append hp more)
  · exact .inr ⟨header, Header.parse?_append hp more, hlimit, rfl⟩

/-- A frame is written again as it was read. -/
theorem encode_of_scan (h : scan limit buffer = .complete f rest) : f.encode ++ rest = buffer := by
  obtain ⟨header, hp, -, -, rfl, rfl⟩ := scan_eq_complete.mp h
  rw [encode, List.append_assoc, List.take_append_drop]
  exact Header.encode_of_parse? hp

end Frame

variable {limit : UInt32} {buffer rest : Octets} {f : Frame} {fault : WireError}

theorem reassemble_eq (limit : UInt32) (buffer : Octets) :
    reassemble limit buffer =
      match Frame.scan limit buffer with
      | .incomplete => ⟨[], buffer, none⟩
      | .broken fault => ⟨[], buffer, some fault⟩
      | .complete f rest =>
        { reassemble limit rest with frames := f :: (reassemble limit rest).frames } := by
  rw [reassemble]
  split
  · rename_i h
    rw [h]
  · rename_i fault h
    rw [h]
  · rename_i f rest h
    rw [h]

theorem reassemble_of_broken (h : Frame.scan limit buffer = .broken fault) :
    reassemble limit buffer = ⟨[], buffer, some fault⟩ := by
  rw [reassemble_eq, h]

theorem reassemble_of_complete (h : Frame.scan limit buffer = .complete f rest) :
    reassemble limit buffer =
      { reassemble limit rest with frames := f :: (reassemble limit rest).frames } := by
  rw [reassemble_eq, h]

/-- What comes of a stream when more octets follow. A header error ends it for good. -/
def Reassembly.resume (limit : UInt32) (r : Reassembly) (more : Octets) : Reassembly :=
  match r.error with
  | some fault => ⟨r.frames, r.rest ++ more, some fault⟩
  | none =>
    let later := reassemble limit (r.rest ++ more)
    ⟨r.frames ++ later.frames, later.rest, later.error⟩

theorem Reassembly.resume_of_error {r : Reassembly} (h : r.error = some fault) (more : Octets) :
    r.resume limit more = ⟨r.frames, r.rest ++ more, some fault⟩ := by
  simp only [resume, h]

theorem Reassembly.resume_of_none {r : Reassembly} (h : r.error = none) (more : Octets) :
    r.resume limit more = ⟨r.frames ++ (reassemble limit (r.rest ++ more)).frames,
      (reassemble limit (r.rest ++ more)).rest, (reassemble limit (r.rest ++ more)).error⟩ := by
  simp only [resume, h]

theorem reassemble_append (limit : UInt32) (buffer more : Octets) :
    reassemble limit (buffer ++ more) = (reassemble limit buffer).resume limit more := by
  fun_induction reassemble limit buffer with
  | case1 buffer hscan => rfl
  | case2 buffer fault hscan =>
    rw [reassemble_of_broken (Frame.scan_append_of_broken hscan more)]
    rfl
  | case3 buffer f rest hscan r ih =>
    rw [reassemble_of_complete (Frame.scan_append_of_complete hscan more), ih]
    unfold Reassembly.resume
    cases r.error with
    | none => rfl
    | some fault => rfl

/-- The octets that the frames take on the wire, one after the other. -/
def Frame.encodeAll (frames : List Frame) : Octets := frames.flatMap Frame.encode

@[simp] theorem Frame.encodeAll_nil : encodeAll [] = [] := rfl

@[simp] theorem Frame.encodeAll_cons (f : Frame) (frames : List Frame) :
    encodeAll (f :: frames) = f.encode ++ encodeAll frames := rfl

/-- The frames and the rest are the octets that have arrived. -/
theorem encode_reassemble (limit : UInt32) (buffer : Octets) :
    Frame.encodeAll (reassemble limit buffer).frames ++ (reassemble limit buffer).rest = buffer := by
  fun_induction reassemble limit buffer with
  | case1 buffer hscan => rfl
  | case2 buffer fault hscan => rfl
  | case3 buffer f rest hscan r ih =>
    rw [Frame.encodeAll_cons, List.append_assoc, ih]
    exact Frame.encode_of_scan hscan

end Doip
