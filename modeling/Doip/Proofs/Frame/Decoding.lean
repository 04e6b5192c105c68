import Doip.Proofs.Frame.Stream

/-! # What a byte stream decodes to

Octets arrive in chunks of any size, and after each chunk frames are taken off for as long as
there are any. `Decodes` says what comes of this without the way there: frames that are the
stream up to a `Remainder`, which is too little for a frame or cannot be the start of one. A
stream decodes in one way only (`Decodes.unique`). So it does not matter where it was cut
(`feedAll_eq`), and what follows a bad header is never read (`feed_of_fault`). -/
namespace Doip

/-- What can be left of a stream behind its whole frames, and the fault that it is. -/
inductive Remainder (limit : UInt32) : Octets → Option WireError → Prop where
  /-- Less than a header. -/
  | short {rest : Octets} (few : rest.length < Header.size) : Remainder limit rest none
  /-- A header and less than the payload that it announces. -/
  | started {header : Header} {body : Octets} (within : header.payloadLength ≤ limit)
      (missing : body.length < header.payloadLength.toNat) :
      Remainder limit (header.encode ++ body) none
  | mismatched {version inverse : UInt8} {others : Octets}
      (whole : Header.size ≤ others.length + 2) (differs : inverse ≠ ~~~version) :
      Remainder limit (version :: inverse :: others) (some (.invalidVersion version inverse))
  | oversized {header : Header} {body : Octets} (beyond : limit < header.payloadLength) :
      Remainder limit (header.encode ++ body)
        (some (.payloadTooLarge header.payloadLength limit))

/-- The frames and the rest are the stream. Each frame has the payload that its header announces,
within the limit, and the rest holds no further frame. -/
structure Decodes (limit : UInt32) (stream : Octets) (r : Reassembly) : Prop where
  lossless : Frame.encodeAll r.frames ++ r.rest = stream
  fits : ∀ f ∈ r.frames, f.Fits limit
  maximal : Remainder limit r.rest r.error

/-! ## What a scan finds -/

namespace Header

variable {buffer : Octets} {header : Header} {fault : WireError}

theorem parse?_eq_none : parse? buffer = none ↔ buffer.length < size := by
  constructor
  · intro h
    refine Nat.lt_of_not_le fun hlong => ?_
    match buffer, hlong with
    | version :: inverse :: t1 :: t0 :: l3 :: l2 :: l1 :: l0 :: rest, _ =>
      simp only [parse?] at h
      split at h <;> cases h
  · intro h
    cases hp : parse? buffer with
    | none => rfl
    | some r => exact absurd (size_le_of_parse? hp) (Nat.not_le.mpr h)

theorem parse?_eq_ok :
    parse? buffer = some (.ok header) ↔ ∃ body, buffer = header.encode ++ body := by
  constructor
  · intro h
    exact ⟨_, (encode_of_parse? h).symm⟩
  · rintro ⟨body, rfl⟩
    exact parse?_encode header body

theorem parse?_eq_error : parse? buffer = some (.error fault) ↔
    ∃ version inverse others, buffer = version :: inverse :: others ∧
      size ≤ others.length + 2 ∧ inverse ≠ ~~~version ∧
      fault = .invalidVersion version inverse := by
  constructor
  · intro h
    have hsize := size_le_of_parse? h
    unfold parse? at h
    split at h
    · split at h
      · cases h
      · rename_i version inverse t1 t0 l3 l2 l1 l0 rest differs
        cases h
        exact ⟨version, inverse, _, rfl, hsize, differs, rfl⟩
    · cases h
  · rintro ⟨version, inverse, others, rfl, hsize, differs, rfl⟩
    cases hp : parse? (version :: inverse :: others) with
    | none =>
      rw [parse?_eq_none] at hp
      exact absurd hp (Nat.not_lt.mpr hsize)
    | some r =>
      unfold parse? at hp
      split at hp
      · rename_i heq
        cases heq
        rw [if_neg differs] at hp
        rw [hp]
      · cases hp

end Header

variable {limit : UInt32} {buffer rest stream : Octets} {fault : WireError} {r : Reassembly}

theorem remainder_of_incomplete (h : Frame.scan limit rest = .incomplete) :
    Remainder limit rest none := by
  cases hp : Header.parse? rest with
  | none =>
    rw [Header.parse?_eq_none] at hp
    exact .short hp
  | some parsed =>
    cases parsed with
    | error fault =>
      simp only [Frame.scan, hp] at h
      cases h
    | ok header =>
      rw [Header.parse?_eq_ok] at hp
      obtain ⟨body, rfl⟩ := hp
      rw [Frame.scan_header] at h
      split at h
      · cases h
      · rename_i within
        split at h
        · rename_i missing
          exact .started (UInt32.not_lt.mp within) missing
        · cases h

theorem remainder_of_broken (h : Frame.scan limit rest = .broken fault) :
    Remainder limit rest (some fault) := by
  rw [Frame.scan_eq_broken] at h
  rcases h with hp | ⟨header, hp, beyond, rfl⟩
  · rw [Header.parse?_eq_error] at hp
    obtain ⟨version, inverse, others, rfl, whole, differs, rfl⟩ := hp
    exact .mismatched whole differs
  · rw [Header.parse?_eq_ok] at hp
    obtain ⟨body, rfl⟩ := hp
    exact .oversized beyond

/-- No frame is found at the front of a remainder, and its fault is. -/
theorem Remainder.scan_eq {error : Option WireError} (h : Remainder limit rest error) :
    Frame.scan limit rest = error.elim .incomplete .broken := by
  cases h with
  | short few =>
    rw [← Header.parse?_eq_none] at few
    simp only [Frame.scan, few, Option.elim_none]
  | started within missing =>
    rw [Frame.scan_header, if_neg (UInt32.not_lt.mpr within), if_pos missing, Option.elim_none]
  | mismatched whole differs =>
    rw [Option.elim_some, Frame.scan_eq_broken, Header.parse?_eq_error]
    exact .inl ⟨_, _, _, rfl, whole, differs, rfl⟩
  | oversized beyond => rw [Frame.scan_header, if_pos beyond, Option.elim_some]

theorem Frame.fits_of_scan {f : Frame} (h : Frame.scan limit buffer = .complete f rest) :
    f.Fits limit := by
  rw [Frame.scan_eq_complete] at h
  obtain ⟨header, -, within, enough, rfl, -⟩ := h
  exact ⟨(List.length_take_of_le enough).symm, within⟩

/-! ## Decoding is reassembly -/

theorem decodes_reassemble (limit : UInt32) (stream : Octets) :
    Decodes limit stream (reassemble limit stream) := by
  refine ⟨encode_reassemble limit stream, ?_, ?_⟩
  · fun_induction reassemble limit stream with
    | case1 stream hscan => exact fun f hf => absurd hf List.not_mem_nil
    | case2 stream fault hscan => exact fun f hf => absurd hf List.not_mem_nil
    | case3 stream f rest hscan r ih =>
      exact List.forall_mem_cons.mpr ⟨Frame.fits_of_scan hscan, ih⟩
  · fun_induction reassemble limit stream with
    | case1 stream hscan => exact remainder_of_incomplete hscan
    | case2 stream fault hscan => exact remainder_of_broken hscan
    | case3 stream f rest hscan r ih => exact ih

theorem reassemble_of_remainder {error : Option WireError} (h : Remainder limit rest error) :
    reassemble limit rest = ⟨[], rest, error⟩ := by
  rw [reassemble_eq, h.scan_eq]
  cases error with
  | none => rfl
  | some fault => rfl

/-- Whole frames in front of a stream are the first that it is taken apart into. -/
theorem reassemble_encodeAll_append {frames : List Frame} (h : ∀ f ∈ frames, f.Fits limit)
    (more : Octets) :
    reassemble limit (Frame.encodeAll frames ++ more) =
      { reassemble limit more with frames := frames ++ (reassemble limit more).frames } := by
  rw [reassemble_append, reassemble_encodeAll h]
  rfl

/-- A stream decodes in one way. -/
theorem Decodes.unique (h : Decodes limit stream r) : r = reassemble limit stream := by
  rw [← h.lossless, reassemble_encodeAll_append h.fits, reassemble_of_remainder h.maximal,
    List.append_nil]

/-! ## Chunks -/

/-- The outcome of a part of a stream and that of the next. -/
def Reassembly.followedBy (first next : Reassembly) : Reassembly :=
  ⟨first.frames ++ next.frames, next.rest, next.error⟩

/-- What all chunks of a stream come to. -/
def feedAll (limit : UInt32) (chunks : List Octets) : Reassembly :=
  (feed limit [] chunks).foldl Reassembly.followedBy ⟨[], [], none⟩

/-- No octets that follow a fault mend it. -/
theorem Remainder.append (h : Remainder limit rest (some fault)) (more : Octets) :
    Remainder limit (rest ++ more) (some fault) :=
  remainder_of_broken (Frame.scan_append_of_broken h.scan_eq more)

theorem remainder_of_fault (h : (reassemble limit buffer).error = some fault) :
    Remainder limit (reassemble limit buffer).rest (some fault) :=
  h ▸ (decodes_reassemble limit buffer).maximal

theorem followedBy_reassemble (limit : UInt32) (buffer more : Octets) :
    (reassemble limit buffer).followedBy
        (reassemble limit ((reassemble limit buffer).rest ++ more)) =
      reassemble limit (buffer ++ more) := by
  rw [reassemble_append limit buffer more]
  cases h : (reassemble limit buffer).error with
  | none => rw [Reassembly.resume_of_none h, Reassembly.followedBy]
  | some fault =>
    rw [Reassembly.resume_of_error h, Reassembly.followedBy,
      reassemble_of_remainder ((remainder_of_fault h).append more), List.append_nil]

theorem rest_reassemble (limit : UInt32) (buffer more : Octets) :
    (reassemble limit ((reassemble limit buffer).rest ++ more)).rest =
      (reassemble limit (buffer ++ more)).rest := by
  rw [← followedBy_reassemble limit buffer more]
  rfl

@[simp] theorem feed_nil (limit : UInt32) (left : Octets) : feed limit left [] = [] := rfl

@[simp] theorem feed_cons (limit : UInt32) (left chunk : Octets) (chunks : List Octets) :
    feed limit left (chunk :: chunks) =
      reassemble limit (left ++ chunk) ::
        feed limit (reassemble limit (left ++ chunk)).rest chunks := rfl

theorem foldl_feed (limit : UInt32) (buffer : Octets) (chunks : List Octets) :
    (feed limit (reassemble limit buffer).rest chunks).foldl Reassembly.followedBy
        (reassemble limit buffer) =
      reassemble limit (buffer ++ chunks.flatten) := by
  induction chunks generalizing buffer with
  | nil => rw [feed_nil, List.foldl_nil, List.flatten_nil, List.append_nil]
  | cons chunk chunks ih =>
    simp only [feed_cons, List.foldl_cons, followedBy_reassemble, rest_reassemble]
    rw [ih, List.append_assoc, List.flatten_cons]

theorem reassemble_nil (limit : UInt32) : reassemble limit [] = ⟨[], [], none⟩ :=
  reassemble_of_remainder (.short (Nat.zero_lt_succ _))

/-- Chunks come to what the whole stream does. -/
theorem feedAll_eq (limit : UInt32) (chunks : List Octets) :
    feedAll limit chunks = reassemble limit chunks.flatten := by
  have h := foldl_feed limit [] chunks
  rwa [reassemble_nil, List.nil_append] at h

theorem length_feed (limit : UInt32) (left : Octets) (chunks : List Octets) :
    (feed limit left chunks).length = chunks.length := by
  induction chunks generalizing left with
  | nil => rfl
  | cons chunk chunks ih => rw [feed_cons, List.length_cons, ih, List.length_cons]

theorem feed_append (limit : UInt32) (buffer : Octets) (chunks more : List Octets) :
    feed limit (reassemble limit buffer).rest (chunks ++ more) =
      feed limit (reassemble limit buffer).rest chunks ++
        feed limit (reassemble limit (buffer ++ chunks.flatten)).rest more := by
  induction chunks generalizing buffer with
  | nil => rw [List.nil_append, List.flatten_nil, List.append_nil, feed_nil, List.nil_append]
  | cons chunk chunks ih =>
    simp only [List.cons_append, feed_cons, rest_reassemble]
    rw [ih, List.append_assoc, List.flatten_cons]

/-- After a fault each chunk meets it again. -/
theorem feed_of_fault (h : Remainder limit rest (some fault)) {more : List Octets} {i : Nat}
    (hi : i < more.length) :
    (feed limit rest more)[i]? = some ⟨[], rest ++ (more.take (i + 1)).flatten, some fault⟩ := by
  induction more generalizing rest i with
  | nil => exact absurd hi (Nat.not_lt_zero i)
  | cons chunk more ih =>
    rw [feed_cons, reassemble_of_remainder (h.append chunk)]
    cases i with
    | zero => simp
    | succ i =>
      have hlater := ih (h.append chunk) (Nat.lt_of_succ_lt_succ hi)
      simpa using hlater

/-- However a stream is cut, its chunks come to the one thing that it decodes to: frames and a
rest that are the stream. A fault in the rest stays there, and each later chunk meets it again. -/
theorem decoding_lossless_maximal (limit : UInt32) (chunks : List Octets) :
    Decodes limit chunks.flatten (feedAll limit chunks) ∧
      (∀ r, Decodes limit chunks.flatten r → r = feedAll limit chunks) ∧
      (∀ others : List Octets, others.flatten = chunks.flatten →
        feedAll limit others = feedAll limit chunks) ∧
      ∀ fault, (feedAll limit chunks).error = some fault →
        ∀ (more : List Octets) (i : Nat), i < more.length →
          (feed limit [] (chunks ++ more))[chunks.length + i]? =
            some ⟨[], (feedAll limit chunks).rest ++ (more.take (i + 1)).flatten, some fault⟩ := by
  rw [feedAll_eq]
  refine ⟨decodes_reassemble limit _, fun r hr => hr.unique, ?_, ?_⟩
  · intro others heq
    rw [feedAll_eq, heq]
  · intro fault hfault more i hi
    have happend := feed_append limit [] chunks more
    rw [reassemble_nil, List.nil_append] at happend
    rw [happend, List.getElem?_append_right (by rw [length_feed]; exact Nat.le_add_right _ _),
      length_feed, Nat.add_sub_cancel_left]
    exact feed_of_fault (remainder_of_fault hfault) hi

/-- Two frames and a header that announces too much, cut in a header and in a payload. -/
def cutStream : List Octets :=
  [[0x02, 0xFD, 0x00], [0x07, 0, 0, 0, 0, 0x02, 0xFD, 0x80, 0x01, 0, 0, 0, 5, 0x06],
    [0x80, 0x0E, 0x00, 0x50, 0x02, 0xFD, 0x80, 0x01, 0, 0, 1, 0]]

/-- In one piece the stream comes to the same. The frame that follows it is not read. -/
theorem cutStream_lossless :
    feedAll 16 [cutStream.flatten] = feedAll 16 cutStream ∧
      (feed 16 [] (cutStream ++ [[0x02], [0xFD, 0x00, 0x07, 0, 0, 0, 0]]))[4]? =
        some ⟨[], [0x02, 0xFD, 0x80, 0x01, 0, 0, 1, 0, 0x02, 0xFD, 0x00, 0x07, 0, 0, 0, 0],
          some (.payloadTooLarge 256 16)⟩ := by
  have hfault : (feedAll 16 cutStream).error = some (.payloadTooLarge 256 16) := by decide +kernel
  have hrest : (feedAll 16 cutStream).rest = [0x02, 0xFD, 0x80, 0x01, 0, 0, 1, 0] := by
    decide +kernel
  obtain ⟨-, -, hcut, hlater⟩ := decoding_lossless_maximal 16 cutStream
  refine ⟨hcut [cutStream.flatten] rfl, ?_⟩
  have h := hlater _ hfault [[0x02], [0xFD, 0x00, 0x07, 0, 0, 0, 0]] 1 (by decide)
  rwa [hrest] at h

end Doip
