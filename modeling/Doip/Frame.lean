import Doip.Frame.Header
import Doip.Message

/-! # Frames and their reassembly

A frame is a generic header and the payload it announces. `Frame.scan` looks for
one frame at the front of the octets that have arrived; `reassemble` takes
frames off until the rest is incomplete or its header is at fault, which leaves
the rest as it is. -/
namespace Doip

structure Frame where
  header : Header
  payload : Octets
deriving DecidableEq, Repr

namespace Frame

/-- The frame of a message. A payload too long for the length field announces the
largest length there is. -/
def ofMessage (version : UInt8) (m : Message) : Frame :=
  let body := m.encode
  ⟨⟨version, m.payloadType, UInt32.ofNat (min body.length 0xFFFFFFFF)⟩, body⟩

def encode (f : Frame) : Octets := f.header.encode ++ f.payload

/-- The message that the payload holds. -/
def message (f : Frame) : Except WireError Message :=
  Message.decode f.header.payloadType f.payload

end Frame

/-- What stands at the front of the octets that have arrived. -/
inductive Scan where
  /-- Too few octets to tell. -/
  | incomplete
  | complete (frame : Frame) (rest : Octets)
  | broken (error : WireError)
deriving DecidableEq, Repr

/-- Looks for one frame at the front of `buffer`, with a payload of at most `limit` octets. -/
def Frame.scan (limit : UInt32) (buffer : Octets) : Scan :=
  match Header.parse? buffer with
  | none => .incomplete
  | some (.error e) => .broken e
  | some (.ok header) =>
    if limit < header.payloadLength then .broken (.payloadTooLarge header.payloadLength limit)
    else
      let body := buffer.drop Header.size
      let length := header.payloadLength.toNat
      if body.length < length then .incomplete
      else .complete ⟨header, body.take length⟩ (body.drop length)

theorem Header.size_le_of_parse? {buffer : Octets} {r : Except WireError Header}
    (h : Header.parse? buffer = some r) : Header.size ≤ buffer.length := by
  unfold Header.parse? at h
  split at h
  · simp [Header.size]
  · cases h

theorem Frame.length_rest_of_scan {limit : UInt32} {buffer rest : Octets} {f : Frame}
    (h : Frame.scan limit buffer = .complete f rest) : rest.length < buffer.length := by
  unfold Frame.scan at h
  split at h
  · cases h
  · cases h
  · rename_i hp
    have := Header.size_le_of_parse? hp
    split at h
    · cases h
    · simp only at h
      split at h
      · cases h
      · cases h
        simp only [List.length_drop, Header.size] at *
        omega

/-- The frames at the front of a byte stream, the octets after them, and the header
error that stopped the reading, if one did. -/
structure Reassembly where
  frames : List Frame
  rest : Octets
  error : Option WireError
deriving DecidableEq, Repr

/-- Takes frames off the front of `buffer` for as long as there are any. -/
def reassemble (limit : UInt32) (buffer : Octets) : Reassembly :=
  match _h : Frame.scan limit buffer with
  | .incomplete => ⟨[], buffer, none⟩
  | .broken e => ⟨[], buffer, some e⟩
  | .complete f rest =>
    let r := reassemble limit rest
    { r with frames := f :: r.frames }
termination_by buffer.length
decreasing_by exact Frame.length_rest_of_scan _h

/-- Takes frames off as chunks of octets arrive: what each chunk completes, and what is left. -/
def feed (limit : UInt32) (left : Octets) : (chunks : List Octets) → List Reassembly
  | [] => []
  | chunk :: chunks =>
    let r := reassemble limit (left ++ chunk)
    r :: feed limit r.rest chunks

end Doip
