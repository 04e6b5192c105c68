import Doip.Text.Numeral

/-! # Internet addresses

Reading and writing addresses of version 4 and 6. Version 4 is four decimal
numbers; version 6 is eight groups of hexadecimal digits, where one `::` stands for
zero groups and the last two groups may be an address of version 4. Ports, brackets
and zones do not belong to an address. -/
namespace Doip.Network
open Text

/-- An address of version 4. -/
structure Ipv4 where
  a : UInt8
  b : UInt8
  c : UInt8
  d : UInt8
deriving DecidableEq, Repr

/-- An address of version 6: eight groups. -/
structure Ipv6 where
  groups : List UInt16
  length_groups : groups.length = 8
deriving DecidableEq, Repr

inductive IpAddress where
  | v4 (address : Ipv4)
  | v6 (address : Ipv6)
deriving DecidableEq, Repr

/-- The digits of `radix` that a text starts with, at most `most` of them and at least one, as a
number of at most `max`; and the rest of the text. -/
def readNumber? (radix most max : Nat) (cs : List Char) : Option (List Char × Nat × List Char) :=
  let digits := cs.takeWhile fun c => (digitIn? radix c).isSome
  if digits.length ≤ most then
    match readDigits radix max 0 digits with
    | .ok n => if digits = [] then none else some (digits, n, cs.dropWhile fun c =>
        (digitIn? radix c).isSome)
    | .error _ => none
  else none

/-- One number of an address of version 4: no leading zeros. -/
def readOctet? (cs : List Char) : Option (UInt8 × List Char) :=
  match readNumber? 10 3 255 cs with
  | some (digits, n, rest) =>
    if digits.head? = some '0' ∧ 1 < digits.length then none else some (.ofNat n, rest)
  | none => none

/-- The text after `c`, if it starts with that. -/
def after? (c : Char) : List Char → Option (List Char)
  | [] => none
  | first :: rest => if first = c then some rest else none

def readIpv4? (cs : List Char) : Option (Ipv4 × List Char) := do
  let (a, cs) ← readOctet? cs
  let (b, cs) ← after? '.' cs >>= readOctet?
  let (c, cs) ← after? '.' cs >>= readOctet?
  let (d, cs) ← after? '.' cs >>= readOctet?
  return (⟨a, b, c, d⟩, cs)

/-- Groups of an address of version 6 that have been read. -/
structure Groups where
  groups : List UInt16
  /-- Whether the last two came as an address of version 4. -/
  ipv4 : Bool
  rest : List Char

/-- The two groups of an address of version 4. -/
def Ipv4.groups (i : Ipv4) : List UInt16 :=
  [.ofNat (i.a.toNat * 256 + i.b.toNat), .ofNat (i.c.toNat * 256 + i.d.toNat)]

/-- Reads as many groups as there are, at most `room`; a colon stands before each but the first. -/
def readGroups (isFirst : Bool) : (room : Nat) → List Char → Groups
  | 0, cs => ⟨[], false, cs⟩
  | room + 1, cs =>
    let inner := if isFirst then some cs else after? ':' cs
    match (if room = 0 then none else inner >>= readIpv4?) with
    | some (address, rest) => ⟨address.groups, true, rest⟩
    | none =>
      match inner >>= readNumber? 16 4 65535 with
      | some (_, n, rest) =>
        let others := readGroups false room rest
        { others with groups := .ofNat n :: others.groups }
      | none => ⟨[], false, cs⟩

def Ipv6.ofGroups? (groups : List UInt16) : Option Ipv6 :=
  if h : groups.length = 8 then some ⟨groups, h⟩ else none

/-- Eight groups, or groups around one `::`, which stands for at least one zero group. -/
def readIpv6? (cs : List Char) : Option (Ipv6 × List Char) := do
  let head := readGroups true 8 cs
  if head.groups.length = 8 then
    return (← Ipv6.ofGroups? head.groups, head.rest)
  if head.ipv4 then none
  let rest ← after? ':' head.rest >>= after? ':'
  let tail := readGroups true (7 - head.groups.length) rest
  let zeros := List.replicate (8 - head.groups.length - tail.groups.length) 0
  return (← Ipv6.ofGroups? (head.groups ++ zeros ++ tail.groups), tail.rest)

/-- Reads a whole text as an address. -/
def IpAddress.parse? (s : String) : Option IpAddress :=
  match readIpv4? s.toList with
  | some (address, []) => some (.v4 address)
  | some _ => none
  | none =>
    match readIpv6? s.toList with
    | some (address, []) => some (.v6 address)
    | _ => none

def Ipv4.text (i : Ipv4) : String :=
  ".".intercalate ([i.a, i.b, i.c, i.d].map fun n => toString n.toNat)

/-- A group without leading zeros. -/
def groupText (g : UInt16) : String := String.ofList (Nat.toDigits 16 g.toNat)

def groupsText (groups : List UInt16) : String := ":".intercalate (groups.map groupText)

/-- How many zero groups there are at the front. -/
def zerosInFront (groups : List UInt16) : Nat := (groups.takeWhile (· = 0)).length

/-- Where the longest run of zero groups starts, the first of several, and its length. -/
def longestZeros (groups : List UInt16) : Nat × Nat :=
  (List.range groups.length).foldl (fun best start =>
    let length := zerosInFront (groups.drop start)
    if best.2 < length then (start, length) else best) (0, 0)

/-- The longest run of at least two zero groups is left out; an address that stands for one of
version 4 ends in that. -/
def Ipv6.text (i : Ipv6) : String :=
  match i.groups with
  | [0, 0, 0, 0, 0, 0xFFFF, g, h] =>
    "::ffff:" ++ Ipv4.text ⟨.ofNat (g.toNat / 256), .ofNat (g.toNat % 256),
      .ofNat (h.toNat / 256), .ofNat (h.toNat % 256)⟩
  | groups =>
    let (start, length) := longestZeros groups
    if 1 < length then
      groupsText (groups.take start) ++ "::" ++ groupsText (groups.drop (start + length))
    else groupsText groups

/-- An address with a port. -/
structure Endpoint where
  address : IpAddress
  port : UInt16
deriving DecidableEq, Repr

def Endpoint.text (e : Endpoint) : String :=
  match e.address with
  | .v4 address => address.text ++ ":" ++ toString e.port.toNat
  | .v6 address => "[" ++ address.text ++ "]:" ++ toString e.port.toNat

end Doip.Network
