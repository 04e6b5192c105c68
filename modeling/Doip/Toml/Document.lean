import Doip.Toml.Value

/-! # Documents

A document is a sequence of lines: blank ones, keys with values, and headers that
open a table or one more element of an array of tables. The keys after a header go
to the table it opened, which joins the others when the next header comes. -/
namespace Doip.Toml

/-- A document as far as it has been read. -/
structure Draft where
  /-- All tables but the open one. -/
  closed : Table
  /-- Where the open table belongs; nothing for the outermost one. -/
  place : Option (List String × String)
  /-- Whether the open table is an element of an array of tables. -/
  isElement : Bool
  opened : Table

namespace Draft

/-- The document before its first line. -/
def empty : Draft := ⟨.written, none, false, .written⟩

/-- Puts the open table into its place. -/
def close (d : Draft) : Option Table :=
  match d.place with
  | none => some d.opened
  | some (path, key) =>
    (Table.descend false (fun parent =>
      match parent.find? key with
      | none =>
        if d.isElement then some (parent.set key (.tables [d.opened]), ())
        else some (parent.set key (.table d.opened), ())
      | some (.tables elements) =>
        if d.isElement then some (parent.set key (.tables (elements ++ [d.opened])), ()) else none
      | some _ => none) path d.closed).map (·.1)

/-- Opens a table under a header. A table that was only passed through keeps what it holds; any
other use of the name is an error. -/
def openTable (place : List String × String) (root : Table) : Option Draft :=
  (Table.descend false (fun parent =>
    match parent.find? place.2 with
    | none => some (parent, Table.written)
    | some (.table t) =>
      if t.origin.implicit && !t.origin.dotted then
        some (Table.erase parent place.2, { t with origin := ⟨false, false⟩ })
      else none
    | some _ => none) place.1 root).map fun (closed, opened) => ⟨closed, some place, false, opened⟩

/-- Opens the next element of an array of tables. -/
def openElement (place : List String × String) (root : Table) : Option Draft :=
  (Table.descend false (fun parent =>
    match parent.find? place.2 with
    | none => some (parent, ())
    | some (.tables _) => some (parent, ())
    | some _ => none) place.1 root).map fun (closed, ()) => ⟨closed, some place, true, .written⟩

/-- A header after its opening bracket or brackets. -/
def readHeader (isElement : Bool) (d : Draft) (cs : List Char) : Option (Draft × List Char) := do
  let (place, rest) ← readKey cs
  let ((), rest) ← readChar ']' rest
  let ((), rest) ← if isElement then readChar ']' rest else some ((), rest)
  let rest ← lineEnd? rest
  let root ← d.close
  let opened ← if isElement then openElement place root else openTable place root
  return (opened, rest)

/-- A key and its value, to the end of the line. -/
def readEntry (d : Draft) (cs : List Char) : Option (Draft × List Char) := do
  let (((path, key), node), rest) ← readKeyValue (readValue (nestingLimit - 1)) cs
  let rest ← lineEnd? rest
  let opened ← d.opened.put path key node
  return ({ d with opened }, rest)

/-- One line, without blanks in front. -/
def readLine (d : Draft) (cs : List Char) : Option (Draft × List Char) :=
  match lineEnd? cs with
  | some rest => some (d, rest)
  | none =>
    match cs with
    | '[' :: '[' :: rest => readHeader true d rest
    | '[' :: rest => readHeader false d rest
    | cs => readEntry d cs

/-- All lines that are left. -/
def readLines (d : Draft) (cs : List Char) : Option Draft :=
  match skipSpaces cs with
  | [] => some d
  | line =>
    match d.readLine line with
    | none => none
    | some (d, rest) => if rest.length < cs.length then readLines d rest else none
termination_by cs.length

end Draft

/-- The outermost table of a document; a byte order mark in front is skipped. -/
def readDocument (text : String) : Option Table :=
  let cs := match text.toList with
    | '\uFEFF' :: rest => rest
    | cs => cs
  (Draft.readLines .empty cs).bind Draft.close

end Doip.Toml
