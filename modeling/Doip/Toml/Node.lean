/-! # Values and tables

What a document holds. A table remembers how it came about, because that decides
which later lines may add to it: a table that only longer keys have passed through
may still be written out, one that has been written may not be written again. -/
namespace Doip.Toml

/-- How a table came about. -/
structure Origin where
  /-- Only passed through on the way to a table or value further down. -/
  implicit : Bool
  /-- Passed through by a dotted key in front of an equals sign. -/
  dotted : Bool
deriving DecidableEq, Repr

structure TableOf (α : Type) where
  origin : Origin
  entries : List (String × α)

/-- A value or table. Floats and dates carry nothing: no setting reads them. -/
inductive Node where
  | string (text : String)
  | integer (value : Int)
  | float
  | boolean (value : Bool)
  | dateTime
  | array (items : List Node)
  /-- A table in braces, which no later line can add to. -/
  | inlineTable (entries : List (String × Node))
  | table (t : TableOf Node)
  /-- The tables of one array, each written out under the same name. -/
  | tables (elements : List (TableOf Node))

abbrev Table := TableOf Node

namespace Table

/-- A table that was written out and holds nothing yet. -/
def written : Table := ⟨⟨false, false⟩, []⟩

def find? (t : Table) (key : String) : Option Node := t.entries.lookup key

/-- Gives `key` the value `node`, in its old place or at the end. -/
def set (t : Table) (key : String) (node : Node) : Table :=
  if (t.find? key).isSome then
    { t with entries := t.entries.map fun e => if e.1 = key then (key, node) else e }
  else { t with entries := t.entries ++ [(key, node)] }

def erase (t : Table) (key : String) : Table :=
  { t with entries := t.entries.filter fun e => e.1 ≠ key }

/-- Changes the table that `path` leads to by `change`. Tables missing on the way are made, and
of an array of tables the last one is entered. A dotted key enters no written table. -/
def descend {α : Type} (dotted : Bool) (change : Table → Option (Table × α)) :
    List String → Table → Option (Table × α)
  | [], t => change t
  | key :: path, t =>
    match t.find? key with
    | none =>
      (descend dotted change path ⟨⟨true, dotted⟩, []⟩).map fun (child, r) =>
        (t.set key (.table child), r)
    | some (.table child) =>
      if dotted && !child.origin.implicit then none
      else
        (descend dotted change path child).map fun (child, r) => (t.set key (.table child), r)
    | some (.tables elements) =>
      match elements.getLast? with
      | none => none
      | some last =>
        (descend dotted change path last).map fun (last, r) =>
          (t.set key (.tables (elements.dropLast ++ [last])), r)
    | some _ => none

/-- Adds a value under a dotted key, given as the path and the last part. The tables on the path
belong to dotted keys, and a key has one value. -/
def put (path : List String) (key : String) (value : Node) (t : Table) : Option Table :=
  (descend true (fun parent =>
    if parent.origin.dotted = path.isEmpty then none
    else if (parent.find? key).isSome then none
    else some (parent.set key value, ())) path t).map (·.1)

end Table
end Doip.Toml
