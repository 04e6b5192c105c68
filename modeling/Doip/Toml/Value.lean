import Doip.Toml.DateTime
import Doip.Toml.Node
import Doip.Toml.Quoted

/-! # Keys and values

Keys are bare or quoted parts joined by points. Values nest at most to the depth of
`nestingLimit`, and a key has fewer parts than that. -/
namespace Doip.Toml

/-- Nesting of this depth is refused. -/
def nestingLimit : Nat := 80

def isBareKeyChar (c : Char) : Bool := c.isAlphanum || c = '-' || c = '_'

/-- One part of a key. -/
def readKeyPart : Reader String
  | [] => none
  | c :: rest =>
    if c = '"' ∨ c = '\'' then (readString (c :: rest)).map fun (cs, after) => (String.ofList cs, after)
    else
      let bare := (c :: rest).takeWhile isBareKeyChar
      if bare.isEmpty then none
      else some (String.ofList bare, (c :: rest).dropWhile isBareKeyChar)

/-- The parts of a key, blanks around each. -/
def readKeyParts (cs : List Char) : Option (List String × List Char) :=
  match readKeyPart (skipSpaces cs) with
  | none => none
  | some (part, after) =>
    match skipSpaces after with
    | '.' :: rest =>
      if rest.length < cs.length then
        (readKeyParts rest).map fun (parts, after) => (part :: parts, after)
      else none
    | rest => some ([part], rest)
termination_by cs.length

/-- A key as the path to it and its last part. -/
def readKey (cs : List Char) : Option ((List String × String) × List Char) := do
  let (parts, rest) ← readKeyParts cs
  if nestingLimit ≤ parts.length then none
  else
    let last ← parts.getLast?
    return ((parts.dropLast, last), rest)

/-- A key, an equals sign and a value. -/
def readKeyValue (value : Reader Node) (cs : List Char) :
    Option (((List String × String) × Node) × List Char) := do
  let (key, rest) ← readKey cs
  let ((), rest) ← readChar '=' rest
  let (node, rest) ← value (skipSpaces rest)
  return ((key, node), rest)

/-- The items of an array up to its closing bracket; a comma may follow the last one. -/
def readItems (value : Reader Node) (cs : List Char) : Option (List Node × List Char) :=
  match cs with
  | ']' :: rest => some ([], rest)
  | cs =>
    match value cs with
    | none => none
    | some (item, after) =>
      match skipFiller after with
      | ']' :: rest => some ([item], rest)
      | ',' :: rest =>
        if (skipFiller rest).length < cs.length then
          (readItems value (skipFiller rest)).map fun (items, after) => (item :: items, after)
        else none
      | _ => none
termination_by cs.length

/-- The entries of a table in braces after its opening one. -/
def readInlineEntries (value : Reader Node) (t : Table) (cs : List Char) :
    Option (Table × List Char) :=
  match readKeyValue value cs with
  | none => none
  | some (((path, key), node), after) =>
    match t.put path key node with
    | none => none
    | some t =>
      match skipSpaces after with
      | '}' :: rest => some (t, rest)
      | ',' :: rest =>
        if rest.length < cs.length then readInlineEntries value t rest else none
      | _ => none
termination_by cs.length

/-- A table in braces after its opening one. -/
def readInlineTable (value : Reader Node) (cs : List Char) : Option (Node × List Char) :=
  match skipSpaces cs with
  | '}' :: rest => some (.inlineTable [], rest)
  | cs => (readInlineEntries value .written cs).map fun (t, rest) => (.inlineTable t.entries, rest)

/-- A date, a float or an integer. -/
def readNumber (cs : List Char) : Option (Node × List Char) :=
  match readDateTime cs with
  | some ((), rest) => some (.dateTime, rest)
  | none =>
    match readFloat cs with
    | some ((), rest) => some (.float, rest)
    | none => (readInteger cs).map fun (n, rest) => (.integer n, rest)

/-- A value that may hold arrays and tables nested to the depth of `levels`. -/
def readValue : (levels : Nat) → Reader Node
  | _, [] => none
  | _, 't' :: 'r' :: 'u' :: 'e' :: rest => some (.boolean true, rest)
  | _, 'f' :: 'a' :: 'l' :: 's' :: 'e' :: rest => some (.boolean false, rest)
  | 0, '[' :: _ => none
  | 0, '{' :: _ => none
  | levels + 1, '[' :: rest =>
    (readItems (readValue levels) (skipFiller rest)).map fun (items, after) => (.array items, after)
  | levels + 1, '{' :: rest => readInlineTable (readValue levels) rest
  | _, c :: rest =>
    if c = '"' ∨ c = '\'' then
      (readAnyString (c :: rest)).map fun (cs, after) => (.string (String.ofList cs), after)
    else if c = 'i' ∨ c = 'n' then (readSpecialFloat (c :: rest)).map fun ((), after) => (.float, after)
    else readNumber (c :: rest)

end Doip.Toml
