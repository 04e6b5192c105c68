import Doip.Text.Numeral
import Doip.Toml.Lexical

/-! # Quoted strings

Strings in quotes know escapes, strings in apostrophes stand for themselves. Three
quotes or apostrophes open a string of several lines; a line break right after them
is dropped, and up to two of them may stand before the closing three. -/
namespace Doip.Toml
open Text

/-- The characters that stand for themselves in a string in quotes. -/
def isQuotedChar (c : Char) : Bool := isCommentChar c && c ≠ '"' && c ≠ '\\'

/-- The characters of a string in apostrophes. -/
def isLiteralChar (c : Char) : Bool := isCommentChar c && c ≠ '\''

/-- The character of a Unicode scalar value written in hexadecimal digits. -/
def scalar? (digits : List Char) : Option Char := do
  let values ← digits.mapM digitValue?
  let n := values.foldl (fun n d => n * 16 + d) 0
  if n.isValidChar then some (Char.ofNat n) else none

/-- Reads an escape after its backslash. -/
def readEscape : Reader Char
  | 'b' :: rest => some ('\x08', rest)
  | 't' :: rest => some ('\t', rest)
  | 'n' :: rest => some ('\n', rest)
  | 'f' :: rest => some ('\x0c', rest)
  | 'r' :: rest => some ('\r', rest)
  | '"' :: rest => some ('"', rest)
  | '\\' :: rest => some ('\\', rest)
  | 'u' :: a :: b :: c :: d :: rest => (scalar? [a, b, c, d]).map (·, rest)
  | 'U' :: a :: b :: c :: d :: e :: f :: g :: h :: rest =>
    (scalar? [a, b, c, d, e, f, g, h]).map (·, rest)
  | _ => none

/-- What follows a backslash at the end of a line: the line breaks and blanks after it are skipped. -/
def lineContinuation? (cs : List Char) : Option (List Char) :=
  (newline? (skipSpaces cs)).map skipBlankLines

/-- Puts a character in front of what the rest reads as. -/
def consRead (c : Char) (r : Option (List Char × List Char)) : Option (List Char × List Char) :=
  r.map fun (cs, rest) => (c :: cs, rest)

/-- The inside of a string in quotes, up to the closing one. -/
def quotedBody : Reader (List Char)
  | [] => none
  | '"' :: rest => some ([], rest)
  | '\\' :: rest =>
    match readEscape rest with
    | none => none
    | some (c, after) =>
      if after.length ≤ rest.length then consRead c (quotedBody after) else none
  | c :: rest => if isQuotedChar c then consRead c (quotedBody rest) else none
termination_by cs => cs.length

/-- The inside of a string in three quotes. -/
def quotedLines : Reader (List Char)
  | [] => none
  | '"' :: '"' :: '"' :: '"' :: '"' :: rest => some (['"', '"'], rest)
  | '"' :: '"' :: '"' :: '"' :: rest => some (['"'], rest)
  | '"' :: '"' :: '"' :: rest => some ([], rest)
  | '"' :: rest => consRead '"' (quotedLines rest)
  | '\r' :: '\n' :: rest => consRead '\n' (quotedLines rest)
  | '\n' :: rest => consRead '\n' (quotedLines rest)
  | '\\' :: rest =>
    match lineContinuation? rest with
    | some after => if after.length ≤ rest.length then quotedLines after else none
    | none =>
      match readEscape rest with
      | none => none
      | some (c, after) =>
        if after.length ≤ rest.length then consRead c (quotedLines after) else none
  | c :: rest => if isQuotedChar c then consRead c (quotedLines rest) else none
termination_by cs => cs.length

/-- The inside of a string in apostrophes. -/
def literalBody : Reader (List Char)
  | [] => none
  | '\'' :: rest => some ([], rest)
  | c :: rest => if isLiteralChar c then consRead c (literalBody rest) else none

/-- The inside of a string in three apostrophes. -/
def literalLines : Reader (List Char)
  | [] => none
  | '\'' :: '\'' :: '\'' :: '\'' :: '\'' :: rest => some (['\'', '\''], rest)
  | '\'' :: '\'' :: '\'' :: '\'' :: rest => some (['\''], rest)
  | '\'' :: '\'' :: '\'' :: rest => some ([], rest)
  | '\'' :: rest => consRead '\'' (literalLines rest)
  | '\r' :: '\n' :: rest => consRead '\n' (literalLines rest)
  | '\n' :: rest => consRead '\n' (literalLines rest)
  | c :: rest => if isLiteralChar c then consRead c (literalLines rest) else none

/-- Skips a line break if one stands here. -/
def skipNewline (cs : List Char) : List Char := (newline? cs).getD cs

/-- A string of one line. -/
def readString : Reader (List Char)
  | '"' :: rest => quotedBody rest
  | '\'' :: rest => literalBody rest
  | _ => none

/-- A string as a value, of one line or several. -/
def readAnyString : Reader (List Char)
  | '"' :: '"' :: '"' :: rest => quotedLines (skipNewline rest)
  | '\'' :: '\'' :: '\'' :: rest => literalLines (skipNewline rest)
  | cs => readString cs

end Doip.Toml
