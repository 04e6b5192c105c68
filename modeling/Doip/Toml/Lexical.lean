/-! # Characters, blanks and line ends of TOML documents

A reader takes a value off the front of the characters and returns the rest, or
fails. Documents are only accepted or refused, so a failure says no more. -/
namespace Doip.Toml

/-- Takes a value off the front of the characters. -/
abbrev Reader (α : Type) := List Char → Option (α × List Char)

def isSpace (c : Char) : Bool := c = ' ' || c = '\t'

def skipSpaces (cs : List Char) : List Char := cs.dropWhile isSpace

/-- The characters of comments: all but control characters, tabs apart. -/
def isCommentChar (c : Char) : Bool :=
  c = '\t' || (0x20 ≤ c.toNat && c.toNat ≠ 0x7F)

/-- Skips a comment if one starts here, up to the end of its line. -/
def skipComment : List Char → List Char
  | '#' :: rest => rest.dropWhile isCommentChar
  | cs => cs

/-- What follows a line break; a carriage return alone is none. -/
def newline? : List Char → Option (List Char)
  | '\n' :: rest => some rest
  | '\r' :: '\n' :: rest => some rest
  | _ => none

/-- What follows the end of a line: blanks, a comment, and a line break or the end of the text. -/
def lineEnd? (cs : List Char) : Option (List Char) :=
  match skipComment (skipSpaces cs) with
  | [] => some []
  | c :: rest => newline? (c :: rest)

/-- Skips blanks, line breaks and comments. -/
def skipFiller : List Char → List Char
  | [] => []
  | '\r' :: '\n' :: rest => skipFiller rest
  | '#' :: rest => skipFiller (rest.dropWhile isCommentChar)
  | c :: rest => if isSpace c ∨ c = '\n' then skipFiller rest else c :: rest
termination_by cs => cs.length
decreasing_by
  · simp only [List.length_cons]
    omega
  · have h := (List.dropWhile_suffix isCommentChar : rest.dropWhile isCommentChar <:+ rest)
    have := h.length_le
    simp only [List.length_cons]
    omega
  · simp

/-- Skips blanks and line breaks. -/
def skipBlankLines : List Char → List Char
  | [] => []
  | '\r' :: '\n' :: rest => skipBlankLines rest
  | c :: rest => if isSpace c ∨ c = '\n' then skipBlankLines rest else c :: rest

end Doip.Toml
