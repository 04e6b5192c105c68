/-! # Text without control sequences

Text for a terminal may hold control sequences (ECMA-48), which change how the terminal
shows what follows. Where the text goes elsewhere they are taken out, and with them all
control characters but white space. A sequence is cut off by the next one that begins,
and by the characters CAN and SUB. -/
namespace Doip.Terminal

/-- What the next character belongs to. -/
inductive Mode where
  | text
  /-- An escape sequence that has just begun. -/
  | escape
  /-- An escape sequence of more than one character. -/
  | longEscape
  /-- A control sequence, which ends with a letter. -/
  | control
  /-- The head of a device control string. -/
  | deviceHead
  /-- A string up to the octet that terminates strings. -/
  | string
  /-- A command to the operating system, up to a bell. -/
  | command
deriving DecidableEq, Repr

/-- White space among the control characters: tab, line feed, form feed and carriage return. -/
def isControlBlank (c : Char) : Bool := c = '\t' || c = '\n' || c = '\x0c' || c = '\r'

/-- What is no control character of ASCII, or is white space. -/
def isVisible (c : Char) : Bool := (0x20 ≤ c.toNat && c.toNat ≠ 0x7F) || isControlBlank c

/-- Whether `n` is a number that a character between `a` and `b` can have. -/
def within (a b n : Nat) : Bool := a ≤ n && n ≤ b

/-- Whether the octet that terminates strings, 0x9C, is in the UTF-8 form of the character. -/
def hasTerminator (c : Char) : Bool :=
  let n := c.toNat
  (0x80 ≤ n && n % 64 = 28) || (0x800 ≤ n && n / 64 % 64 = 28) ||
    (0x10000 ≤ n && n / 4096 % 64 = 28)

/-- The mode after the first character of an escape sequence. -/
def afterEscape (c : Char) : Mode :=
  if c = 'P' then .deviceHead
  else if c = '[' then .control
  else if c = ']' then .command
  else if c = 'X' ∨ c = '^' ∨ c = '_' then .string
  else if within 0x20 0x2F c.toNat then .longEscape
  else if within 0x30 0x7E c.toNat then .text
  else .escape

/-- The mode after a character. -/
def Mode.next (m : Mode) (c : Char) : Mode :=
  if c = '\x18' ∨ c = '\x1a' then .text
  else if c = '\x1b' then .escape
  else
    match m with
    | .text => .text
    | .escape => afterEscape c
    | .longEscape => if within 0x30 0x7E c.toNat then .text else .longEscape
    | .control => if within 0x40 0x7E c.toNat then .text else .control
    | .deviceHead => if within 0x40 0x7E c.toNat then .string else .deviceHead
    | .string => if hasTerminator c then .text else .string
    | .command => if c = '\x07' then .text else .command

/-- Whether a character shows: as text, or as white space within a short sequence. -/
def Mode.shows (m : Mode) (c : Char) : Bool :=
  match m with
  | .text => isVisible c
  | .escape | .longEscape | .control => isControlBlank c
  | .deviceHead | .string | .command => false

/-- The characters that show. White space within a sequence interrupts it: text shows again up to
the next control character, and only there the sequence goes on. -/
def plainFrom : (interrupted : Bool) → Mode → List Char → List Char
  | _, _, [] => []
  | true, m, c :: rest =>
    if isVisible c then c :: plainFrom true (if c.toNat < 0x80 then m else .text) rest
    else plainFrom false (m.next c) rest
  | false, m, c :: rest =>
    if m.shows c then c :: plainFrom true (m.next c) rest else plainFrom false (m.next c) rest

def plainChars (cs : List Char) : List Char := plainFrom false .text cs

/-- The text as it shows, without control sequences. -/
def plain (s : String) : String := String.ofList (plainChars s.toList)

end Doip.Terminal
