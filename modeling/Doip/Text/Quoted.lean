/-! # A character between quotes

How a character is shown inside an error text: between apostrophes, with the
characters that do not print written as escapes. -/
namespace Doip.Text

/-- The digits of `n` in base sixteen, without leading zeros, in lower case. -/
def lowerHex (n : Nat) : String := String.ofList (Nat.toDigits 16 n)

/-- The inside of a quoted character of Latin-1. -/
def escapeChar (c : Char) : String :=
  match c with
  | '\t' => "\\t"
  | '\r' => "\\r"
  | '\n' => "\\n"
  | '\'' => "\\'"
  | '\\' => "\\\\"
  | c =>
    if c.toNat = 0 then "\\0"
    else if c.toNat < 0x20 ∨ 0x7F ≤ c.toNat ∧ c.toNat ≤ 0xA0 ∨ c.toNat = 0xAD then
      "\\u\x7b" ++ lowerHex c.toNat ++ "\x7d"
    else String.singleton c

/-- The character between apostrophes. -/
def quoteChar (c : Char) : String := "'" ++ escapeChar c ++ "'"

end Doip.Text
