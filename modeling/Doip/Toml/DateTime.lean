import Doip.Toml.Number

/-! # Dates and times

A date, a time, or a date with a time and an optional offset (RFC 3339). Each field
stays in its range; a second may be 60. -/
namespace Doip.Toml
open Text

/-- A number of exactly `count` digits. -/
def readFixed (count : Nat) (cs : List Char) : Option (Nat × List Char) :=
  let digits := cs.take count
  if digits.length = count ∧ digits.all isDigit then some (digitsValue 10 digits, cs.drop count)
  else none

/-- The character `c`. -/
def readChar (c : Char) : Reader Unit
  | d :: rest => if c = d then some ((), rest) else none
  | [] => none

def isLeapYear (year : Nat) : Bool := year % 4 = 0 && (year % 100 ≠ 0 || year % 400 = 0)

def daysIn (year month : Nat) : Nat :=
  if month = 2 then (if isLeapYear year then 29 else 28)
  else if month = 4 ∨ month = 6 ∨ month = 9 ∨ month = 11 then 30
  else 31

def readDate (cs : List Char) : Option (Unit × List Char) := do
  let (year, cs) ← readFixed 4 cs
  let ((), cs) ← readChar '-' cs
  let (month, cs) ← readFixed 2 cs
  let ((), cs) ← readChar '-' cs
  let (day, cs) ← readFixed 2 cs
  if 1 ≤ month ∧ month ≤ 12 ∧ 1 ≤ day ∧ day ≤ daysIn year month then some ((), cs) else none

/-- Hours and minutes. -/
def readHourMinute (cs : List Char) : Option (Unit × List Char) := do
  let (hour, cs) ← readFixed 2 cs
  let ((), cs) ← readChar ':' cs
  let (minute, cs) ← readFixed 2 cs
  if hour ≤ 23 ∧ minute ≤ 59 then some ((), cs) else none

/-- Digits after a point, if there are any. -/
def skipSecondFraction : List Char → List Char
  | '.' :: c :: rest => if isDigit c then rest.dropWhile isDigit else '.' :: c :: rest
  | cs => cs

def readTime (cs : List Char) : Option (Unit × List Char) := do
  let ((), cs) ← readHourMinute cs
  let ((), cs) ← readChar ':' cs
  let (second, cs) ← readFixed 2 cs
  if second ≤ 60 then some ((), skipSecondFraction cs) else none

/-- Skips an offset from universal time, if one stands here. -/
def skipOffset : List Char → List Char
  | [] => []
  | c :: rest =>
    if c = 'Z' ∨ c = 'z' then rest
    else if c = '+' ∨ c = '-' then
      match readHourMinute rest with
      | some ((), after) => after
      | none => c :: rest
    else c :: rest

/-- Skips the time that follows a date, if there is one. -/
def skipTimeOfDay : List Char → List Char
  | [] => []
  | c :: rest =>
    if c = 'T' ∨ c = 't' ∨ c = ' ' then
      match readTime rest with
      | some ((), after) => skipOffset after
      | none => c :: rest
    else c :: rest

def readDateTime (cs : List Char) : Option (Unit × List Char) :=
  match readDate cs with
  | some ((), rest) => some ((), skipTimeOfDay rest)
  | none => readTime cs

end Doip.Toml
