import Doip.Text.Blank

/-! # ECU models -/
namespace Doip
open Text

/-- The ECU models whose seeds are known. -/
inductive EcuModel where
  | d31l
  | d31f25
  | d31l24
  | d21l
  | d31h
  | d31x
deriving DecidableEq, Repr

namespace EcuModel

/-- All models in the order of their numbers. -/
def all : List EcuModel := [d31l, d31f25, d31l24, d21l, d31h, d31x]

def number : EcuModel → UInt8
  | d31l => 1
  | d31f25 => 2
  | d31l24 => 3
  | d21l => 4
  | d31h => 5
  | d31x => 6

def shortName : EcuModel → String
  | d31l => "D31L"
  | d31f25 => "D31F25"
  | d31l24 => "D31L24"
  | d21l => "D21L"
  | d31h => "D31H"
  | d31x => "D31X"

def ofNumber? (value : UInt8) : Option EcuModel := all.find? (·.number = value)

/-- The model with this short name, in any case of ASCII letters, blanks around it ignored. -/
def ofName? (text : List Char) : Option EcuModel :=
  all.find? (·.shortName.toList = (trimChars text).map Char.toUpper)

end EcuModel
end Doip
