import Doip.Failure
import Doip.Text.Blank

/-! # Data identifiers and the applications that own them -/
namespace Doip
open Text

/-- The application that owns a data identifier. -/
inductive AppCategory where
  | fdA53
  | bcm
  | vcu
  | evcc
  | ota
  | conn
  | vnd
  | aps
  | tpms
  | dkc
  | zev
  | fxnPi
  | thcm
  | scp
  | vmc
  | v2l
  | fdM7
deriving DecidableEq, Repr

namespace AppCategory

/-- All categories in the order of their numbers, which start at zero. -/
def all : List AppCategory :=
  [fdA53, bcm, vcu, evcc, ota, conn, vnd, aps, tpms, dkc, zev, fxnPi, thcm, scp, vmc, v2l, fdM7]

def number : AppCategory → UInt8
  | fdA53 => 0
  | bcm => 1
  | vcu => 2
  | evcc => 3
  | ota => 4
  | conn => 5
  | vnd => 6
  | aps => 7
  | tpms => 8
  | dkc => 9
  | zev => 10
  | fxnPi => 11
  | thcm => 12
  | scp => 13
  | vmc => 14
  | v2l => 15
  | fdM7 => 16

def name : AppCategory → String
  | fdA53 => "FdA53"
  | bcm => "Bcm"
  | vcu => "Vcu"
  | evcc => "Evcc"
  | ota => "Ota"
  | conn => "Conn"
  | vnd => "Vnd"
  | aps => "Aps"
  | tpms => "Tpms"
  | dkc => "Dkc"
  | zev => "Zev"
  | fxnPi => "FxnPi"
  | thcm => "Thcm"
  | scp => "Scp"
  | vmc => "Vmc"
  | v2l => "V2l"
  | fdM7 => "FdM7"

def ofNumber (value : Nat) : Except Failure AppCategory :=
  match all[value]? with
  | some category => .ok category
  | none => .error (.convert ("no app category with value " ++ toString value))

/-- Reads a category's number or its name, in any case of ASCII letters. -/
def parse (text : String) : Except Failure AppCategory :=
  let chars := trimChars text.toList
  match readNumeral 10 255 chars with
  | .ok value => ofNumber value
  | .error _ =>
    match all.find? fun c => c.name.toList.map Char.toLower == chars.map Char.toLower with
    | some category => .ok category
    | none =>
      .error (.invalidArgument ("unknown app category '" ++ String.ofList chars ++ "'"))

end AppCategory

/-- A data identifier and its owner. -/
structure DataIdentifier where
  did : UInt16
  category : AppCategory
deriving DecidableEq, Repr

namespace DataIdentifier
open AppCategory

/-- The known identifiers, ascending. -/
def table : List DataIdentifier := [
  ⟨0x0201, vcu⟩, ⟨0x0202, dkc⟩, ⟨0x0203, vcu⟩, ⟨0x0206, vcu⟩, ⟨0x0207, vcu⟩, ⟨0x0301, bcm⟩,
  ⟨0x0302, bcm⟩, ⟨0x0303, bcm⟩, ⟨0x0304, bcm⟩, ⟨0x0305, bcm⟩, ⟨0x0306, bcm⟩, ⟨0x0307, bcm⟩,
  ⟨0x0501, evcc⟩, ⟨0x0504, evcc⟩, ⟨0x050D, evcc⟩, ⟨0x0610, vnd⟩, ⟨0x0611, vnd⟩, ⟨0x07F1, conn⟩,
  ⟨0x0B01, tpms⟩, ⟨0x0B05, tpms⟩, ⟨0x0E04, fdA53⟩, ⟨0x0F05, ota⟩, ⟨0x1001, fxnPi⟩,
  ⟨0x1002, fxnPi⟩, ⟨0x1003, fxnPi⟩, ⟨0x1004, fxnPi⟩, ⟨0x1005, fxnPi⟩, ⟨0x1006, fxnPi⟩,
  ⟨0x1007, fxnPi⟩, ⟨0x1008, fxnPi⟩, ⟨0x1009, fxnPi⟩, ⟨0x100A, fxnPi⟩, ⟨0x100B, fxnPi⟩,
  ⟨0x100C, fxnPi⟩, ⟨0x100D, fxnPi⟩, ⟨0x100E, fxnPi⟩, ⟨0x100F, fxnPi⟩, ⟨0x1010, fxnPi⟩,
  ⟨0x1011, fxnPi⟩, ⟨0x1012, fxnPi⟩, ⟨0xF090, fdA53⟩, ⟨0xF16F, fdA53⟩, ⟨0xF181, fdA53⟩,
  ⟨0xF184, fdA53⟩, ⟨0xF187, fdA53⟩, ⟨0xF190, fdA53⟩, ⟨0xF193, fdA53⟩, ⟨0xF195, fdA53⟩,
  ⟨0xF199, fdA53⟩, ⟨0xF400, zev⟩, ⟨0xF41C, zev⟩, ⟨0xF41F, zev⟩, ⟨0xF420, zev⟩, ⟨0xF421, zev⟩,
  ⟨0xF430, zev⟩, ⟨0xF440, zev⟩, ⟨0xF460, zev⟩, ⟨0xF480, zev⟩, ⟨0xF4A0, zev⟩, ⟨0xF4C0, zev⟩,
  ⟨0xF4E0, zev⟩, ⟨0xF800, zev⟩, ⟨0xF810, zev⟩, ⟨0xF820, zev⟩, ⟨0xF840, zev⟩, ⟨0xF860, zev⟩,
  ⟨0xF880, zev⟩, ⟨0xF8A0, zev⟩, ⟨0xF8C0, zev⟩, ⟨0xF8E0, zev⟩]

/-- The identifiers that `category` owns, ascending. -/
def ofCategory (category : AppCategory) : List DataIdentifier :=
  table.filter (·.category = category)

/-- The identifiers that the category of this number owns; none when there is no such category. -/
def ofCategoryNumber (value : UInt8) : List DataIdentifier :=
  match AppCategory.ofNumber value.toNat with
  | .ok category => ofCategory category
  | .error _ => []

/-- The owner of an identifier. -/
def categoryOf? (did : UInt16) : Option AppCategory :=
  (table.find? (·.did = did)).map (·.category)

end DataIdentifier
end Doip
