import Doip.Octets
import Doip.Settings.Document

/-! # Settings from a file

A file is read whole and has to be text. Why it could not be read is told apart from
a text that is no settings document. -/
namespace Doip.Settings

/-- Why a file could not be read as text. -/
inductive FileError where
  | notFound
  | notDirectory
  | isDirectory
  | nameTooLong
  /-- The path contains a zero octet. -/
  | zeroInPath
  | notText
  | other (text : String)
deriving DecidableEq, Repr

def FileError.text : FileError → String
  | notFound => "No such file or directory (os error 2)"
  | notDirectory => "Not a directory (os error 20)"
  | isDirectory => "Is a directory (os error 21)"
  | nameTooLong => "File name too long (os error 36)"
  | zeroInPath => "file name contained an unexpected NUL byte"
  | notText => "stream did not contain valid UTF-8"
  | other text => text

inductive LoadError where
  | unreadable (path : String) (cause : FileError)
  /-- The text is no settings document. -/
  | malformed
deriving DecidableEq, Repr

def LoadError.message : LoadError → String
  | unreadable path cause => "Failed to read config file " ++ path ++ ": " ++ cause.text
  | malformed => "Failed to parse config"

/-- The text of a file's content. -/
def textOf (content : Octets) : Except FileError String :=
  match String.fromUTF8? ⟨content.toArray⟩ with
  | some text => .ok text
  | none => .error .notText

/-- The settings in the file at `path`, given what reading it brought. -/
def ofFile (path : String) (content : Except FileError Octets) : Except LoadError Settings :=
  match content >>= textOf with
  | .error cause => .error (.unreadable path cause)
  | .ok text =>
    match parse? text with
    | some settings => .ok settings
    | none => .error .malformed

end Doip.Settings
