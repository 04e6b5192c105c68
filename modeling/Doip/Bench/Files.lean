import Doip.Settings.File

/-! # A tree of files

What a path leads to, name by name from the root or from the working directory. Only
directories can be passed through; a name longer than 255 octets and a path of 4096
octets or more are refused. -/
namespace Doip.Bench
open Settings (FileError)

inductive FileTree where
  | file (content : Octets)
  | directory (entries : List (String × FileTree))

namespace FileTree

/-- Follows names from `place`, whose parents are `above`, the nearest first. -/
def follow (above : List FileTree) (place : FileTree) : List String → Except FileError FileTree
  | [] => .ok place
  | name :: names =>
    match place with
    | .file _ => .error .notDirectory
    | .directory entries =>
      if name = "" ∨ name = "." then follow above place names
      else if name = ".." then
        match above with
        | parent :: higher => follow higher parent names
        | [] => follow [] place names
      else if 255 < name.utf8ByteSize then .error .nameTooLong
      else
        match entries.lookup name with
        | some next => follow (place :: above) next names
        | none => .error .notFound

/-- The content of the file at `path`; a relative path starts at `working`, below the root. -/
def read (root working : FileTree) (path : String) : Except FileError Octets :=
  if path.toList.contains '\x00' then .error .zeroInPath
  else if path = "" then .error .notFound
  else if 4096 ≤ path.utf8ByteSize then .error .nameTooLong
  else
    let found :=
      if path.startsWith "/" then follow [] root (path.splitOn "/")
      else follow [root] working (path.splitOn "/")
    match found with
    | .ok (.file content) => .ok content
    | .ok (.directory _) => .error .isDirectory
    | .error cause => .error cause

/-- Empty directories with the given names. -/
def directories (names : List String) : List (String × FileTree) :=
  names.map fun name => (name, .directory [])

/-- What every machine has. -/
def standard : FileTree :=
  .directory ([
    ("dev", .directory (("null", .file []) :: directories ["fd", "pts", "shm"])),
    ("etc", .directory [
      ("hosts", .file "127.0.0.1\tlocalhost\n".toUTF8.toList),
      ("passwd", .file "root:x:0:0:root:/root:/bin/bash\n".toUTF8.toList)]),
    ("usr", .directory (directories ["bin", "include", "lib", "local", "sbin", "share", "src"])),
    ("var", .directory (directories ["cache", "lib", "local", "log", "mail", "opt", "spool",
      "tmp"]))] ++
    directories ["bin", "boot", "home", "lib", "lib64", "media", "mnt", "opt", "proc", "root",
      "run", "sbin", "srv", "sys", "tmp"])

end FileTree

/-- The settings in the file at `path` of a machine with nothing else on it. -/
def loadSettings (path : String) : Except Settings.LoadError Settings :=
  Settings.ofFile path (FileTree.standard.read (.directory []) path)

end Doip.Bench
