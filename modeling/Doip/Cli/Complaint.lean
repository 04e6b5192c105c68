/-! # Complaints

What a command says when it fails: the outermost reason first, then what caused it. -/
namespace Doip.Cli

/-- A reason and its causes, the nearest first. -/
structure Complaint where
  reason : String
  causes : List String
deriving DecidableEq, Repr

namespace Complaint

def because (reason cause : String) : Complaint := ⟨reason, [cause]⟩

/-- A number right-aligned in five columns. -/
def column (n : Nat) : String :=
  let digits := toString n
  "".pushn ' ' (5 - digits.length) ++ digits

/-- A cause on lines of its own, set in from the margin. -/
def indented (mark margin cause : String) : String :=
  mark ++ ("\n" ++ margin).intercalate (cause.splitOn "\n")

/-- The causes, with numbers from `n` on. -/
def numbered (n : Nat) : List String → List String
  | [] => []
  | cause :: causes =>
    indented (column n ++ ": ") "       " cause :: numbered (n + 1) causes

/-- The complaint as it is printed; several causes are numbered. -/
def text (c : Complaint) : String :=
  "Error: " ++ c.reason ++
    (match c.causes with
    | [] => ""
    | [cause] => "\n\nCaused by:\n" ++ indented "    " "    " cause
    | causes => "\n\nCaused by:\n" ++ "\n".intercalate (numbered 0 causes)) ++ "\n"

end Complaint
end Doip.Cli
