import Doip.Text.Blank
import Mathlib.Data.List.DropRight

/-! # What trimming a text comes to

A trimmed text is told by where its blanks are (`trimChars_eq_iff`). -/
namespace Doip.Text

/-- A text between blanks, with none at its own ends. -/
structure Trimmed (cs trimmed : List Char) : Prop where
  within : ∃ left right, cs = left ++ (trimmed ++ right) ∧
    (∀ c ∈ left, isBlank c = true) ∧ ∀ c ∈ right, isBlank c = true
  head : ∀ c ∈ trimmed.head?, isBlank c = false
  last : ∀ c ∈ trimmed.getLast?, isBlank c = false

variable {cs trimmed : List Char}

theorem trimChars_eq_rdropWhile (cs : List Char) :
    trimChars cs = (cs.dropWhile isBlank).rdropWhile isBlank := rfl

theorem trimmed_trimChars (cs : List Char) : Trimmed cs (trimChars cs) := by
  have hright : trimChars cs ++ (cs.dropWhile isBlank).rtakeWhile isBlank =
      cs.dropWhile isBlank := by
    rw [trimChars_eq_rdropWhile]
    exact List.rdropWhile_append_rtakeWhile
  refine ⟨⟨cs.takeWhile isBlank, (cs.dropWhile isBlank).rtakeWhile isBlank, ?_,
    fun c => List.mem_takeWhile_imp, fun c => List.mem_rtakeWhile_imp⟩, fun c hc => ?_,
    fun c hc => ?_⟩
  · rw [hright, List.takeWhile_append_dropWhile]
  · have hhead : (cs.dropWhile isBlank).head? = some c := by
      rw [← hright, List.head?_append, hc]
      rfl
    have hnot := List.head?_dropWhile_not isBlank cs
    rw [hhead] at hnot
    simpa using hnot
  · rw [trimChars, List.getLast?_reverse] at hc
    have hnot := List.head?_dropWhile_not isBlank (cs.dropWhile isBlank).reverse
    rw [hc] at hnot
    simpa using hnot

theorem dropWhile_of_head {p : Char → Bool} (h : ∀ c ∈ cs.head?, p c = false) :
    cs.dropWhile p = cs := by
  cases cs with
  | nil => rfl
  | cons c rest => exact List.dropWhile_cons_of_neg (by simp [h c rfl])

/-- A text has only one trimmed form. -/
theorem trimChars_eq_iff : trimChars cs = trimmed ↔ Trimmed cs trimmed := by
  refine ⟨fun h => h ▸ trimmed_trimChars cs, ?_⟩
  rintro ⟨⟨left, right, hcs, hleft, hright⟩, head, last⟩
  have hfront : cs.dropWhile isBlank = (trimmed ++ right).dropWhile isBlank := by
    rw [hcs, List.dropWhile_append_of_pos hleft]
  cases trimmed with
  | nil =>
    have hnone : ([] ++ right).dropWhile isBlank = [] := List.dropWhile_eq_nil_iff.mpr hright
    rw [trimChars, hfront, hnone]
    rfl
  | cons c rest =>
    have hstay : (c :: rest ++ right).dropWhile isBlank = c :: rest ++ right :=
      dropWhile_of_head (by simpa using head)
    have hback : ∀ c ∈ right.reverse, isBlank c = true := by simpa using hright
    have hend : (c :: rest).reverse.dropWhile isBlank = (c :: rest).reverse :=
      dropWhile_of_head (by rwa [List.head?_reverse])
    rw [trimChars, hfront, hstay, List.reverse_append, List.dropWhile_append_of_pos hback, hend,
      List.reverse_reverse]

@[simp] theorem trimChars_trimChars (cs : List Char) : trimChars (trimChars cs) = trimChars cs :=
  trimChars_eq_iff.mpr
    ⟨⟨[], [], by simp, nofun, nofun⟩, (trimmed_trimChars cs).head, (trimmed_trimChars cs).last⟩

end Doip.Text
