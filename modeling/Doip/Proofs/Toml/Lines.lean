import Doip.Proofs.Toml.Integer
import Doip.Toml.Document

/-! # Documents with a line for each integer

Each line gives an integer to a key that needs no quotes. If no key comes twice, the document is
the table of these entries in the order of its lines, unless 64 bits do not hold one of the
integers (`readDocument_eq_some_iff`). -/
namespace Doip.Toml
open Text

/-- A key that needs no quotes. -/
structure IsBareKey (key : String) : Prop where
  ne_empty : key ≠ ""
  bare : ∀ c ∈ key.toList, isBareKeyChar c = true

/-- The line of a key with its integer, without its end. -/
def lineOf (key : String) (v : Int) : String := key ++ " = " ++ toString v

/-- A line for each key with its integer, in this order. -/
inductive Lines : List (String × Int) → List Char → Prop
  | nil : Lines [] []
  | cons {key : String} {v : Int} {given : List (String × Int)} {rest below : List Char}
      (bare : IsBareKey key) (ends : LineEnd rest below) (others : Lines given below) :
      Lines ((key, v) :: given) ((lineOf key v).toList ++ rest)

variable {key : String} {v : Int} {given : List (String × Int)} {c : Char}
  {cs text rest below : List Char} {d d' : Draft} {t root : Table}

theorem ne_of_isBareKeyChar (h : isBareKeyChar c = true) {other : Char}
    (hother : isBareKeyChar other = false) : c ≠ other := by
  rintro rfl
  rw [h] at hother
  cases hother

theorem IsBareKey.exists_cons (h : IsBareKey key) :
    ∃ c later, key.toList = c :: later ∧ isBareKeyChar c = true := by
  have hne : key.toList ≠ [] := fun hnil => h.ne_empty (String.toList_eq_nil_iff.mp hnil)
  obtain ⟨c, later, hkey⟩ := List.exists_cons_of_ne_nil hne
  exact ⟨c, later, hkey, h.bare c (hkey ▸ List.mem_cons_self)⟩

theorem toList_lineOf_append (key : String) (v : Int) (rest : List Char) :
    (lineOf key v).toList ++ rest =
      key.toList ++ ' ' :: '=' :: ' ' :: ((toString v).toList ++ rest) := by
  rw [lineOf, String.toList_append, String.toList_append, List.append_assoc, List.append_assoc]
  rfl

/-- A line begins with a character of its key. -/
theorem IsBareKey.exists_line_cons (h : IsBareKey key) (v : Int) (rest : List Char) :
    ∃ c later, (lineOf key v).toList ++ rest = c :: later ∧ isBareKeyChar c = true := by
  obtain ⟨c, later, hkey, hc⟩ := h.exists_cons
  rw [toList_lineOf_append, hkey]
  exact ⟨c, _, rfl, hc⟩

/-! ## Blanks and line ends -/

theorem skipSpaces_of_head (hspace : c ≠ ' ') (htab : c ≠ '\t') (cs : List Char) :
    skipSpaces (c :: cs) = c :: cs := by
  refine List.dropWhile_cons_of_neg ?_
  rw [isSpace, decide_eq_false hspace, decide_eq_false htab]
  exact Bool.false_ne_true

theorem skipSpaces_of_isBareKeyChar (h : isBareKeyChar c = true) (cs : List Char) :
    skipSpaces (c :: cs) = c :: cs :=
  skipSpaces_of_head (ne_of_isBareKeyChar h (by decide)) (ne_of_isBareKeyChar h (by decide)) cs

theorem skipSpaces_integer (v : Int) (rest : List Char) :
    skipSpaces ((toString v).toList ++ rest) = (toString v).toList ++ rest := by
  obtain ⟨c, later, hcons, hc | rfl⟩ := exists_head_integer v
  · rw [hcons]
    exact skipSpaces_of_head (ne_of_isDigit hc (by decide)) (ne_of_isDigit hc (by decide)) _
  · rw [hcons]
    rfl

theorem lineEnd?_of_isBareKeyChar (h : isBareKeyChar c = true) (cs : List Char) :
    lineEnd? (c :: cs) = none := by
  have hcomment : skipComment (c :: cs) = c :: cs := by
    rw [skipComment]
    exact fun _ hcons => ne_of_isBareKeyChar h (by decide) (List.cons.inj hcons).1
  rw [lineEnd?, skipSpaces_of_isBareKeyChar h, hcomment]
  dsimp only
  rw [newline?]
  · exact fun _ hcons => ne_of_isBareKeyChar h (by decide) (List.cons.inj hcons).1
  · exact fun _ hcons => ne_of_isBareKeyChar h (by decide) (List.cons.inj hcons).1

/-! ## One line -/

theorem readKeyPart_bare (h : IsBareKey key) (cs : List Char) :
    readKeyPart (key.toList ++ ' ' :: cs) = some (key, ' ' :: cs) := by
  have htake : (key.toList ++ ' ' :: cs).takeWhile isBareKeyChar = key.toList := by
    rw [List.takeWhile_append_of_pos h.bare]
    exact List.append_nil _
  have hdrop : (key.toList ++ ' ' :: cs).dropWhile isBareKeyChar = ' ' :: cs :=
    List.dropWhile_append_of_pos h.bare
  obtain ⟨c, later, hkey, hc⟩ := h.exists_cons
  rw [hkey, List.cons_append] at htake hdrop ⊢
  rw [readKeyPart, if_neg (not_or.mpr
    ⟨ne_of_isBareKeyChar hc (by decide), ne_of_isBareKeyChar hc (by decide)⟩)]
  dsimp only
  rw [htake, hdrop, if_neg (by simp), ← hkey, String.ofList_toList]

theorem readKey_line (h : IsBareKey key) (v : Int) (rest : List Char) :
    readKey ((lineOf key v).toList ++ rest) =
      some (([], key), '=' :: ' ' :: ((toString v).toList ++ rest)) := by
  have hspaces : skipSpaces ((lineOf key v).toList ++ rest) = (lineOf key v).toList ++ rest := by
    obtain ⟨c, later, hcons, hc⟩ := h.exists_line_cons v rest
    rw [hcons]
    exact skipSpaces_of_isBareKeyChar hc later
  have hparts : readKeyParts ((lineOf key v).toList ++ rest) =
      some ([key], '=' :: ' ' :: ((toString v).toList ++ rest)) := by
    rw [readKeyParts, hspaces, toList_lineOf_append, readKeyPart_bare h]
    rfl
  rw [readKey, hparts]
  rfl

theorem readKeyValue_line (h : IsBareKey key) (hend : LineEnd rest below) (levels : Nat) :
    readKeyValue (readValue levels) ((lineOf key v).toList ++ rest) =
      if Fits v then some ((([], key), .integer v), rest) else none := by
  rw [readKeyValue, readKey_line h]
  dsimp only [Option.bind_eq_bind, Option.bind_some]
  rw [readChar, if_pos rfl]
  dsimp only [Option.bind_some]
  have hspace : skipSpaces (' ' :: ((toString v).toList ++ rest)) = (toString v).toList ++ rest :=
    skipSpaces_integer v rest
  rw [hspace, readValue_integer levels v hend]
  split <;> rfl

theorem put_of_find?_eq_none (horigin : t.origin.dotted = false) (hfresh : t.find? key = none)
    (node : Node) : t.put [] key node = some { t with entries := t.entries ++ [(key, node)] } := by
  have hset : t.set key node = { t with entries := t.entries ++ [(key, node)] } := by
    rw [Table.set, hfresh]
    rfl
  rw [Table.put, Table.descend, horigin, if_neg (by decide), hfresh, if_neg (by decide), hset]
  rfl

namespace Draft

/-- The document with one more entry in its open table. -/
def add (d : Draft) (key : String) (v : Int) : Draft :=
  { d with opened := { d.opened with entries := d.opened.entries ++ [(key, .integer v)] } }

theorem readEntry_line (h : IsBareKey key) (hend : LineEnd rest below)
    (horigin : d.opened.origin.dotted = false) (hfresh : d.opened.find? key = none) :
    d.readEntry ((lineOf key v).toList ++ rest) =
      if Fits v then some (d.add key v, below) else none := by
  rw [readEntry, readKeyValue_line h hend]
  split
  · dsimp only [Option.bind_eq_bind, Option.bind_some]
    rw [lineEnd?_of_lineEnd hend]
    dsimp only [Option.bind_some]
    rw [put_of_find?_eq_none horigin hfresh]
    rfl
  · rfl

theorem readLine_line (h : IsBareKey key) (hend : LineEnd rest below)
    (horigin : d.opened.origin.dotted = false) (hfresh : d.opened.find? key = none) :
    d.readLine ((lineOf key v).toList ++ rest) =
      if Fits v then some (d.add key v, below) else none := by
  rw [← readEntry_line h hend horigin hfresh]
  obtain ⟨c, later, hcons, hc⟩ := h.exists_line_cons v rest
  have hopen : c ≠ '[' := ne_of_isBareKeyChar hc (by decide)
  rw [hcons, readLine, lineEnd?_of_isBareKeyChar hc]
  · exact fun _ hbrackets => hopen (List.cons.inj hbrackets).1
  · exact fun _ hbracket => hopen (List.cons.inj hbracket).1

/-! ## All lines -/

theorem readLines_line (h : IsBareKey key) (hend : LineEnd rest below)
    (horigin : d.opened.origin.dotted = false) (hfresh : d.opened.find? key = none) :
    d.readLines ((lineOf key v).toList ++ rest) =
      if Fits v then (d.add key v).readLines below else none := by
  have hline := readLine_line (v := v) h hend horigin hfresh
  have hshorter : below.length < ((lineOf key v).toList ++ rest).length := by
    have hpos : 0 < (lineOf key v).toList.length := by
      obtain ⟨c, later, hcons, -⟩ := h.exists_line_cons v []
      rw [List.append_nil] at hcons
      rw [hcons]
      exact Nat.zero_lt_succ _
    have hbelow := hend.length_le
    rw [List.length_append]
    omega
  obtain ⟨c, later, hcons, hc⟩ := h.exists_line_cons v rest
  rw [hcons] at hline hshorter ⊢
  rw [readLines, skipSpaces_of_isBareKeyChar hc]
  dsimp only
  rw [hline]
  by_cases hfits : Fits v
  · rw [if_pos hfits, if_pos hfits]
    exact if_pos hshorter
  · rw [if_neg hfits, if_neg hfits]

/-- The document with the entries of several lines. -/
def addAll (d : Draft) (given : List (String × Int)) : Draft :=
  { d with opened := { d.opened with
      entries := d.opened.entries ++ given.map fun e => (e.1, .integer e.2) } }

theorem addAll_cons (d : Draft) (key : String) (v : Int) (given : List (String × Int)) :
    d.addAll ((key, v) :: given) = (d.add key v).addAll given := by
  rw [addAll, addAll, add, List.map_cons, List.append_cons]

/-- The lines are read as long as no key comes twice. -/
theorem readLines_eq_some_iff (h : Lines given text) (horigin : d.opened.origin.dotted = false)
    (distinct : (d.opened.entries.map (·.1) ++ given.map (·.1)).Nodup) :
    d.readLines text = some d' ↔ (∀ e ∈ given, Fits e.2) ∧ d.addAll given = d' := by
  induction h generalizing d with
  | nil =>
    have hread : d.readLines [] = some d := by
      rw [readLines]
      rfl
    have hnone : d.addAll [] = d := by rw [addAll, List.map_nil, List.append_nil]
    rw [hread, hnone, Option.some.injEq]
    exact (and_iff_right nofun).symm
  | @cons key v given rest below bare ends others ih =>
    have hfresh : d.opened.find? key = none := by
      refine List.lookup_eq_none_iff.mpr fun e he => bne_iff_ne.mpr fun hkey => ?_
      have hapart := (List.nodup_append.mp distinct).2.2
      exact hapart e.1 (List.mem_map_of_mem he) key List.mem_cons_self hkey.symm
    have hlater : ((d.add key v).opened.entries.map (·.1) ++ given.map (·.1)).Nodup := by
      rw [add, List.map_append, List.append_assoc]
      exact distinct
    rw [readLines_line bare ends horigin hfresh, List.forall_mem_cons, addAll_cons]
    split
    · rename_i hfits
      rw [ih (d := d.add key v) horigin hlater, and_iff_right hfits]
    · rename_i hfits
      exact iff_of_false nofun fun hall => hfits hall.1.1

end Draft

theorem Lines.head (h : Lines given text) : ∀ c ∈ text.head?, isBareKeyChar c = true := by
  cases h with
  | nil => nofun
  | cons bare ends others =>
    obtain ⟨c, later, hcons, hc⟩ := bare.exists_line_cons _ _
    rw [hcons]
    rintro c ⟨⟩
    exact hc

/-! ## Documents -/

/-- The table that lines of integers come to. -/
def tableOf (given : List (String × Int)) : Table :=
  ⟨⟨false, false⟩, given.map fun e => (e.1, .integer e.2)⟩

theorem readDocument_eq_some_iff {text : String} (h : Lines given text.toList)
    (distinct : (given.map (·.1)).Nodup) :
    readDocument text = some root ↔ (∀ e ∈ given, Fits e.2) ∧ tableOf given = root := by
  have hmark : ∀ rest, text.toList ≠ '\uFEFF' :: rest := by
    intro rest hrest
    exact absurd (h.head '\uFEFF' (by rw [hrest]; rfl)) (by decide)
  have hread : readDocument text = (Draft.readLines .empty text.toList).bind Draft.close := by
    unfold readDocument
    split
    · rename_i hrest
      exact absurd hrest (hmark _)
    · rfl
  rw [hread, Option.bind_eq_some_iff]
  simp only [Draft.readLines_eq_some_iff (d := .empty) h rfl distinct]
  constructor
  · rintro ⟨d, ⟨hfits, rfl⟩, hclose⟩
    exact ⟨hfits, Option.some.inj hclose⟩
  · rintro ⟨hfits, rfl⟩
    exact ⟨_, ⟨hfits, rfl⟩, rfl⟩

theorem find?_tableOf_of_mem (distinct : (given.map (·.1)).Nodup) (h : (key, v) ∈ given) :
    (tableOf given).find? key = some (.integer v) := by
  obtain ⟨earlier, later, rfl⟩ := List.append_of_mem h
  rw [List.map_append, List.map_cons] at distinct
  have hearlier := (List.nodup_append.mp distinct).2.2
  refine List.lookup_eq_some_iff.mpr ⟨_, _, by rw [tableOf, List.map_append, List.map_cons], ?_⟩
  intro entry hentry
  obtain ⟨e, he, rfl⟩ := List.mem_map.mp hentry
  exact bne_iff_ne.mpr
    (hearlier e.1 (List.mem_map_of_mem he) key List.mem_cons_self).symm

theorem find?_tableOf_of_not_mem (h : key ∉ given.map (·.1)) :
    (tableOf given).find? key = none := by
  refine List.lookup_eq_none_iff.mpr fun entry hentry => bne_iff_ne.mpr ?_
  rintro rfl
  obtain ⟨e, he, rfl⟩ := List.mem_map.mp hentry
  exact h (List.mem_map_of_mem he)

end Doip.Toml
