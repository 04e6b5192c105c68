import Doip.Proofs.Text.Spelling
import Doip.Proofs.Text.Trimming
import Doip.Toml.Value

/-! # How decimal integers are read

An integer that ends its line is neither a date nor a float, since both go on after the digits
with a character that no line ends with (`readDateTime_integer`, `readFloat_integer`). It is read
as the number that it writes if 64 bits hold it, and refused otherwise (`readValue_integer`). -/
namespace Doip.Toml
open Text

/-- What stands at the end of a line, with the lines below it: a line break, or nothing where the
text ends. -/
inductive LineEnd : List Char → List Char → Prop
  | text : LineEnd [] []
  | feed (below : List Char) : LineEnd ('\n' :: below) below
  | carriage (below : List Char) : LineEnd ('\r' :: '\n' :: below) below

variable {cs digits rest below after : List Char} {c : Char}
  {n count radix : Nat}

theorem lineEnd?_of_lineEnd (h : LineEnd rest below) : lineEnd? rest = some below := by
  cases h <;> rfl

theorem LineEnd.length_le (h : LineEnd rest below) : below.length ≤ rest.length := by
  cases h with
  | text => exact Nat.le_refl _
  | feed => simp
  | carriage =>
    rw [List.length_cons, List.length_cons]
    omega

theorem LineEnd.head (h : LineEnd rest below) : ∀ c ∈ rest.head?, c = '\n' ∨ c = '\r' := by
  cases h with
  | text => nofun
  | feed => exact fun c hc => .inl (Option.some.inj hc).symm
  | carriage => exact fun c hc => .inr (Option.some.inj hc).symm

/-! ## Digits -/

theorem isDigit_iff : isDigit c = true ↔ 48 ≤ c.toNat ∧ c.toNat ≤ 57 := by
  rw [isDigit, decide_eq_true_iff]
  exact Iff.rfl

theorem isDigit_toDigits (n : Nat) : ∀ c ∈ Nat.toDigits 10 n, isDigit c = true := by
  intro c hc
  obtain ⟨d, hd⟩ := (digits_toDigits (by decide) n).isDigit c hc
  have hvalue := hd.toNat_decimal
  have hbelow := hd.below
  exact isDigit_iff.mpr (by omega)

/-- Every number has a first digit. -/
theorem exists_toDigits_eq_cons (n : Nat) :
    ∃ c later, Nat.toDigits 10 n = c :: later ∧ isDigit c = true ∧
      ∀ d ∈ later, isDigit d = true := by
  obtain ⟨c, later, hcons⟩ := List.exists_cons_of_ne_nil (Nat.toDigits_ne_nil (n := n) (b := 10))
  exact ⟨c, later, hcons, List.forall_mem_cons.mp (hcons ▸ isDigit_toDigits n)⟩

theorem ne_of_isDigit (h : isDigit c = true) {other : Char} (hother : isDigit other = false) :
    c ≠ other := by
  rintro rfl
  rw [h] at hother
  cases hother

theorem digitsValue_of_digits (h : Digits radix digits n) (hradix : radix ≤ 16) :
    digitsValue radix digits = n := by
  have hvalue {c : Char} {d : Nat} (hd : IsDigit radix c d) : (digitValue? c).getD 0 = d := by
    have hbelow := hd.below
    rw [digitValue?_eq_some_iff.mpr ⟨by omega, hd.printed⟩, Option.getD_some]
  induction h with
  | one digit => rw [digitsValue, List.foldl_cons, List.foldl_nil, hvalue digit, Nat.zero_mul,
      Nat.zero_add]
  | more before digit ih =>
    rw [digitsValue] at ih ⊢
    rw [List.foldl_append, ih, List.foldl_cons, List.foldl_nil, hvalue digit]

theorem head_toDigits (h : 0 < n) : ∀ c ∈ (Nat.toDigits 10 n).head?, c ≠ '0' := by
  induction n using Nat.strongRecOn with
  | ind n ih =>
    rw [Nat.toDigits_eq_if (by decide)]
    split
    · rename_i hlow
      have hdigit : ∀ d < 10, 0 < d → d.digitChar ≠ '0' := by decide
      rintro c ⟨⟩
      exact hdigit n hlow h
    · have hquotient : 0 < n / 10 := by omega
      rw [List.head?_append_of_ne_nil _ Nat.toDigits_ne_nil]
      exact ih (n / 10) (by omega) hquotient

/-- A run of digits ends with the line. -/
theorem digitTail_append (hdigits : ∀ c ∈ digits, isDigit c = true) (hend : LineEnd rest below) :
    digitTail isDigit (digits ++ rest) = some (digits, rest) := by
  induction digits with
  | nil =>
    cases hend with
    | text => rfl
    | feed => rw [List.nil_append, digitTail, if_neg (by decide)] <;> nofun
    | carriage => rw [List.nil_append, digitTail, if_neg (by decide)] <;> nofun
  | cons c digits ih =>
    obtain ⟨hc, hdigits⟩ := List.forall_mem_cons.mp hdigits
    have hscore : c ≠ '_' := ne_of_isDigit hc (by decide)
    rw [List.cons_append, digitTail, if_pos hc, ih hdigits, Option.map_some]
    · exact fun hlast => absurd hlast hscore
    · exact fun _ _ hlast => absurd hlast hscore

theorem decimalDigits_toDigits (n : Nat) (hend : LineEnd rest below) :
    decimalDigits (Nat.toDigits 10 n ++ rest) = some (Nat.toDigits 10 n, rest) := by
  rcases Nat.eq_zero_or_pos n with rfl | hpos
  · rfl
  · have hhead := head_toDigits hpos
    obtain ⟨c, later, hcons, hc, hlater⟩ := exists_toDigits_eq_cons n
    rw [hcons] at hhead ⊢
    rw [List.cons_append, decimalDigits, digitRun, if_pos hc, digitTail_append hlater hend,
      Option.map_some]
    exact fun _ hzero => absurd (List.cons.inj hzero).1 (hhead c rfl)

/-! ## Integers -/

/-- The integers that 64 bits hold. -/
def Fits (v : Int) : Prop := -9223372036854775808 ≤ v ∧ v ≤ 9223372036854775807

instance (v : Int) : Decidable (Fits v) := inferInstanceAs (Decidable (_ ∧ _))

/-- The minus sign in front of an integer, if there is one. -/
def signOf (v : Int) : List Char := if v < 0 then ['-'] else []

theorem toList_toString (v : Int) :
    (toString v).toList = signOf v ++ Nat.toDigits 10 v.natAbs := by
  rw [Int.toString_eq_repr, Int.repr_eq_if, signOf]
  by_cases h : 0 ≤ v
  · rw [if_pos h, if_neg (by omega), List.nil_append, Nat.toList_repr,
      show v.toNat = v.natAbs by omega]
  · rw [if_neg h, if_pos (by omega), String.toList_append, Nat.toList_repr,
      show (-v).toNat = v.natAbs by omega]
    rfl

theorem integerOf?_natAbs (v : Int) :
    integerOf? (decide (v < 0)) v.natAbs = if Fits v then some v else none := by
  unfold integerOf? Fits maxInteger
  by_cases h : v < 0
  · rw [if_pos (by simpa using h), show -(v.natAbs : Int) = v by omega]
    exact if_congr (by omega) rfl rfl
  · rw [if_neg (by simpa using h), show (v.natAbs : Int) = v by omega]
    exact if_congr (by omega) rfl rfl

theorem readSign_of_digit (h : isDigit c = true) (rest : List Char) :
    readSign (c :: rest) = (false, c :: rest) := by
  rw [readSign]
  · exact fun _ hminus => absurd (List.cons.inj hminus).1 (ne_of_isDigit h (by decide))
  · exact fun _ hplus => absurd (List.cons.inj hplus).1 (ne_of_isDigit h (by decide))

theorem readSign_integer (v : Int) (rest : List Char) :
    readSign ((toString v).toList ++ rest) =
      (decide (v < 0), Nat.toDigits 10 v.natAbs ++ rest) := by
  rw [toList_toString, signOf]
  by_cases h : v < 0
  · rw [if_pos h, decide_eq_true h]
    rfl
  · rw [if_neg h, decide_eq_false h, List.nil_append]
    obtain ⟨c, later, hcons, hc, -⟩ := exists_toDigits_eq_cons v.natAbs
    rw [hcons]
    exact readSign_of_digit hc _

theorem readDecimal_integer (v : Int) (hend : LineEnd rest below) :
    readDecimal ((toString v).toList ++ rest) = if Fits v then some (v, rest) else none := by
  have hvalue : digitsValue 10 (Nat.toDigits 10 v.natAbs) = v.natAbs :=
    digitsValue_of_digits (digits_toDigits (by decide) _) (by decide)
  unfold readDecimal
  rw [readSign_integer]
  dsimp only
  rw [decimalDigits_toDigits _ hend]
  dsimp only [Option.bind_eq_bind, Option.bind_some]
  rw [hvalue, integerOf?_natAbs]
  split <;> rfl

theorem readInteger_integer (v : Int) (hend : LineEnd rest below) :
    readInteger ((toString v).toList ++ rest) = if Fits v then some (v, rest) else none := by
  rw [← readDecimal_integer v hend]
  by_cases hzero : v = 0
  · subst hzero
    cases hend <;> rfl
  · -- A mark for another radix begins with a zero, and this integer does not.
    have hhead : ∀ c ∈ (signOf v ++ (Nat.toDigits 10 v.natAbs ++ rest)).head?, c ≠ '0' := by
      unfold signOf
      split
      · rintro c ⟨⟩
        decide
      · rw [List.nil_append, List.head?_append_of_ne_nil _ Nat.toDigits_ne_nil]
        exact head_toDigits (by omega)
    rw [toList_toString, List.append_assoc]
    generalize signOf v ++ (Nat.toDigits 10 v.natAbs ++ rest) = cs at hhead
    unfold readInteger
    split
    · exact absurd rfl (hhead '0' rfl)
    · exact absurd rfl (hhead '0' rfl)
    · exact absurd rfl (hhead '0' rfl)
    · rfl

/-! ## Neither dates nor floats -/

/-- Behind digits that end their line there is no other character than one of a line's end. -/
theorem readChar_of_readFixed (hdigits : ∀ c ∈ digits, isDigit c = true)
    (hend : LineEnd rest below) (hread : readFixed count (digits ++ rest) = some (n, after))
    (hc : isDigit c = false) (hfeed : c ≠ '\n') (hcarriage : c ≠ '\r') :
    readChar c after = none := by
  cases hafter : after with
  | nil => rfl
  | cons d later =>
    refine if_neg ?_
    rintro rfl
    unfold readFixed at hread
    dsimp only at hread
    split at hread
    · rename_i htaken
      obtain ⟨-, hdropped⟩ := Prod.mk.inj (Option.some.inj hread)
      rw [hafter] at hdropped
      -- Both sides are what is left behind the same run of digits.
      have hrest : rest = c :: later := by
        calc rest = (digits ++ rest).dropWhile isDigit := by
              rw [List.dropWhile_append_of_pos hdigits, dropWhile_of_head]
              intro e he
              rcases hend.head e he with rfl | rfl <;> decide
          _ = ((digits ++ rest).take count ++ (digits ++ rest).drop count).dropWhile isDigit := by
              rw [List.take_append_drop]
          _ = c :: later := by
              rw [List.dropWhile_append_of_pos (List.all_eq_true.mp htaken.2), hdropped,
                dropWhile_of_head]
              rintro e ⟨⟩
              exact hc
      rw [hrest] at hend
      rcases hend.head c rfl with h | h
      · exact hfeed h
      · exact hcarriage h
    · cases hread

theorem readFixed_minus (count : Nat) (rest : List Char) :
    readFixed (count + 1) ('-' :: rest) = none := by
  refine if_neg fun htaken => ?_
  exact absurd (List.all_eq_true.mp htaken.2 '-' List.mem_cons_self) (by decide)

theorem readDate_eq_none
    (h : ∀ n after, readFixed 4 cs = some (n, after) → readChar '-' after = none) :
    readDate cs = none := by
  unfold readDate
  cases hread : readFixed 4 cs with
  | none => rfl
  | some read =>
    obtain ⟨year, after⟩ := read
    rw [Option.bind_eq_bind, Option.bind_some]
    dsimp only
    rw [h year after hread]
    rfl

theorem readTime_eq_none
    (h : ∀ n after, readFixed 2 cs = some (n, after) → readChar ':' after = none) :
    readTime cs = none := by
  unfold readTime readHourMinute
  cases hread : readFixed 2 cs with
  | none => rfl
  | some read =>
    obtain ⟨hour, after⟩ := read
    rw [Option.bind_eq_bind, Option.bind_eq_bind, Option.bind_some]
    dsimp only
    rw [h hour after hread]
    rfl

theorem readDateTime_integer (v : Int) (hend : LineEnd rest below) :
    readDateTime ((toString v).toList ++ rest) = none := by
  have hnone : ∀ {count : Nat} {c : Char}, 0 < count → isDigit c = false → c ≠ '\n' → c ≠ '\r' →
      ∀ n after, readFixed count ((toString v).toList ++ rest) = some (n, after) →
        readChar c after = none := by
    intro count c hcount hc hfeed hcarriage n after hread
    rw [toList_toString, signOf] at hread
    split at hread
    · obtain ⟨earlier, rfl⟩ := Nat.exists_eq_add_one_of_ne_zero (Nat.ne_of_gt hcount)
      rw [List.append_assoc, List.singleton_append, readFixed_minus] at hread
      cases hread
    · rw [List.nil_append] at hread
      exact readChar_of_readFixed (isDigit_toDigits _) hend hread hc hfeed hcarriage
  unfold readDateTime
  rw [readDate_eq_none (hnone (by decide) (by decide) (by decide) (by decide))]
  exact readTime_eq_none (hnone (by decide) (by decide) (by decide) (by decide))

theorem readFloat_integer (v : Int) (hend : LineEnd rest below) :
    readFloat ((toString v).toList ++ rest) = none := by
  have hfraction : readFraction rest = some (none, rest) := by cases hend <;> rfl
  have hexponent : readExponent rest = some (none, rest) := by cases hend <;> rfl
  have hdecimal : readDecimalFloat ((toString v).toList ++ rest) = none := by
    unfold readDecimalFloat
    rw [readSign_integer]
    dsimp only
    rw [decimalDigits_toDigits _ hend]
    dsimp only [Option.bind_eq_bind, Option.bind_some]
    rw [hfraction]
    dsimp only [Option.bind_some]
    rw [hexponent]
    rfl
  have hspecial : readSpecialFloat ((toString v).toList ++ rest) = none := by
    unfold readSpecialFloat
    rw [readSign_integer]
    obtain ⟨c, later, hcons, hc, -⟩ := exists_toDigits_eq_cons v.natAbs
    rw [hcons]
    dsimp only
    split
    · rename_i hword
      exact absurd (List.cons.inj hword).1 (ne_of_isDigit hc (by decide))
    · rename_i hword
      exact absurd (List.cons.inj hword).1 (ne_of_isDigit hc (by decide))
    · rfl
  rw [readFloat, hdecimal]
  exact hspecial

/-! ## Values -/

theorem readNumber_integer (v : Int) (hend : LineEnd rest below) :
    readNumber ((toString v).toList ++ rest) =
      if Fits v then some (.integer v, rest) else none := by
  rw [readNumber, readDateTime_integer v hend]
  dsimp only
  rw [readFloat_integer v hend]
  dsimp only
  rw [readInteger_integer v hend]
  split <;> rfl

/-- What begins with a digit or a minus sign is a number. -/
theorem readValue_of_head (h : isDigit c = true ∨ c = '-') (levels : Nat) (rest : List Char) :
    readValue levels (c :: rest) = readNumber (c :: rest) := by
  have hother : ∀ {d : Char}, isDigit d = false → d ≠ '-' → c ≠ d := by
    intro d hdigit hminus
    rcases h with h | rfl
    · exact ne_of_isDigit h hdigit
    · exact hminus.symm
  have hquoted : ¬ (c = '"' ∨ c = '\'') :=
    not_or.mpr ⟨hother (by decide) (by decide), hother (by decide) (by decide)⟩
  have hspecial : ¬ (c = 'i' ∨ c = 'n') :=
    not_or.mpr ⟨hother (by decide) (by decide), hother (by decide) (by decide)⟩
  rw [readValue, if_neg hquoted, if_neg hspecial]
  · exact fun _ htrue _ => absurd htrue (hother (by decide) (by decide))
  · exact fun _ hfalse _ => absurd hfalse (hother (by decide) (by decide))
  · exact fun _ hopen => absurd hopen (hother (by decide) (by decide))
  · exact fun _ hopen => absurd hopen (hother (by decide) (by decide))
  · exact fun _ _ hopen => absurd hopen (hother (by decide) (by decide))
  · exact fun _ _ hopen => absurd hopen (hother (by decide) (by decide))

theorem exists_head_integer (v : Int) :
    ∃ c later, (toString v).toList = c :: later ∧ (isDigit c = true ∨ c = '-') := by
  rw [toList_toString, signOf]
  split
  · exact ⟨'-', _, rfl, .inr rfl⟩
  · obtain ⟨c, later, hcons, hc, -⟩ := exists_toDigits_eq_cons v.natAbs
    exact ⟨c, later, hcons, .inl hc⟩

/-- An integer that ends its line is read just if 64 bits hold it. -/
theorem readValue_integer (levels : Nat) (v : Int) (hend : LineEnd rest below) :
    readValue levels ((toString v).toList ++ rest) =
      if Fits v then some (.integer v, rest) else none := by
  rw [← readNumber_integer v hend]
  obtain ⟨c, later, hcons, hhead⟩ := exists_head_integer v
  rw [hcons]
  exact readValue_of_head hhead levels _

end Doip.Toml
