import Doip.Text.Numeral
import Mathlib.Data.List.Forall2

/-! # How names and numbers are spelled

Names are compared without the case of their letters (`SameButCase`). Numerals are given by a
grammar, a digit after the other (`Digits`, `Spells`), whose digits are those that numbers are
printed with. The reader accepts this grammar up to a bound and no more (`readNumeral_eq_ok_iff`),
and what is printed belongs to it (`digits_toDigits`). -/
namespace Doip.Text

/-! ## Letters but for their case -/

/-- The same character, or the capital and the small form of one ASCII letter. -/
inductive SameLetter : Char → Char → Prop
  | same (c : Char) : SameLetter c c
  | capital {a b : Char} (low : 'A' ≤ a) (high : a ≤ 'Z') (apart : b.toNat = a.toNat + 32) :
      SameLetter a b
  | small {a b : Char} (low : 'A' ≤ b) (high : b ≤ 'Z') (apart : a.toNat = b.toNat + 32) :
      SameLetter a b

/-- Two texts with the same letters. -/
def SameButCase : List Char → List Char → Prop := List.Forall₂ SameLetter

variable {a b c : Char} {as bs cs : List Char}

theorem sameLetter_iff : SameLetter a b ↔ a.toNat = b.toNat ∨
    (65 ≤ a.toNat ∧ a.toNat ≤ 90 ∧ b.toNat = a.toNat + 32) ∨
    (65 ≤ b.toNat ∧ b.toNat ≤ 90 ∧ a.toNat = b.toNat + 32) := by
  constructor
  · intro h
    cases h with
    | same => exact .inl rfl
    | capital low high apart => exact .inr (.inl ⟨low, high, apart⟩)
    | small low high apart => exact .inr (.inr ⟨low, high, apart⟩)
  · rintro (h | ⟨low, high, apart⟩ | ⟨low, high, apart⟩)
    · exact Char.toNat_inj.mp h ▸ .same a
    · exact .capital low high apart
    · exact .small low high apart

theorem toNat_toLower (c : Char) :
    c.toLower.toNat = if 65 ≤ c.toNat ∧ c.toNat ≤ 90 then c.toNat + 32 else c.toNat := by
  unfold Char.toLower
  split
  · rename_i h
    have hhigh : c.toNat ≤ 90 := h.2
    rw [if_pos ⟨h.1, hhigh⟩]
    have hsum : (c.val + ('a'.val - 'A'.val)).toNat = (c.toNat + 32) % 2 ^ 32 :=
      UInt32.toNat_add ..
    exact hsum.trans (Nat.mod_eq_of_lt (by omega))
  · rename_i h
    exact (if_neg fun hcapital => h ⟨hcapital.1, hcapital.2⟩).symm

theorem toNat_toUpper (c : Char) :
    c.toUpper.toNat = if 97 ≤ c.toNat ∧ c.toNat ≤ 122 then c.toNat - 32 else c.toNat := by
  unfold Char.toUpper
  split
  · rename_i h
    have hlow : 97 ≤ c.toNat := h.1
    have hhigh : c.toNat ≤ 122 := h.2
    rw [if_pos ⟨hlow, hhigh⟩]
    -- The distance between the cases is negative, so that the sum wraps.
    have hsum : (c.val + ('A'.val - 'a'.val)).toNat = (c.toNat + 4294967264) % 2 ^ 32 :=
      UInt32.toNat_add ..
    refine hsum.trans ?_
    omega
  · rename_i h
    exact (if_neg fun hsmall => h ⟨hsmall.1, hsmall.2⟩).symm

theorem toLower_eq_iff : a.toLower = b.toLower ↔ SameLetter a b := by
  rw [← Char.toNat_inj, toNat_toLower, toNat_toLower, sameLetter_iff]
  split <;> split <;> omega

theorem toUpper_eq_iff : a.toUpper = b.toUpper ↔ SameLetter a b := by
  rw [← Char.toNat_inj, toNat_toUpper, toNat_toUpper, sameLetter_iff]
  split <;> split <;> omega

theorem map_eq_map_iff {f : Char → Char} (hf : ∀ {a b}, f a = f b ↔ SameLetter a b) :
    as.map f = bs.map f ↔ SameButCase as bs := by
  rw [← List.forall₂_eq_eq_eq, List.forall₂_map_left_iff, List.forall₂_map_right_iff]
  simp only [hf]
  rfl

theorem map_toLower_eq_iff : as.map Char.toLower = bs.map Char.toLower ↔ SameButCase as bs :=
  map_eq_map_iff toLower_eq_iff

theorem map_toUpper_eq_iff : as.map Char.toUpper = bs.map Char.toUpper ↔ SameButCase as bs :=
  map_eq_map_iff toUpper_eq_iff

theorem SameLetter.trans (h : SameLetter a b) (h' : SameLetter b c) : SameLetter a c :=
  toLower_eq_iff.mp ((toLower_eq_iff.mpr h).trans (toLower_eq_iff.mpr h'))

theorem SameLetter.symm (h : SameLetter a b) : SameLetter b a :=
  toLower_eq_iff.mp (toLower_eq_iff.mpr h).symm

/-! ## Digits -/

/-- A digit of the radix in either case, as numbers are printed with it. -/
structure IsDigit (radix : Nat) (c : Char) (d : Nat) : Prop where
  below : d < radix
  printed : SameLetter c d.digitChar

/-- One or more digits, the value of each before it counted up by the radix. -/
inductive Digits (radix : Nat) : List Char → Nat → Prop
  | one {c : Char} {d : Nat} (digit : IsDigit radix c d) : Digits radix [c] d
  | more {cs : List Char} {n : Nat} {c : Char} {d : Nat} (before : Digits radix cs n)
      (digit : IsDigit radix c d) : Digits radix (cs ++ [c]) (n * radix + d)

/-- A numeral: digits, with or without a plus sign before them. -/
inductive Spells (radix : Nat) : List Char → Nat → Prop
  | bare {cs : List Char} {n : Nat} (digits : Digits radix cs n) : Spells radix cs n
  | signed {cs : List Char} {n : Nat} (digits : Digits radix cs n) : Spells radix ('+' :: cs) n

variable {radix max d n : Nat}

theorem toNat_digitChar (h : d < 16) :
    d.digitChar.toNat = if d < 10 then 48 + d else 87 + d := by
  have hall : ∀ d < 16, d.digitChar.toNat = if d < 10 then 48 + d else 87 + d := by decide
  exact hall d h

theorem sameLetter_digitChar_iff (h : d < 16) : SameLetter c d.digitChar ↔
    d < 10 ∧ c.toNat = 48 + d ∨ 10 ≤ d ∧ (c.toNat = 87 + d ∨ c.toNat = 55 + d) := by
  rw [sameLetter_iff, toNat_digitChar h]
  split <;> omega

theorem digitValue?_eq_some_iff :
    digitValue? c = some d ↔ d < 16 ∧ SameLetter c d.digitChar := by
  have hdigit : '0' ≤ c ∧ c ≤ '9' ↔ 48 ≤ c.toNat ∧ c.toNat ≤ 57 := Iff.rfl
  have hsmall : 'a' ≤ c ∧ c ≤ 'f' ↔ 97 ≤ c.toNat ∧ c.toNat ≤ 102 := Iff.rfl
  have hcapital : 'A' ≤ c ∧ c ≤ 'F' ↔ 65 ≤ c.toNat ∧ c.toNat ≤ 70 := Iff.rfl
  rw [and_congr_right sameLetter_digitChar_iff, digitValue?]
  simp only [hdigit, hsmall, hcapital]
  split
  · rw [Option.some.injEq]
    omega
  · split
    · rw [Option.some.injEq]
      omega
    · split
      · rw [Option.some.injEq]
        omega
      · exact iff_of_false (Option.some_ne_none d).symm (by omega)

theorem digitIn?_eq_some_iff (h : radix ≤ 16) :
    digitIn? radix c = some d ↔ IsDigit radix c d := by
  rw [digitIn?, Option.filter_eq_some_iff, digitValue?_eq_some_iff, decide_eq_true_eq]
  exact ⟨fun ⟨⟨_, hprinted⟩, hbelow⟩ => ⟨hbelow, hprinted⟩,
    fun hdigit => ⟨⟨Nat.lt_of_lt_of_le hdigit.below h, hdigit.printed⟩, hdigit.below⟩⟩

theorem IsDigit.toNat_decimal (h : IsDigit 10 c d) : c.toNat = 48 + d := by
  have hbelow := h.below
  have := (sameLetter_digitChar_iff (by omega)).mp h.printed
  omega

theorem IsDigit.toNat_cases (h : IsDigit radix c d) (hradix : radix ≤ 16) :
    48 ≤ c.toNat ∧ c.toNat ≤ 57 ∨ 65 ≤ c.toNat ∧ c.toNat ≤ 70 ∨
      97 ≤ c.toNat ∧ c.toNat ≤ 102 := by
  have hbelow := h.below
  have := (sameLetter_digitChar_iff (by omega)).mp h.printed
  omega

theorem Digits.ne_nil (h : Digits radix cs n) : cs ≠ [] := by
  cases h with
  | one => exact List.cons_ne_nil _ _
  | more => simp

/-- No other characters are between the digits. -/
theorem Digits.isDigit (h : Digits radix cs n) : ∀ c ∈ cs, ∃ d, IsDigit radix c d := by
  induction h with
  | one digit => exact List.forall_mem_singleton.mpr ⟨_, digit⟩
  | more before digit ih =>
    exact List.forall_mem_append.mpr ⟨ih, List.forall_mem_singleton.mpr ⟨_, digit⟩⟩

/-! ## The grammar and the reader -/

theorem readDigits_cons_eq_ok_iff (hradix : radix ≤ 16) {value : Nat} :
    readDigits radix max value (c :: cs) = .ok n ↔
      ∃ d, IsDigit radix c d ∧ value * radix + d ≤ max ∧
        readDigits radix max (value * radix + d) cs = .ok n := by
  simp only [← digitIn?_eq_some_iff hradix]
  rw [readDigits]
  cases digitIn? radix c with
  | none => exact iff_of_false nofun nofun
  | some d =>
    dsimp only
    split
    · rename_i hfits
      exact ⟨fun h => ⟨d, rfl, hfits, h⟩, fun ⟨_, hd, _, h⟩ => Option.some.inj hd ▸ h⟩
    · rename_i hlarge
      exact iff_of_false nofun fun ⟨_, hd, hfits, _⟩ => hlarge (Option.some.inj hd ▸ hfits)

/-- Digits come to the number that they spell, before others are read on top of it. -/
theorem readDigits_append (hradix : radix ≤ 16) {before : List Char} {value : Nat}
    (h : Digits radix before value) (hvalue : value ≤ max)
    (hread : readDigits radix max value cs = .ok n) :
    readDigits radix max 0 (before ++ cs) = .ok n := by
  induction h generalizing cs with
  | @one c d digit =>
    have hd : 0 * radix + d = d := by omega
    refine (readDigits_cons_eq_ok_iff hradix).mpr ⟨d, digit, ?_, ?_⟩
    · rwa [hd]
    · rwa [hd]
  | @more before m c d earlier digit ih =>
    have hm : m ≤ m * radix := Nat.le_mul_of_pos_right m (Nat.zero_lt_of_lt digit.below)
    rw [List.append_assoc]
    exact ih (by omega) ((readDigits_cons_eq_ok_iff hradix).mpr ⟨d, digit, hvalue, hread⟩)

/-- What is read on top of a number continues its digits. -/
theorem digits_of_readDigits (hradix : radix ≤ 16) {before : List Char} {value : Nat}
    (h : Digits radix before value) (hvalue : value ≤ max)
    (hread : readDigits radix max value cs = .ok n) : Digits radix (before ++ cs) n ∧ n ≤ max := by
  induction cs generalizing before value with
  | nil =>
    cases hread
    exact ⟨(List.append_nil before).symm ▸ h, hvalue⟩
  | cons c rest ih =>
    obtain ⟨d, digit, hfits, hlater⟩ := (readDigits_cons_eq_ok_iff hradix).mp hread
    have hdigits := ih (h.more digit) hfits hlater
    rwa [List.append_assoc, List.singleton_append] at hdigits

theorem readDigits_eq_ok_iff (hradix : radix ≤ 16) :
    readDigits radix max 0 (c :: cs) = .ok n ↔ Digits radix (c :: cs) n ∧ n ≤ max := by
  constructor
  · intro hread
    obtain ⟨d, digit, hfits, hlater⟩ := (readDigits_cons_eq_ok_iff hradix).mp hread
    have hd : 0 * radix + d = d := by omega
    rw [hd] at hfits hlater
    exact digits_of_readDigits hradix (.one digit) hfits hlater
  · rintro ⟨hdigits, hn⟩
    have hread := readDigits_append hradix hdigits hn (rfl : readDigits radix max n [] = .ok n)
    rwa [List.append_nil] at hread

theorem not_digits_plus (hradix : radix ≤ 16) (rest : List Char) :
    ¬ Digits radix ('+' :: rest) n := by
  intro h
  obtain ⟨d, hd⟩ := h.isDigit '+' List.mem_cons_self
  have hplus : '+'.toNat = 43 := rfl
  have := hd.toNat_cases hradix
  omega

/-- Exactly the numerals within the bound are read, each as the number that it spells. -/
theorem readNumeral_eq_ok_iff (hradix : radix ≤ 16) :
    readNumeral radix max cs = .ok n ↔ Spells radix cs n ∧ n ≤ max := by
  unfold readNumeral
  split
  case h_1 =>
    refine iff_of_false nofun ?_
    rintro ⟨h, -⟩
    cases h with
    | bare digits => exact digits.ne_nil rfl
  case h_2 c rest =>
    rw [readDigits_eq_ok_iff hradix]
    refine and_congr_left fun _ => ⟨.signed, fun h => ?_⟩
    cases h with
    | bare digits => exact absurd digits (not_digits_plus hradix _)
    | signed digits => exact digits
  case h_3 hempty hplus =>
    obtain ⟨c, rest, rfl⟩ := List.exists_cons_of_ne_nil hempty
    rw [readDigits_eq_ok_iff hradix]
    refine and_congr_left fun _ => ⟨.bare, fun h => ?_⟩
    cases h with
    | bare digits => exact digits
    | signed digits =>
      obtain ⟨c, rest, rfl⟩ := List.exists_cons_of_ne_nil digits.ne_nil
      exact absurd rfl (hplus c rest)

theorem Spells.head (h : Spells 10 cs n) : ∃ c ∈ cs.head?, c.toNat ≤ 57 := by
  cases h with
  | bare digits =>
    obtain ⟨c, rest, rfl⟩ := List.exists_cons_of_ne_nil digits.ne_nil
    obtain ⟨d, hd⟩ := digits.isDigit c List.mem_cons_self
    have hbelow := hd.below
    exact ⟨c, rfl, by rw [hd.toNat_decimal]; omega⟩
  | signed digits => exact ⟨'+', rfl, by decide⟩

/-- No number is a name, as names begin with a letter. -/
theorem not_sameButCase_of_spells (h : Spells 10 cs n) {name : List Char}
    (hletter : ∀ c ∈ name.head?, 65 ≤ c.toNat) : ¬ SameButCase cs name := by
  intro hname
  obtain ⟨c, hc, hlow⟩ := h.head
  cases hname with
  | nil => cases hc
  | cons hfirst _ =>
    cases hc
    have := hletter _ rfl
    have := sameLetter_iff.mp hfirst
    omega

/-! ## Printed numbers -/

theorem SameButCase.symm (h : SameButCase as bs) : SameButCase bs as :=
  map_toLower_eq_iff.mp (map_toLower_eq_iff.mpr h).symm

theorem IsDigit.of_sameLetter (h : IsDigit radix b d) (hab : SameLetter a b) :
    IsDigit radix a d := ⟨h.below, hab.trans h.printed⟩

theorem forall₂_concat_iff {α β : Type} {R : α → β → Prop} {l : List α} {x : α} {u : List β} :
    List.Forall₂ R (l ++ [x]) u ↔ ∃ v y, List.Forall₂ R l v ∧ R x y ∧ u = v ++ [y] := by
  rw [← List.forall₂_reverse_iff, List.reverse_append, List.reverse_singleton,
    List.singleton_append, List.forall₂_cons_left_iff]
  constructor
  · rintro ⟨y, v, hxy, hl, hu⟩
    refine ⟨v.reverse, y, ?_, hxy, ?_⟩
    · rwa [← List.forall₂_reverse_iff, List.reverse_reverse]
    · rw [← List.reverse_cons, ← hu, List.reverse_reverse]
  · rintro ⟨v, y, hl, hxy, rfl⟩
    exact ⟨y, v.reverse, hxy, List.forall₂_reverse_iff.mpr hl, by simp⟩

/-- The case of the digits does not matter. -/
theorem Digits.of_sameButCase (h : Digits radix bs n) (hab : SameButCase as bs) :
    Digits radix as n := by
  have hba := hab.symm
  clear hab
  induction h generalizing as with
  | one digit =>
    cases hba with
    | cons hletter hnil =>
      cases hnil
      exact .one (digit.of_sameLetter hletter.symm)
  | more before digit ih =>
    obtain ⟨earlier, a, hearlier, hletter, rfl⟩ := forall₂_concat_iff.mp hba
    exact .more (ih hearlier) (digit.of_sameLetter hletter.symm)

/-- Zeros in front do not matter. -/
theorem Digits.zero_cons (h : Digits radix cs n) (hradix : 0 < radix) :
    Digits radix ('0' :: cs) n := by
  induction h with
  | one digit =>
    have hzero : Digits radix ['0'] 0 := .one ⟨hradix, .same '0'⟩
    simpa using hzero.more digit
  | more before digit ih => exact .more ih digit

theorem Digits.zeros_append (h : Digits radix cs n) (hradix : 0 < radix) (zeros : Nat) :
    Digits radix (List.replicate zeros '0' ++ cs) n := by
  induction zeros with
  | zero => exact h
  | succ zeros ih => exact ih.zero_cons hradix

/-- A printed number is read back. -/
theorem digits_toDigits (hradix : 1 < radix) (n : Nat) : Digits radix (Nat.toDigits radix n) n := by
  induction n using Nat.strongRecOn with
  | ind n ih =>
    have hlast : IsDigit radix (n % radix).digitChar (n % radix) :=
      ⟨Nat.mod_lt n (by omega), .same _⟩
    by_cases hn : n < radix
    · rw [Nat.mod_eq_of_lt hn] at hlast
      rw [Nat.toDigits_of_lt_base hn]
      exact .one hlast
    · have hquotient : 0 < n / radix := Nat.div_pos (by omega) (by omega)
      have hsplit : radix * (n / radix) + n % radix = n := Nat.div_add_mod ..
      have hprinted := Nat.toDigits_append_toDigits hradix hquotient hlast.below
      rw [Nat.toDigits_of_lt_base hlast.below, hsplit] at hprinted
      have hvalue : n = n / radix * radix + n % radix := by rw [Nat.mul_comm, hsplit]
      rw [← hprinted]
      nth_rewrite 3 [hvalue]
      exact .more (ih _ (Nat.div_lt_self (by omega) hradix)) hlast

end Doip.Text
