import Doip.Cli.Values
import Doip.Proofs.Text.Spelling
import Doip.Proofs.Text.Trimming
import Mathlib.Algebra.Group.Nat.Even

/-! # What the values on the command line are read as

Addresses and levels are numerals behind their marks (`AddressText`, `LevelText`), and payloads are
pairs of digits with blanks between any of them (`Written`, `Spaced`). What is no such text is
refused, and so is a number that is too great. -/
namespace Doip.Cli
open Text

variable {a b c : Char} {cs digits rest : List Char} {n radix : Nat} {s : String}

/-! ## Marks before a number -/

/-- The two characters, again and again. -/
def pairs (a b : Char) (count : Nat) : List Char := (List.replicate count [a, b]).flatten

theorem pairs_succ_append (a b : Char) (count : Nat) (cs : List Char) :
    pairs a b (count + 1) ++ cs = a :: b :: (pairs a b count ++ cs) := by
  rw [pairs, List.replicate_succ, List.flatten_cons]
  rfl

theorem exists_pairs_append (a b : Char) (cs : List Char) :
    ∃ count, cs = pairs a b count ++ dropPairs a b cs := by
  fun_induction dropPairs a b cs with
  | case1 x y rest hpair ih =>
    obtain ⟨rfl, rfl⟩ := hpair
    obtain ⟨count, hcount⟩ := ih
    exact ⟨count + 1, by rw [pairs_succ_append, ← hcount]⟩
  | case2 x y rest hother => exact ⟨0, rfl⟩
  | case3 cs hshort => exact ⟨0, rfl⟩

theorem dropPairs_of_unmarked (h : ∀ rest, cs ≠ a :: b :: rest) : dropPairs a b cs = cs := by
  unfold dropPairs
  split
  · rename_i x y rest
    exact if_neg fun hpair => h rest (by rw [hpair.1, hpair.2])
  · rfl

theorem dropPairs_pairs_append (h : ∀ rest, cs ≠ a :: b :: rest) (count : Nat) :
    dropPairs a b (pairs a b count ++ cs) = cs := by
  induction count with
  | zero => exact dropPairs_of_unmarked h
  | succ count ih =>
    rw [pairs_succ_append, dropPairs, if_pos ⟨rfl, rfl⟩]
    exact ih

/-- The text of an address: any number of `0x`, any number of `0X` after them, and a numeral. -/
inductive AddressText : List Char → Nat → Prop
  | intro (small capital : Nat) {cs : List Char} {n : Nat} (numeral : Spells 16 cs n) :
      AddressText (pairs '0' 'x' small ++ (pairs '0' 'X' capital ++ cs)) n

/-- The text of a level: a hexadecimal numeral after one mark, or a decimal one without a mark. -/
inductive LevelText : List Char → Nat → Prop
  | small {cs : List Char} {n : Nat} (numeral : Spells 16 cs n) : LevelText ('0' :: 'x' :: cs) n
  | capital {cs : List Char} {n : Nat} (numeral : Spells 16 cs n) : LevelText ('0' :: 'X' :: cs) n
  | decimal {cs : List Char} {n : Nat} (numeral : Spells 10 cs n) : LevelText cs n

/-! ## Addresses and levels -/

theorem mem_of_spells (h : Spells radix cs n) : ∀ c ∈ cs, c = '+' ∨ ∃ d, IsDigit radix c d := by
  cases h with
  | bare digits => exact fun c hc => .inr (digits.isDigit c hc)
  | signed digits =>
    exact List.forall_mem_cons.mpr ⟨.inl rfl, fun c hc => .inr (digits.isDigit c hc)⟩

/-- No numeral begins with a mark. -/
theorem unmarked_of_spells (h : Spells radix cs n) (hradix : radix ≤ 16) (a : Char) :
    (∀ rest, cs ≠ a :: 'x' :: rest) ∧ ∀ rest, cs ≠ a :: 'X' :: rest := by
  have hletter : ∀ c ∈ cs, c ≠ 'x' ∧ c ≠ 'X' := by
    intro c hc
    rcases mem_of_spells h c hc with rfl | ⟨d, hd⟩
    · decide
    · have hcases := hd.toNat_cases hradix
      constructor
      · rintro rfl
        revert hcases
        decide
      · rintro rfl
        revert hcases
        decide
  constructor
  · rintro rest rfl
    exact (hletter 'x' (by simp)).1 rfl
  · rintro rest rfl
    exact (hletter 'X' (by simp)).2 rfl

theorem spells_addressDigits_iff :
    Spells 16 (addressDigits cs) n ↔ AddressText (trimChars cs) n := by
  unfold addressDigits
  constructor
  · intro h
    obtain ⟨small, hsmall⟩ := exists_pairs_append '0' 'x' (trimChars cs)
    obtain ⟨capital, hcapital⟩ := exists_pairs_append '0' 'X' (dropPairs '0' 'x' (trimChars cs))
    rw [hsmall]
    nth_rewrite 1 [hcapital]
    exact .intro small capital h
  · intro h
    generalize trimChars cs = text at *
    cases h with
    | @intro small capital digits _ numeral =>
      have hunmarked := unmarked_of_spells numeral (by decide) '0'
      -- The small marks end at a capital one or at the numeral, which begins with neither.
      have hother : ∀ rest, pairs '0' 'X' capital ++ digits ≠ '0' :: 'x' :: rest := by
        intro rest
        cases capital with
        | zero => exact hunmarked.1 rest
        | succ capital =>
          rw [pairs_succ_append]
          simp
      rw [dropPairs_pairs_append hother, dropPairs_pairs_append hunmarked.2]
      exact numeral

theorem readLevel_eq_ok_iff : readLevel cs = .ok n ↔ LevelText cs n ∧ n ≤ 255 := by
  -- The grammars do not overlap: behind a mark there is no decimal numeral.
  have hmarked : ∀ {radix : Nat} {c : Char} {digits : List Char}, radix ≤ 16 → c = 'x' ∨ c = 'X' →
      ¬ Spells radix ('0' :: c :: digits) n := by
    intro radix c digits hradix hmark h
    have hunmarked := unmarked_of_spells h hradix '0'
    rcases hmark with rfl | rfl
    · exact hunmarked.1 digits rfl
    · exact hunmarked.2 digits rfl
  unfold readLevel
  split
  · rw [readNumeral_eq_ok_iff (by decide)]
    refine and_congr_left fun _ => ⟨.small, fun h => ?_⟩
    cases h with
    | small numeral => exact numeral
    | decimal numeral => exact absurd numeral (hmarked (by decide) (.inl rfl))
  · rw [readNumeral_eq_ok_iff (by decide)]
    refine and_congr_left fun _ => ⟨.capital, fun h => ?_⟩
    cases h with
    | capital numeral => exact numeral
    | decimal numeral => exact absurd numeral (hmarked (by decide) (.inr rfl))
  · rename_i hsmall hcapital
    rw [readNumeral_eq_ok_iff (by decide)]
    refine and_congr_left fun _ => ⟨.decimal, fun h => ?_⟩
    cases h with
    | small numeral => exact absurd rfl (hsmall _)
    | capital numeral => exact absurd rfl (hcapital _)
    | decimal numeral => exact numeral

/-- A bounded number in a type that holds the numbers up to the bound. -/
theorem held_eq_ok_iff {α : Type} {ofNat : Nat → α} {toNat : α → Nat} {max : Nat}
    (hold : ∀ n ≤ max, toNat (ofNat n) = n) (held : ∀ v, ofNat (toNat v) = v)
    {report : NumeralError → String} {v : α} (read : Except NumeralError Nat) :
    (∀ n, read = .ok n → n ≤ max) →
      ((match read with
        | .ok n => .ok (ofNat n)
        | .error e => .error (report e) : Except String α) = .ok v ↔ read = .ok (toNat v)) := by
  intro bounded
  cases read with
  | error e => exact iff_of_false nofun nofun
  | ok n =>
    rw [Except.ok.injEq, Except.ok.injEq]
    constructor
    · rintro rfl
      exact (hold n (bounded n rfl)).symm
    · rintro rfl
      exact held v

theorem parseAddress_eq_ok_iff {v : UInt16} :
    parseAddress s = .ok v ↔ AddressText (trimChars s.toList) v.toNat := by
  have hread : ∀ n, readNumeral 16 65535 (addressDigits s.toList) = .ok n ↔
      AddressText (trimChars s.toList) n ∧ n ≤ 65535 := by
    intro n
    rw [readNumeral_eq_ok_iff (by decide), spells_addressDigits_iff]
  have hmax : v.toNat ≤ 65535 := Nat.le_of_lt_succ v.toNat_lt
  refine Iff.trans ?_ ((hread _).trans (and_iff_left hmax))
  exact held_eq_ok_iff (fun n hn => UInt16.toNat_ofNat_of_lt' (Nat.lt_succ_of_le hn))
    (fun v => UInt16.ofNat_toNat) _ (fun n hn => ((hread n).mp hn).2)

theorem parseLevel_eq_ok_iff {v : UInt8} :
    parseLevel s = .ok v ↔ LevelText (trimChars s.toList) v.toNat := by
  have hmax : v.toNat ≤ 255 := Nat.le_of_lt_succ v.toNat_lt
  refine Iff.trans ?_ (readLevel_eq_ok_iff.trans (and_iff_left hmax))
  exact held_eq_ok_iff (fun n hn => UInt8.toNat_ofNat_of_lt' (Nat.lt_succ_of_le hn))
    (fun v => UInt8.ofNat_toNat) _ (fun n hn => (readLevel_eq_ok_iff.mp hn).2)

theorem isBlank_of_isDigit {d : Nat} (h : IsDigit 16 c d) : isBlank c = false := by
  have hcases := h.toNat_cases (by decide)
  simp only [isBlank, Bool.or_eq_false_iff, Bool.and_eq_false_iff, decide_eq_false_iff_not,
    beq_eq_false_iff_ne]
  omega

theorem trimChars_of_solid (h : ∀ c ∈ cs, isBlank c = false) : trimChars cs = cs :=
  trimChars_eq_iff.mpr ⟨⟨[], [], by simp, nofun, nofun⟩,
    fun c hc => h c (List.mem_of_mem_head? hc), fun c hc => h c (List.mem_of_mem_getLast? hc)⟩

/-- A reader of numbers up to `max` takes the texts of its grammar and no others, whatever blanks
are around them, and takes the numbers as they are printed. -/
structure ReadsExactly {α : Type} (toNat : α → Nat) (max : Nat) (Grammar : List Char → Nat → Prop)
    (parse : String → Except String α) : Prop where
  accepts : ∀ s v, parse s = .ok v ↔ ∃ text, Trimmed s.toList text ∧ Grammar text (toNat v)
  rejects : ∀ s, (∃ report, parse s = .error report) ↔
    ∀ text n, Trimmed s.toList text → Grammar text n → max < n
  printed : ∀ v zeros text,
    SameButCase text.toList (List.replicate zeros '0' ++ Nat.toDigits 16 (toNat v)) →
      parse ("0x" ++ text) = .ok v

theorem trimChars_marked (h : Digits 16 cs n) :
    trimChars ('0' :: 'x' :: cs) = '0' :: 'x' :: cs := by
  refine trimChars_of_solid
    (List.forall_mem_cons.mpr ⟨rfl, List.forall_mem_cons.mpr ⟨rfl, fun c hc => ?_⟩⟩)
  obtain ⟨d, hd⟩ := h.isDigit c hc
  exact isBlank_of_isDigit hd

theorem readsExactly_of_iff {α : Type} {toNat : α → Nat} {max : Nat}
    {Grammar : List Char → Nat → Prop} {parse : String → Except String α}
    (hparse : ∀ s v, parse s = .ok v ↔ Grammar (trimChars s.toList) (toNat v))
    (hrange : ∀ n, n ≤ max ↔ ∃ v, toNat v = n)
    (hmarked : ∀ {digits n}, Digits 16 digits n → Grammar ('0' :: 'x' :: digits) n) :
    ReadsExactly toNat max Grammar parse where
  accepts s v := by
    simp only [← trimChars_eq_iff, exists_eq_left']
    exact hparse s v
  rejects s := by
    simp only [← trimChars_eq_iff]
    constructor
    · rintro ⟨report, hreport⟩ text n rfl hn
      refine Nat.lt_of_not_le fun hle => ?_
      obtain ⟨v, rfl⟩ := (hrange n).mp hle
      rw [(hparse s v).mpr hn] at hreport
      cases hreport
    · intro h
      cases hs : parse s with
      | error report => exact ⟨report, rfl⟩
      | ok v =>
        have hgreat := h _ _ rfl ((hparse s v).mp hs)
        have hle := (hrange (toNat v)).mpr ⟨v, rfl⟩
        omega
  printed v zeros text hsame := by
    have hprinted : Digits 16 (List.replicate zeros '0' ++ Nat.toDigits 16 (toNat v)) (toNat v) :=
      (digits_toDigits (by decide) (toNat v)).zeros_append (by decide) zeros
    have hdigits := hprinted.of_sameButCase hsame
    rw [hparse, String.toList_append]
    exact trimChars_marked hdigits ▸ hmarked hdigits

/-- Addresses and levels are read exactly, and what is greater than they can be does not wrap. -/
theorem numbers_read_exactly :
    ReadsExactly UInt16.toNat 65535 AddressText parseAddress ∧
      ReadsExactly UInt8.toNat 255 LevelText parseLevel := by
  constructor
  · refine readsExactly_of_iff (fun _ _ => parseAddress_eq_ok_iff) (fun n => ?_)
      fun digits => .intro 1 0 (.bare digits)
    exact ⟨fun hn => ⟨.ofNat n, UInt16.toNat_ofNat_of_lt' (Nat.lt_succ_of_le hn)⟩,
      fun ⟨v, hv⟩ => hv ▸ Nat.le_of_lt_succ v.toNat_lt⟩
  · refine readsExactly_of_iff (fun _ _ => parseLevel_eq_ok_iff) (fun n => ?_)
      fun digits => .small (.bare digits)
    exact ⟨fun hn => ⟨.ofNat n, UInt8.toNat_ofNat_of_lt' (Nat.lt_succ_of_le hn)⟩,
      fun ⟨v, hv⟩ => hv ▸ Nat.le_of_lt_succ v.toNat_lt⟩

/-! ## Payloads -/

/-- Two digits for each octet, the upper four bits first. -/
inductive Written : Octets → List Char → Prop
  | nil : Written [] []
  | cons {b : UInt8} {octets : Octets} {upper lower : Char} {cs : List Char}
      (first : IsDigit 16 upper (b.toNat / 16)) (second : IsDigit 16 lower (b.toNat % 16))
      (others : Written octets cs) : Written (b :: octets) (upper :: lower :: cs)

/-- The characters `cs` with blanks before, between and behind them. -/
inductive Spaced : List Char → List Char → Prop
  | nil : Spaced [] []
  | solid {c : Char} {cs text : List Char} (solid : isBlank c = false) (others : Spaced cs text) :
      Spaced (c :: cs) (c :: text)
  | blank {c : Char} {cs text : List Char} (blank : isBlank c = true) (others : Spaced cs text) :
      Spaced cs (c :: text)

variable {octets : Octets} {text : List Char}

theorem spaced_iff : Spaced cs text ↔ text.filter (fun c => !isBlank c) = cs := by
  constructor
  · intro h
    induction h with
    | nil => rfl
    | solid solid _ ih => rw [List.filter_cons_of_pos (by simp [solid]), ih]
    | blank blank _ ih => rw [List.filter_cons_of_neg (by simp [blank]), ih]
  · rintro rfl
    induction text with
    | nil => exact .nil
    | cons c text ih =>
      cases hc : isBlank c with
      | false =>
        rw [List.filter_cons_of_pos (by simp [hc])]
        exact .solid hc ih
      | true =>
        rw [List.filter_cons_of_neg (by simp [hc])]
        exact .blank hc ih

theorem isDigit_sixteen_iff {d : Nat} : IsDigit 16 c d ↔ digitValue? c = some d := by
  rw [digitValue?_eq_some_iff]
  exact ⟨fun h => ⟨h.below, h.printed⟩, fun h => ⟨h.1, h.2⟩⟩

/-- The octet of two digits. -/
theorem written_digits {x y : Nat} (ha : IsDigit 16 a x) (hb : IsDigit 16 b y)
    (others : Written octets cs) : Written (UInt8.ofNat (x * 16 + y) :: octets) (a :: b :: cs) := by
  have hx := ha.below
  have hy := hb.below
  have hvalue : (UInt8.ofNat (x * 16 + y)).toNat = x * 16 + y := by
    rw [UInt8.toNat_ofNat']
    omega
  refine .cons ?_ ?_ others
  · rwa [hvalue, show (x * 16 + y) / 16 = x by omega]
  · rwa [hvalue, show (x * 16 + y) % 16 = y by omega]

theorem readPairs_of_written (h : Written octets cs) (position : Nat) :
    Hex.readPairs position cs = .ok octets := by
  induction h generalizing position with
  | nil => rfl
  | @cons b _ _ _ _ first second _ ih =>
    rw [Hex.readPairs, isDigit_sixteen_iff.mp first, isDigit_sixteen_iff.mp second]
    dsimp only
    rw [ih, show b.toNat / 16 * 16 + b.toNat % 16 = b.toNat by omega, UInt8.ofNat_toNat]

theorem written_of_readPairs {position : Nat} (h : Hex.readPairs position cs = .ok octets) :
    Written octets cs := by
  fun_induction Hex.readPairs position cs generalizing octets with
  | case1 => cases h; exact .nil
  | case2 => cases h
  | case3 => cases h
  | case4 => cases h
  | case5 => cases h
  | case6 => cases h
  | case7 position a b rest x hx y hy octets hread ih =>
    cases h
    exact written_digits (isDigit_sixteen_iff.mpr hx) (isDigit_sixteen_iff.mpr hy) (ih hread)

theorem utf8Length_cons (c : Char) (cs : List Char) :
    Hex.utf8Length (c :: cs) = c.utf8Size + Hex.utf8Length cs := by
  have hshift : ∀ (cs : List Char) (n : Nat),
      cs.foldl (fun n c => n + c.utf8Size) n = n + Hex.utf8Length cs := by
    intro cs
    induction cs with
    | nil => exact fun n => rfl
    | cons c cs ih =>
      intro n
      have hrest : Hex.utf8Length (c :: cs) = 0 + c.utf8Size + Hex.utf8Length cs :=
        ih (0 + c.utf8Size)
      rw [List.foldl_cons, ih, hrest, Nat.zero_add, Nat.add_assoc]
  rw [Hex.utf8Length, List.foldl_cons, hshift, Nat.zero_add]

theorem utf8Size_of_isDigit {d : Nat} (h : IsDigit 16 c d) : c.utf8Size = 1 := by
  have hcases := h.toNat_cases (by decide)
  have hascii : c.toNat ≤ 127 := by omega
  exact Char.utf8Size_eq_one_iff.mpr hascii

theorem utf8Length_of_written (h : Written octets cs) :
    Hex.utf8Length cs = 2 * octets.length := by
  induction h with
  | nil => rfl
  | cons first second _ ih =>
    rw [utf8Length_cons, utf8Length_cons, ih, utf8Size_of_isDigit first,
      utf8Size_of_isDigit second, List.length_cons]
    omega

theorem readChars_eq_ok_iff : Hex.readChars cs = .ok octets ↔ Written octets cs := by
  unfold Hex.readChars
  constructor
  · intro h
    split at h
    · cases h
    · exact written_of_readPairs h
  · intro h
    -- Digits take one octet each, so that the length of the text is even in octets as well.
    have hlength := utf8Length_of_written h
    rw [if_neg (by omega), readPairs_of_written h]

theorem Written.isDigit (h : Written octets cs) : ∀ c ∈ cs, ∃ d, IsDigit 16 c d := by
  induction h with
  | nil => exact nofun
  | cons first second _ ih =>
    exact List.forall_mem_cons.mpr ⟨⟨_, first⟩, List.forall_mem_cons.mpr ⟨⟨_, second⟩, ih⟩⟩

theorem Written.length_eq (h : Written octets cs) : cs.length = 2 * octets.length := by
  induction h with
  | nil => rfl
  | cons _ _ _ ih =>
    rw [List.length_cons, List.length_cons, ih, List.length_cons]
    omega

/-- An even number of digits are the digits of octets. -/
theorem exists_written : ∀ {cs : List Char}, Even cs.length →
    (∀ c ∈ cs, ∃ d, IsDigit 16 c d) → ∃ octets, Written octets cs
  | [], _, _ => ⟨[], .nil⟩
  | [_], heven, _ => absurd heven Nat.not_even_one
  | a :: b :: cs, heven, hdigits => by
    obtain ⟨⟨x, hx⟩, hrest⟩ := List.forall_mem_cons.mp hdigits
    obtain ⟨⟨y, hy⟩, hrest⟩ := List.forall_mem_cons.mp hrest
    rw [List.length_cons, List.length_cons, Nat.even_add_one, Nat.even_add_one, not_not] at heven
    obtain ⟨octets, hothers⟩ := exists_written heven hrest
    exact ⟨_, written_digits hx hy hothers⟩

theorem isDigit_iff_lowerDigit {d : Nat} (hd : d < 16) :
    IsDigit 16 c d ↔ SameLetter c (lowerDigit d) := by
  have hsame : ∀ d < 16, lowerDigit d = d.digitChar := by decide
  rw [hsame d hd]
  exact ⟨fun h => h.printed, fun h => ⟨hd, h⟩⟩

/-- The digits of octets are those they are printed with, each in a case of its own. -/
theorem written_iff : Written octets cs ↔ SameButCase cs (Hex.writeLower octets).toList := by
  rw [Hex.writeLower, String.toList_ofList]
  induction octets generalizing cs with
  | nil =>
    rw [Hex.writeChars, List.flatMap_nil, SameButCase, List.forall₂_nil_right_iff]
    exact ⟨fun h => by cases h; rfl, fun h => h ▸ .nil⟩
  | cons b octets ih =>
    have hb := b.toNat_lt
    have hupper {c : Char} := isDigit_iff_lowerDigit (c := c) (show b.toNat / 16 < 16 by omega)
    have hlower {c : Char} := isDigit_iff_lowerDigit (c := c) (show b.toNat % 16 < 16 by omega)
    constructor
    · intro h
      cases h with
      | cons first second others =>
        exact .cons (hupper.mp first) (.cons (hlower.mp second) (ih.mp others))
    · intro h
      cases h with
      | cons first h =>
        cases h with
        | cons second others => exact .cons (hupper.mpr first) (hlower.mpr second) (ih.mpr others)

theorem parseHex_eq_ok_iff : parseHex s = .ok octets ↔
    octets ≠ [] ∧ ∃ digits, Written octets digits ∧ Spaced digits s.toList := by
  simp only [spaced_iff, exists_eq_right']
  rw [← readChars_eq_ok_iff, parseHex]
  cases Hex.readChars (s.toList.filter fun c => !isBlank c) with
  | error cause => exact iff_of_false nofun nofun
  | ok read =>
    rw [Except.ok.injEq]
    cases read with
    | nil =>
      refine iff_of_false nofun ?_
      rintro ⟨hne, rfl⟩
      exact hne rfl
    | cons b rest =>
      dsimp only
      rw [Except.ok.injEq]
      exact (and_iff_right_of_imp fun h => h ▸ List.cons_ne_nil b rest).symm

/-- Octets are read back from their digits, whatever the case of each and whatever blanks are
between any two, and nothing else is read. -/
theorem payload_read_back (s : String) :
    (∀ octets, parseHex s = .ok octets ↔ octets ≠ [] ∧
      ∃ digits, SameButCase digits (Hex.writeLower octets).toList ∧ Spaced digits s.toList) ∧
    ((∃ octets, parseHex s = .ok octets) ↔ ∃ digits, Spaced digits s.toList ∧
      digits ≠ [] ∧ Even digits.length ∧ ∀ c ∈ digits, ∃ d, IsDigit 16 c d) := by
  constructor
  · intro octets
    simp only [← written_iff]
    exact parseHex_eq_ok_iff
  · constructor
    · rintro ⟨octets, h⟩
      obtain ⟨hne, digits, hwritten, hspaced⟩ := parseHex_eq_ok_iff.mp h
      have hlength := hwritten.length_eq
      have hpos := List.length_pos_iff.mpr hne
      refine ⟨digits, hspaced, ?_, ⟨octets.length, by omega⟩, hwritten.isDigit⟩
      rintro rfl
      rw [List.length_nil] at hlength
      omega
    · rintro ⟨digits, hspaced, hne, heven, hdigits⟩
      obtain ⟨octets, hwritten⟩ := exists_written heven hdigits
      refine ⟨octets, parseHex_eq_ok_iff.mpr ⟨?_, digits, hwritten, hspaced⟩⟩
      rintro rfl
      cases hwritten
      exact hne rfl

end Doip.Cli
