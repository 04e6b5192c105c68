import Doip.Time.Seconds
import Mathlib.Algebra.Order.Field.Power
import Mathlib.Algebra.Order.Ring.Rat
import Mathlib.Data.Nat.Cast.Order.Field
import Mathlib.Tactic.FieldSimp
import Mathlib.Tactic.Linarith
import Mathlib.Tactic.NormNum
import Mathlib.Tactic.Positivity
import Mathlib.Tactic.Ring

/-! # Seconds to the nearest nanosecond

What a double stands for is said here as IEEE 754 has it, by a sign, an exponent and a fraction
(`Double.reading`), and what rounding is by the distances to all integers (`NearestEven`). The
duration of a number of seconds is the one nearest to its value, and there is none only for what is
no number from zero to 2^64 (`seconds_converted_exactly`). -/
namespace Doip

/-! ## The nearest integer -/

/-- No integer is nearer to `x` than `n`, and where another one is as near, `n` is even. -/
structure NearestEven (x : ℚ) (n : ℕ) : Prop where
  nearest : ∀ m : ℤ, |x - n| ≤ |x - m|
  even : ∀ m : ℤ, m ≠ n → |x - m| = |x - n| → Even n

variable {x y : ℚ} {a b n : ℕ}

/-- No number is near to two integers. -/
theorem one_le_distances {m k : ℤ} (h : m ≠ k) (x : ℚ) : 1 ≤ |x - m| + |x - k| := by
  have hgap : (1 : ℚ) ≤ |(m : ℚ) - k| := by
    exact_mod_cast Int.one_le_abs (sub_ne_zero.mpr h)
  calc (1 : ℚ) ≤ |(m : ℚ) - k| := hgap
    _ ≤ |(m : ℚ) - x| + |x - k| := abs_sub_le _ _ _
    _ = |x - m| + |x - k| := by rw [abs_sub_comm (m : ℚ) x]

theorem nearestEven_of_half (near : |x - n| ≤ 1 / 2) (tie : |x - n| = 1 / 2 → Even n) :
    NearestEven x n := by
  have hother : ∀ m : ℤ, m ≠ n → 1 - |x - n| ≤ |x - m| := by
    intro m hm
    have := one_le_distances hm x
    rw [Int.cast_natCast] at this
    linarith
  refine ⟨fun m => ?_, fun m hm hsame => tie ?_⟩
  · by_cases hm : m = n
    · rw [hm, Int.cast_natCast]
    · linarith [hother m hm]
  · linarith [hother m hm]

theorem NearestEven.near (h : NearestEven x n) : |x - n| ≤ 1 / 2 := by
  have above := h.nearest (n + 1)
  have below := h.nearest (n - 1)
  push_cast at above below
  by_contra hfar
  rcases lt_abs.mp (not_le.mp hfar) with hlow | hhigh
  · have hless : |x - (n + 1)| < |x - n| := by
      rw [abs_of_pos (by linarith : 0 < x - n)]
      exact abs_lt.mpr ⟨by linarith, by linarith⟩
    exact absurd above (not_le.mpr hless)
  · have hless : |x - (n - 1)| < |x - n| := by
      rw [abs_of_neg (by linarith : x - n < 0)]
      exact abs_lt.mpr ⟨by linarith, by linarith⟩
    exact absurd below (not_le.mpr hless)

/-- A greater number is not rounded to a smaller one. -/
theorem NearestEven.le (ha : NearestEven x a) (hb : NearestEven y b) (h : x ≤ y) : a ≤ b := by
  by_contra hlt
  have hstep : (b : ℚ) + 1 ≤ a := by
    have : b + 1 ≤ a := by omega
    exact_mod_cast this
  have hx := (abs_le.mp ha.near).1
  have hy := (abs_le.mp hb.near).2
  -- Both numbers are the middle between `b` and its successor `a`, one of which is odd.
  have hmiddle : x = b + 1 / 2 := by linarith
  have hsame : x = y := by linarith
  have hnext : a = b + 1 := by
    have : (a : ℚ) = (b + 1 : ℕ) := by
      push_cast
      linarith
    exact_mod_cast this
  subst hsame hnext
  have htie : |x - (b : ℤ)| = |x - (b + 1 : ℕ)| := by
    push_cast
    rw [hmiddle, show (b : ℚ) + 1 / 2 - b = 1 / 2 by ring,
      show (b : ℚ) + 1 / 2 - (b + 1) = -(1 / 2) by ring, abs_neg]
  have hupper : Even (b + 1) := ha.even b (by omega) htie
  have hlower : Even b := by
    refine hb.even (b + 1) (by omega) ?_
    push_cast at htie ⊢
    exact htie.symm
  exact Nat.even_add_one.mp hupper hlower

theorem nearestEven_natCast (n : ℕ) : NearestEven n n :=
  nearestEven_of_half (by norm_num) (by norm_num)

theorem nearestEven_below (above : (n : ℚ) ≤ x) (near : x - n ≤ 1 / 2)
    (tie : x - n = 1 / 2 → Even n) : NearestEven x n := by
  have hdist : |x - n| = x - n := abs_of_nonneg (sub_nonneg.mpr above)
  exact nearestEven_of_half (hdist.trans_le near) fun h => tie (hdist.symm.trans h)

theorem nearestEven_above (below : x ≤ n + 1) (near : 1 / 2 ≤ x - n)
    (tie : x - n = 1 / 2 → ¬ Even n) : NearestEven x (n + 1) := by
  have hdist : |x - (n + 1 : ℕ)| = 1 - (x - n) := by
    push_cast
    rw [abs_of_nonpos (by linarith)]
    ring
  refine nearestEven_of_half (by linarith) fun h => Nat.even_add_one.mpr (tie ?_)
  linarith

theorem nearestEven_roundHalfEven (numerator : ℕ) {denominator : ℕ} (h : 0 < denominator) :
    NearestEven ((numerator : ℚ) / denominator) (roundHalfEven numerator denominator) := by
  have hden : (0 : ℚ) < denominator := by exact_mod_cast h
  have hrest := Nat.mod_lt numerator h
  have hpart : (numerator : ℚ) / denominator =
      (numerator / denominator : ℕ) + (numerator % denominator : ℕ) / denominator := by
    rw [← mul_right_inj' hden.ne', mul_add, mul_div_cancel₀ _ hden.ne', mul_div_cancel₀ _ hden.ne']
    exact_mod_cast (Nat.div_add_mod numerator denominator).symm
  unfold roundHalfEven
  generalize numerator / denominator = q at *
  generalize numerator % denominator = r at *
  have hless : (r : ℚ) / denominator < 1 / 2 ↔ 2 * r < denominator := by
    rw [div_lt_div_iff₀ hden two_pos, one_mul, mul_comm]
    exact_mod_cast Iff.rfl
  have hmore : 1 / 2 < (r : ℚ) / denominator ↔ denominator < 2 * r := by
    rw [div_lt_div_iff₀ two_pos hden, one_mul, mul_comm]
    exact_mod_cast Iff.rfl
  have hlow : (0 : ℚ) ≤ r / denominator := by positivity
  have hhigh : (r : ℚ) / denominator < 1 := (div_lt_one hden).mpr (by exact_mod_cast hrest)
  rw [hpart]
  generalize (r : ℚ) / denominator = part at *
  dsimp only
  split
  case isTrue hbelow =>
    have := hless.mpr hbelow
    exact nearestEven_below (by linarith) (by linarith) fun h => by linarith
  case isFalse hnotbelow =>
    have := not_lt.mp (mt hless.mp hnotbelow)
    split
    case isTrue habove =>
      have := hmore.mpr habove
      exact nearestEven_above (by linarith) (by linarith) fun h => by linarith
    case isFalse hnotabove =>
      have := not_lt.mp (mt hmore.mp hnotabove)
      split
      case isTrue heven =>
        exact nearestEven_below (by linarith) (by linarith) fun _ => Nat.even_iff.mpr heven
      case isFalse hodd =>
        exact nearestEven_above (by linarith) (by linarith) fun _ heven =>
          hodd (Nat.even_iff.mp heven)

/-! ## What a double stands for -/

namespace Double

/-- What stands behind the bits of a double. -/
inductive Reading where
  | nan
  | infinite
  | finite (value : ℚ)

variable (bits : UInt64)

/-- The eleven bits of the exponent, as they are written. -/
def exponentField : ℕ := (bits.toBitVec.extractLsb' 52 11).toNat

/-- The fifty-two bits of the fraction, as they are written. -/
def fractionField : ℕ := (bits.toBitVec.extractLsb' 0 52).toNat

/-- The number without its sign. The least exponent has no leading one before the fraction. -/
def magnitude : ℚ :=
  if exponentField bits = 0 then 2 ^ (-1022 : ℤ) * (fractionField bits / 2 ^ 52)
  else 2 ^ ((exponentField bits : ℤ) - 1023) * (1 + fractionField bits / 2 ^ 52)

/-- The first bit is the sign; the greatest exponent stands for no number. -/
def reading : Reading :=
  if exponentField bits = 2047 then if fractionField bits = 0 then .infinite else .nan
  else .finite (if bits.toBitVec.msb then -magnitude bits else magnitude bits)

theorem exponentField_eq : exponentField bits = bits.toNat / 4503599627370496 % 2048 := by
  simp [exponentField, Nat.shiftRight_eq_div_pow]

theorem fractionField_eq : fractionField bits = bits.toNat % 4503599627370496 := by
  simp [fractionField]

theorem msb_eq : bits.toBitVec.msb = decide (9223372036854775808 ≤ bits.toNat) := by
  simp [BitVec.msb_eq_decide]

theorem fractionField_lt : fractionField bits < 2 ^ 52 := BitVec.isLt _

end Double

namespace Seconds
open Double

variable {bits : UInt64} {p : Parts} {v : ℚ} {d : Duration}

/-- The value of a double with these parts. -/
def Parts.value (p : Parts) : ℚ :=
  if p.negative then -(p.mantissa * 2 ^ p.exponent / 2 ^ 1074)
  else p.mantissa * 2 ^ p.exponent / 2 ^ 1074

theorem two_zpow_least : (2 : ℚ) ^ (-1022 : ℤ) = 2 ^ 52 / 2 ^ 1074 := by
  rw [eq_div_iff (by positivity), ← zpow_natCast 2 1074, ← zpow_add₀ two_ne_zero]
  norm_num

theorem magnitude_of_zero (h : exponentField bits = 0) :
    magnitude bits = (fractionField bits : ℕ) * 2 ^ 0 / 2 ^ 1074 := by
  rw [magnitude, if_pos h, two_zpow_least, pow_zero, mul_one]
  field_simp

theorem magnitude_of_succ {e : ℕ} (h : exponentField bits = e + 1) :
    magnitude bits = (4503599627370496 + fractionField bits : ℕ) * 2 ^ e / 2 ^ 1074 := by
  have hpower : (2 : ℚ) ^ (((e + 1 : ℕ) : ℤ) - 1023) = 2 ^ e * (2 ^ 52 / 2 ^ 1074) := by
    rw [← two_zpow_least, ← zpow_natCast 2 e, ← zpow_add₀ two_ne_zero]
    congr 1
    push_cast
    ring
  rw [magnitude, if_neg (by omega), h, hpower]
  push_cast
  field_simp
  norm_num

/-- The parts of a double have its value. -/
theorem reading_of_parts (h : Parts.ofBits? bits = some p) : reading bits = .finite p.value := by
  unfold Parts.ofBits? at h
  dsimp only at h
  rw [← exponentField_eq, ← fractionField_eq, ← msb_eq] at h
  split at h
  · cases h
  · rename_i hfinite
    rw [reading, if_neg hfinite]
    split at h
    · rename_i hzero
      cases h
      rw [magnitude_of_zero hzero, Parts.value]
    · rename_i hnormal
      cases h
      obtain ⟨e, he⟩ := Nat.exists_eq_add_one_of_ne_zero hnormal
      rw [magnitude_of_succ he, Parts.value, he, Nat.add_sub_cancel]

theorem mantissa_lt (h : Parts.ofBits? bits = some p) : p.mantissa < 2 ^ 53 := by
  have hfraction := fractionField_lt bits
  rw [fractionField_eq] at hfraction
  unfold Parts.ofBits? at h
  dsimp only at h
  split at h
  · cases h
  · split at h
    · cases h
      dsimp only
      omega
    · cases h
      dsimp only
      omega

theorem reading_of_none (h : Parts.ofBits? bits = none) :
    reading bits = .nan ∨ reading bits = .infinite := by
  unfold Parts.ofBits? at h
  dsimp only at h
  rw [← exponentField_eq] at h
  split at h
  · rename_i hgreatest
    rw [reading, if_pos hgreatest]
    split
    · exact .inr rfl
    · exact .inl rfl
  · split at h
    · cases h
    · cases h

/-! ## The duration of a number of seconds -/

theorem abs_value (p : Parts) : |p.value| = p.mantissa * 2 ^ p.exponent / 2 ^ 1074 := by
  have hpos : (0 : ℚ) ≤ p.mantissa * 2 ^ p.exponent / 2 ^ 1074 := by positivity
  rw [Parts.value]
  split
  · rw [abs_neg, abs_of_nonneg hpos]
  · rw [abs_of_nonneg hpos]

theorem value_eq_zero (h : p.mantissa = 0) : p.value = 0 := by
  rw [← abs_eq_zero, abs_value, h, Nat.cast_zero, zero_mul, zero_div]

theorem value_neg_iff (h : p.mantissa ≠ 0) : p.value < 0 ↔ p.negative = true := by
  have hmantissa : (0 : ℚ) < p.mantissa := by exact_mod_cast Nat.pos_of_ne_zero h
  have hpos : (0 : ℚ) < p.mantissa * 2 ^ p.exponent / 2 ^ 1074 := by positivity
  rw [Parts.value]
  split
  · rename_i hsign
    exact iff_of_true (neg_neg_of_pos hpos) hsign
  · rename_i hsign
    exact iff_of_false (not_lt.mpr hpos.le) hsign

/-- The nanoseconds of a number without its sign. -/
def Parts.nanos (p : Parts) : ℕ :=
  roundHalfEven (p.mantissa * Nat.pow 2 p.exponent * nanosPerSecond) (Nat.pow 2 1074)

/-- Of any binary fraction of seconds. -/
theorem nearestEven_fraction (m e k : ℕ) :
    NearestEven ((m : ℚ) * 2 ^ e / 2 ^ k * 10 ^ 9)
      (roundHalfEven (m * Nat.pow 2 e * nanosPerSecond) (Nat.pow 2 k)) := by
  have hquotient : (m : ℚ) * 2 ^ e / 2 ^ k * 10 ^ 9 =
      (m * Nat.pow 2 e * nanosPerSecond : ℕ) / (Nat.pow 2 k : ℕ) := by
    rw [Nat.pow_eq, Nat.pow_eq, nanosPerSecond]
    push_cast
    ring
  rw [hquotient]
  exact nearestEven_roundHalfEven _ (Nat.two_pow_pos k)

theorem nearestEven_nanos (p : Parts) : NearestEven (|p.value| * 10 ^ 9) p.nanos := by
  rw [abs_value, Parts.nanos]
  generalize 1074 = k
  exact nearestEven_fraction ..

theorem toDuration?_of_parts (h : Parts.ofBits? bits = some p) :
    toDuration? bits = if p.value < 0 then none else Duration.ofNanos? p.nanos := by
  rw [toDuration?, h]
  dsimp only
  by_cases hzero : p.mantissa = 0
  · have hnanos : p.nanos = 0 := by
      have hround := nearestEven_nanos p
      rw [value_eq_zero hzero, abs_zero, zero_mul] at hround
      exact Nat.le_zero.mp (hround.le (nearestEven_natCast 0) le_rfl)
    rw [if_pos hzero, if_neg (by rw [value_eq_zero hzero]; exact lt_irrefl 0), hnanos]
    rfl
  · rw [if_neg hzero]
    simp only [value_neg_iff hzero]
    rfl

theorem ofNanos?_eq_none_iff : Duration.ofNanos? n = none ↔ 2 ^ 64 * 10 ^ 9 ≤ n := by
  have hlimit : Duration.limit + 1 = 2 ^ 64 * 10 ^ 9 := by decide
  rw [Duration.ofNanos?, ← hlimit]
  split
  · exact iff_of_false (Option.some_ne_none _) (by omega)
  · exact iff_of_true rfl (by omega)

theorem nanos_of_ofNanos? (h : Duration.ofNanos? n = some d) : d.nanos = n := by
  unfold Duration.ofNanos? at h
  split at h
  · cases h
    rfl
  · cases h

/-- Doubles below 2^64 leave a gap to it, so that none of them is rounded up to it. -/
theorem abs_value_le (h : Parts.ofBits? bits = some p) (hbelow : |p.value| < 2 ^ 64) :
    |p.value| ≤ (2 ^ 64 - 1 : ℕ) := by
  rw [abs_value] at *
  rcases Nat.le_total 1074 p.exponent with hle | hle
  · -- The value is an integer.
    obtain ⟨k, hk⟩ := Nat.exists_eq_add_of_le hle
    have hinteger : (p.mantissa : ℚ) * 2 ^ p.exponent / 2 ^ 1074 = (p.mantissa * 2 ^ k : ℕ) := by
      rw [hk, pow_add]
      push_cast
      field_simp
    rw [hinteger] at hbelow ⊢
    have : p.mantissa * 2 ^ k < 2 ^ 64 := by exact_mod_cast hbelow
    exact_mod_cast Nat.le_sub_one_of_lt this
  · -- The value is at most its mantissa.
    have hless : (p.mantissa : ℚ) * 2 ^ p.exponent / 2 ^ 1074 ≤ p.mantissa := by
      rw [div_le_iff₀ (by positivity)]
      exact mul_le_mul_of_nonneg_left (pow_le_pow_right₀ one_le_two hle) (Nat.cast_nonneg _)
    have hmantissa := mantissa_lt h
    refine hless.trans ?_
    exact_mod_cast (by omega : p.mantissa ≤ 2 ^ 64 - 1)

theorem ofNanos?_nanos_eq_none_iff (h : Parts.ofBits? bits = some p) :
    Duration.ofNanos? p.nanos = none ↔ 2 ^ 64 ≤ |p.value| := by
  have hround := nearestEven_nanos p
  rw [ofNanos?_eq_none_iff]
  constructor
  · intro hmuch
    by_contra hbelow
    have hle := abs_value_le h (not_le.mp hbelow)
    have : p.nanos ≤ (2 ^ 64 - 1) * 10 ^ 9 := by
      refine hround.le (nearestEven_natCast _) ?_
      push_cast at hle ⊢
      linarith
    omega
  · intro hlarge
    refine (nearestEven_natCast _).le hround ?_
    push_cast
    linarith

/-- Seconds that bound nothing: what is no number, a negative one, one too great for a duration. -/
inductive Endless : Reading → Prop
  | nan : Endless .nan
  | infinite : Endless .infinite
  | negative {v : ℚ} (below : v < 0) : Endless (.finite v)
  | large {v : ℚ} (above : 2 ^ 64 ≤ v) : Endless (.finite v)

theorem toDuration?_eq_none_iff : toDuration? bits = none ↔ Endless (reading bits) := by
  cases hparts : Parts.ofBits? bits with
  | none =>
    rw [toDuration?, hparts]
    refine iff_of_true rfl ?_
    rcases reading_of_none hparts with hreading | hreading
    · exact hreading ▸ .nan
    · exact hreading ▸ .infinite
  | some p =>
    rw [toDuration?_of_parts hparts, reading_of_parts hparts]
    split
    case isTrue hneg => exact iff_of_true rfl (.negative hneg)
    case isFalse hnonneg =>
      rw [ofNanos?_nanos_eq_none_iff hparts, abs_of_nonneg (not_lt.mp hnonneg)]
      refine ⟨.large, fun h => ?_⟩
      cases h with
      | negative below => exact absurd below hnonneg
      | large above => exact above

theorem nearestEven_of_toDuration? (h : toDuration? bits = some d) :
    ∃ v, reading bits = .finite v ∧ NearestEven (v * 10 ^ 9) d.nanos := by
  cases hparts : Parts.ofBits? bits with
  | none =>
    rw [toDuration?, hparts] at h
    cases h
  | some p =>
    rw [toDuration?_of_parts hparts] at h
    split at h
    case isTrue => cases h
    case isFalse hnonneg =>
      refine ⟨p.value, reading_of_parts hparts, ?_⟩
      have hround := nearestEven_nanos p
      rwa [abs_of_nonneg (not_lt.mp hnonneg), ← nanos_of_ofNanos? h] at hround

/-- Whole seconds in 64 bits, and nanoseconds beside them that do not make another one. -/
structure Split (d : Duration) (seconds nanos : ℕ) : Prop where
  seconds_lt : seconds < 2 ^ 64
  nanos_lt : nanos < 10 ^ 9
  total : d.nanos = seconds * 10 ^ 9 + nanos

theorem split_div_mod (d : Duration) :
    Split d (d.nanos / nanosPerSecond) (d.nanos % nanosPerSecond) := by
  have hlimit := d.nanos_le
  unfold Duration.limit at hlimit
  unfold nanosPerSecond
  exact ⟨by omega, by omega, by omega⟩

theorem toDuration?_eq_some_iff :
    toDuration? bits = some d ↔ ∃ v, reading bits = .finite v ∧ 0 ≤ v ∧ v < 2 ^ 64 ∧
      NearestEven (v * 10 ^ 9) d.nanos := by
  constructor
  · intro h
    obtain ⟨v, hv, hround⟩ := nearestEven_of_toDuration? h
    have hbounded : ¬ Endless (reading bits) := by
      rw [← toDuration?_eq_none_iff, h]
      exact nofun
    rw [hv] at hbounded
    exact ⟨v, hv, not_lt.mp fun hneg => hbounded (.negative hneg),
      not_le.mp fun hlarge => hbounded (.large hlarge), hround⟩
  · rintro ⟨v, hv, hlow, hhigh, hround⟩
    cases hd : toDuration? bits with
    | none =>
      have hendless := toDuration?_eq_none_iff.mp hd
      rw [hv] at hendless
      cases hendless with
      | negative below => exact absurd hlow (not_le.mpr below)
      | large above => exact absurd hhigh (not_lt.mpr above)
    | some e =>
      obtain ⟨w, hw, hother⟩ := nearestEven_of_toDuration? hd
      cases hv.symm.trans hw
      have hsame : e.nanos = d.nanos :=
        Nat.le_antisymm (hother.le hround le_rfl) (hround.le hother le_rfl)
      cases e
      cases d
      cases hsame
      rfl

/-- There is no duration just for the seconds that bound nothing. Any other number of seconds lasts
the nanoseconds nearest to it, carried into the whole seconds, and a greater number lasts no
shorter. -/
theorem seconds_converted_exactly (bits : UInt64) :
    (toDuration? bits = none ↔ Endless (reading bits)) ∧
      (∀ d, toDuration? bits = some d ↔
        ∃ v, reading bits = .finite v ∧ 0 ≤ v ∧ v < 2 ^ 64 ∧
          ∃ seconds nanos, Split d seconds nanos ∧
            NearestEven (v * 10 ^ 9) (seconds * 10 ^ 9 + nanos)) ∧
      ∀ other v w d e, reading bits = .finite v → reading other = .finite w → v ≤ w →
        toDuration? bits = some d → toDuration? other = some e → d.nanos ≤ e.nanos := by
  refine ⟨toDuration?_eq_none_iff, fun d => ?_, fun other v w d e hv hw hle hd he => ?_⟩
  · rw [toDuration?_eq_some_iff]
    constructor
    · rintro ⟨v, hv, hlow, hhigh, hround⟩
      have hsplit := split_div_mod d
      exact ⟨v, hv, hlow, hhigh, _, _, hsplit, hsplit.total ▸ hround⟩
    · rintro ⟨v, hv, hlow, hhigh, seconds, nanos, hsplit, hround⟩
      exact ⟨v, hv, hlow, hhigh, hsplit.total ▸ hround⟩
  · obtain ⟨v', hv', hd⟩ := nearestEven_of_toDuration? hd
    obtain ⟨w', hw', he⟩ := nearestEven_of_toDuration? he
    cases hv.symm.trans hv'
    cases hw.symm.trans hw'
    exact hd.le he (by linarith)

theorem reading_of_fields {e f : ℕ} (hsign : bits.toBitVec.msb = false)
    (hexponent : exponentField bits = e) (hfraction : fractionField bits = f) (hnormal : e ≠ 0)
    (hfinite : e ≠ 2047) :
    reading bits = .finite (2 ^ ((e : ℤ) - 1023) * (1 + f / 2 ^ 52)) := by
  rw [reading, hexponent, if_neg hfinite, hsign, if_neg Bool.false_ne_true, magnitude, hexponent,
    if_neg hnormal, hfraction]

theorem reading_half : reading 0x3FE0000000000000 = .finite (1 / 2) := by
  rw [reading_of_fields rfl (show _ = 1022 from rfl) (show _ = 0 from rfl) (by decide) (by decide)]
  norm_num

/-- The greatest number below one. -/
theorem reading_almost_one : reading 0x3FEFFFFFFFFFFFFF = .finite (1 - 1 / 2 ^ 53) := by
  rw [reading_of_fields rfl (show _ = 1022 from rfl) (show _ = 2 ^ 52 - 1 from rfl) (by decide)
    (by decide)]
  norm_num

/-- What is less than a second by less than half a nanosecond is carried to a second. -/
theorem almost_one_converted :
    reading 0x3FE0000000000000 = .finite (1 / 2) ∧
      reading 0x3FEFFFFFFFFFFFFF = .finite (1 - 1 / 2 ^ 53) ∧
      toDuration? 0x3FE0000000000000 = some (.ofMillis 500) ∧
      toDuration? 0x3FEFFFFFFFFFFFFF = some (.ofSeconds 1) ∧
      (Duration.ofMillis 500).nanos ≤ (Duration.ofSeconds 1).nanos := by
  have hhalf : toDuration? 0x3FE0000000000000 = some (.ofMillis 500) := by decide +kernel
  have hless : toDuration? 0x3FEFFFFFFFFFFFFF = some (.ofSeconds 1) := by decide +kernel
  exact ⟨reading_half, reading_almost_one, hhalf, hless,
    (seconds_converted_exactly 0x3FE0000000000000).2.2 _ _ _ _ _ reading_half reading_almost_one
      (by norm_num) hhalf hless⟩

end Seconds
end Doip
