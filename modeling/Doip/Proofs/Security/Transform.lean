import Doip.Security.Transform
import Mathlib.Data.List.Basic

/-! # What the exclusive-or transform makes of a seed

The secret is written again and again and combined with the seed, octet by octet. A key depends on
nothing but this endless text (`xorKey_congr`), and it betrays each octet of it that the seed
reaches (`around_eq_of_xorKey_eq`). -/
namespace Doip

/-! ## A secret written again and again -/

/-- The octet at a place of a secret that is written again and again; an empty one has none. -/
def around (secret : Octets) (place : Nat) : Option UInt8 := secret[place % secret.length]?

/-- The secret written `count` times. -/
def repeated (secret : Octets) (count : Nat) : Octets := (List.replicate count secret).flatten

variable {secret other seed : Octets} {place count : Nat}

theorem exists_around (h : secret ≠ []) (place : Nat) : ∃ b, around secret place = some b :=
  ⟨_, List.getElem?_eq_getElem (Nat.mod_lt place (List.length_pos_iff.mpr h))⟩

theorem around_of_lt (h : place < secret.length) : around secret place = secret[place]? := by
  rw [around, Nat.mod_eq_of_lt h]

theorem around_sub (h : secret.length ≤ place) :
    around secret (place - secret.length) = around secret place := by
  rw [around, around, Nat.mod_eq_sub_mod h]

theorem repeated_succ (secret : Octets) (count : Nat) :
    repeated secret (count + 1) = secret ++ repeated secret count := by
  rw [repeated, List.replicate_succ, List.flatten_cons]
  rfl

theorem length_repeated (secret : Octets) (count : Nat) :
    (repeated secret count).length = count * secret.length := by
  rw [repeated, List.length_flatten, List.map_replicate, List.sum_replicate_nat]

theorem getElem?_repeated (h : place < count * secret.length) :
    (repeated secret count)[place]? = around secret place := by
  induction count generalizing place with
  | zero =>
    rw [Nat.zero_mul] at h
    exact absurd h (Nat.not_lt_zero place)
  | succ count ih =>
    rw [repeated_succ]
    by_cases hfirst : place < secret.length
    · rw [List.getElem?_append_left hfirst, around_of_lt hfirst]
    · have hlater : secret.length ≤ place := Nat.le_of_not_lt hfirst
      rw [Nat.succ_mul] at h
      rw [List.getElem?_append_right hlater, ih (by omega), around_sub hlater]

theorem repeated_ne_nil (h : secret ≠ []) (hcount : 0 < count) : repeated secret count ≠ [] := by
  refine List.length_pos_iff.mp ?_
  rw [length_repeated]
  exact Nat.mul_pos hcount (List.length_pos_iff.mpr h)

/-- Written several times, a secret goes on as it did before. -/
theorem around_repeated (h : secret ≠ []) (hcount : 0 < count) (place : Nat) :
    around (repeated secret count) place = around secret place := by
  have hlength : 0 < count * secret.length := Nat.mul_pos hcount (List.length_pos_iff.mpr h)
  rw [around, length_repeated, getElem?_repeated (Nat.mod_lt place hlength), around,
    Nat.mod_mod_of_dvd place (Nat.dvd_mul_left secret.length count), around]

/-! ## Keys -/

namespace Transform

theorem getElem?_xorKey (secret seed : Octets) (place : Nat) :
    (xorKey secret seed)[place]? = seed[place]?.map (· ^^^ (around secret place).getD 0) := by
  rw [xorKey, List.getElem?_mapIdx, List.getD_eq_getElem?_getD]
  rfl

theorem length_xorKey (secret seed : Octets) : (xorKey secret seed).length = seed.length :=
  List.length_mapIdx

/-- Combined twice, the secret cancels out. -/
theorem xorKey_xorKey (secret seed : Octets) : xorKey secret (xorKey secret seed) = seed := by
  refine List.ext_getElem? fun place => ?_
  rw [getElem?_xorKey, getElem?_xorKey, Option.map_map]
  have hcancel : ∀ a b : UInt8, (a ^^^ b) ^^^ b = a := fun a b => by
    rw [UInt8.xor_assoc, UInt8.xor_self, UInt8.xor_zero]
  simp only [Function.comp_def, hcancel, Option.map_id']

theorem xorKey_congr (h : ∀ place < seed.length, around secret place = around other place) :
    xorKey secret seed = xorKey other seed := by
  refine List.ext_getElem? fun place => ?_
  rw [getElem?_xorKey, getElem?_xorKey]
  by_cases hplace : place < seed.length
  · rw [h place hplace]
  · rw [List.getElem?_eq_none (Nat.le_of_not_lt hplace), Option.map_none, Option.map_none]

theorem around_eq_of_xorKey_eq (hsecret : secret ≠ []) (hother : other ≠ [])
    (h : xorKey secret seed = xorKey other seed) (hplace : place < seed.length) :
    around secret place = around other place := by
  obtain ⟨a, ha⟩ := exists_around hsecret place
  obtain ⟨b, hb⟩ := exists_around hother place
  have hoctet := congrArg (·[place]?) h
  simp only [getElem?_xorKey, List.getElem?_eq_getElem hplace, ha, hb, Option.map_some,
    Option.getD_some, Option.some.injEq, UInt8.xor_right_inj] at hoctet
  rw [ha, hb, hoctet]

/-- The key that a secret gives by exclusive or, if it can be a secret at all. -/
def xorDerived (secret : Octets) (level : UInt8) (seed : Octets) : Except SeedKeyError Octets :=
  (ofSecret .xor secret).map fun t => t.key level seed

theorem xorDerived_eq (h : secret ≠ []) (level : UInt8) (seed : Octets) :
    xorDerived secret level seed = .ok (xorKey secret seed) := by
  rw [xorDerived, ofSecret, dif_neg h]
  rfl

/-- The octets of `key` are those of `seed`, each combined with the secret's at its place. -/
def Combined (secret seed key : Octets) : Prop :=
  ∀ place < seedLength, ∃ a b, seed[place]? = some a ∧ around secret place = some b ∧
    key[place]? = some (a ^^^ b)

theorem combined_xorKey (h : secret ≠ []) (hseed : seed.length = seedLength) :
    Combined secret seed (xorKey secret seed) := by
  intro place hplace
  obtain ⟨b, hb⟩ := exists_around h place
  have ha : seed[place]? = some _ := List.getElem?_eq_getElem (Nat.lt_of_lt_of_eq hplace hseed.symm)
  exact ⟨_, b, ha, hb, by rw [getElem?_xorKey, ha, hb]; rfl⟩

/-- A secret gives every seed a key of its own, from which the same secret gives the seed again.
All that the keys depend on is what a seed reaches of the secret written again and again. -/
structure KeyedInvolution (secret : Octets) : Prop where
  involution : ∀ level seed, seed.length = seedLength →
    ∃ key, xorDerived secret level seed = .ok key ∧ key.length = seedLength ∧
      Combined secret seed key ∧ ∀ level', xorDerived secret level' key = .ok seed
  distinct : ∀ level seed level' seed', seed.length = seedLength → seed'.length = seedLength →
    seed ≠ seed' → xorDerived secret level seed ≠ xorDerived secret level' seed'
  repetition : ∀ count > 0, ∀ level seed, seed.length = seedLength →
    xorDerived (repeated secret count) level seed = xorDerived secret level seed
  /-- Octets after the sixteenth may be left out, or be others. -/
  surplus : ∀ first later later', secret = first ++ later → first.length = seedLength →
    ∀ level seed, seed.length = seedLength →
      xorDerived (first ++ later') level seed = xorDerived secret level seed
  /-- A key in common shows that two secrets agree. -/
  common : ∀ other, other ≠ [] →
    ((∃ level level' seed key, seed.length = seedLength ∧
        xorDerived secret level seed = .ok key ∧ xorDerived other level' seed = .ok key) ↔
      ∀ place < seedLength, around secret place = around other place)
  /-- Secrets that agree have all keys in common. -/
  agreeing : ∀ other, other ≠ [] →
    (∀ place < seedLength, around secret place = around other place) →
    ∀ level level' seed, seed.length = seedLength →
      xorDerived secret level seed = xorDerived other level' seed

theorem xorDerived_congr (hsecret : secret ≠ []) (hother : other ≠ [])
    (hagree : ∀ place < seedLength, around secret place = around other place)
    (level level' : UInt8) (hseed : seed.length = seedLength) :
    xorDerived secret level seed = xorDerived other level' seed := by
  rw [xorDerived_eq hsecret, xorDerived_eq hother, xorKey_congr (by rwa [hseed])]

/-- The first sixteen octets of a long secret are all that a seed reaches. -/
theorem around_first {first later : Octets} (h : first.length = seedLength)
    (hplace : place < seedLength) : around (first ++ later) place = first[place]? := by
  have hfirst : place < first.length := Nat.lt_of_lt_of_eq hplace h.symm
  rw [around_of_lt (by rw [List.length_append]; omega), List.getElem?_append_left hfirst]

theorem keyed_involution (h : secret ≠ []) : KeyedInvolution secret where
  involution level seed hseed :=
    ⟨xorKey secret seed, xorDerived_eq h level seed, (length_xorKey secret seed).trans hseed,
      combined_xorKey h hseed, fun level' => by rw [xorDerived_eq h, xorKey_xorKey]⟩
  distinct level seed level' seed' _ _ hne hsame := by
    rw [xorDerived_eq h, xorDerived_eq h, Except.ok.injEq] at hsame
    refine hne ?_
    calc seed = xorKey secret (xorKey secret seed) := (xorKey_xorKey secret seed).symm
      _ = xorKey secret (xorKey secret seed') := by rw [hsame]
      _ = seed' := xorKey_xorKey secret seed'
  repetition count hcount level seed :=
    xorDerived_congr (repeated_ne_nil h hcount) h (fun place _ => around_repeated h hcount place)
      level level
  surplus first later later' hsecret hfirst level seed := by
    have hne : first ++ later' ≠ [] := by
      refine List.append_ne_nil_of_left_ne_nil (fun hnil => ?_) later'
      rw [hnil] at hfirst
      cases hfirst
    refine xorDerived_congr hne h (fun place hplace => ?_) level level
    rw [hsecret, around_first hfirst hplace, around_first hfirst hplace]
  common other hother := by
    constructor
    · rintro ⟨level, level', seed, key, hseed, hsecret, hkey⟩ place hplace
      rw [xorDerived_eq h, ← hkey, xorDerived_eq hother, Except.ok.injEq] at hsecret
      exact around_eq_of_xorKey_eq h hother hsecret (Nat.lt_of_lt_of_eq hplace hseed.symm)
    · intro hagree
      have hzeros : (List.replicate seedLength (0 : UInt8)).length = seedLength :=
        List.length_replicate
      exact ⟨1, 1, _, _, hzeros, xorDerived_eq h 1 _,
        (xorDerived_congr h hother hagree 1 1 hzeros).symm.trans (xorDerived_eq h 1 _)⟩
  agreeing other hother hagree level level' seed :=
    xorDerived_congr h hother hagree level level'

/-- A secret whose length does not divide that of a seed. -/
def threeOctets : Octets := [1, 2, 3]

/-- Against zeros the key is the secret itself, cut off in the middle. -/
theorem threeOctets_involution :
    threeOctets ≠ [] ∧
      xorDerived threeOctets 1 (List.replicate 16 0) =
        .ok [1, 2, 3, 1, 2, 3, 1, 2, 3, 1, 2, 3, 1, 2, 3, 1] ∧
      xorDerived threeOctets 3 [1, 2, 3, 1, 2, 3, 1, 2, 3, 1, 2, 3, 1, 2, 3, 1] =
        .ok (List.replicate 16 0) ∧
      xorDerived (repeated threeOctets 6) 5 (List.replicate 16 7) =
        xorDerived threeOctets 5 (List.replicate 16 7) ∧
      ¬ ∃ level level' seed key, seed.length = seedLength ∧
        xorDerived threeOctets level seed = .ok key ∧ xorDerived [1, 2] level' seed = .ok key := by
  have hne : threeOctets ≠ [] := by decide
  have holds : KeyedInvolution threeOctets := keyed_involution hne
  have hkey : xorDerived threeOctets 1 (List.replicate 16 0) =
      .ok [1, 2, 3, 1, 2, 3, 1, 2, 3, 1, 2, 3, 1, 2, 3, 1] := rfl
  obtain ⟨key, hderived, -, -, hback⟩ := holds.involution 1 (List.replicate 16 0) rfl
  cases hderived.symm.trans hkey
  refine ⟨hne, hkey, hback 3, holds.repetition 6 (by decide) 5 _ rfl, ?_⟩
  rw [holds.common [1, 2] (by decide)]
  exact fun hagree => absurd (hagree 2 (by decide)) (by decide)

end Transform
end Doip
