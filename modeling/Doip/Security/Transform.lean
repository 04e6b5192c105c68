import Doip.Digest.Sha256
import Doip.Security.Error

/-! # From seed to key

An ECU hands out a seed and expects the key that goes with it. The key depends on
a secret, by one of two transforms; neither works with an empty secret. -/
namespace Doip

/-- How many octets a seed has. -/
def seedLength : Nat := 16

inductive Algorithm where
  | xor
  | sha256
deriving DecidableEq, Repr

def Algorithm.name : Algorithm → String
  | xor => "xor"
  | sha256 => "sha256"

def Algorithm.all : List Algorithm := [.xor, .sha256]

/-- An algorithm with its secret. -/
structure Transform where
  algorithm : Algorithm
  secret : Octets
  secret_ne_nil : secret ≠ []
deriving DecidableEq, Repr

namespace Transform

def ofSecret (algorithm : Algorithm) (secret : Octets) : Except SeedKeyError Transform :=
  if h : secret = [] then .error (.invalidSecret "secret is empty")
  else .ok ⟨algorithm, secret, h⟩

/-- The key octet at place `i` is the seed's, combined with the secret's at place `i` modulo
the secret's length. -/
def xorKey (secret seed : Octets) : Octets :=
  seed.mapIdx fun i b => b ^^^ secret.getD (i % secret.length) 0

/-- The first octets of the digest of secret, level and seed. -/
def digestKey (secret : Octets) (level : UInt8) (seed : Octets) : Octets :=
  (Sha256.digest (secret ++ level :: seed)).take seedLength

def key (t : Transform) (level : UInt8) (seed : Octets) : Octets :=
  match t.algorithm with
  | .xor => xorKey t.secret seed
  | .sha256 => digestKey t.secret level seed

/-- A digest key is the first part of the digest of the secret, the level and the seed. -/
theorem digestKey_prefix_digest (secret : Octets) (level : UInt8) (seed : Octets) :
    digestKey secret level seed <+: Sha256.digest (secret ++ [level] ++ seed) := by
  rw [List.append_assoc]
  exact List.take_prefix seedLength _

theorem length_digestKey (secret : Octets) (level : UInt8) (seed : Octets) :
    (digestKey secret level seed).length = seedLength := by
  rw [digestKey, List.length_take, Sha256.length_digest]
  rfl

theorem length_key (t : Transform) (level : UInt8) {seed : Octets} (h : seed.length = seedLength) :
    (t.key level seed).length = seedLength := by
  unfold key
  split
  · simpa [xorKey] using h
  · exact length_digestKey t.secret level seed

end Transform
end Doip
