/-! # Durations, instants and deadlines

A duration is a number of nanoseconds that 64-bit seconds and a fraction can
hold. The monotonic clock counts signed 64-bit seconds; a deadline beyond that
does not exist, and a wait without a deadline has no end. -/
namespace Doip

def nanosPerSecond : Nat := 1000000000

def nanosPerMilli : Nat := 1000000

/-- The longest duration: 2^64 - 1 seconds and 999999999 nanoseconds. -/
def Duration.limit : Nat := 18446744073709551615999999999

structure Duration where
  nanos : Nat
  nanos_le : nanos ≤ Duration.limit
deriving DecidableEq, Repr

namespace Duration

def zero : Duration := ⟨0, Nat.zero_le _⟩

def max : Duration := ⟨limit, Nat.le_refl _⟩

def ofNanos? (n : Nat) : Option Duration :=
  if h : n ≤ limit then some ⟨n, h⟩ else none

def ofMillis (ms : UInt64) : Duration :=
  ⟨ms.toNat * nanosPerMilli, by
    have := ms.toNat_lt
    unfold limit nanosPerMilli
    omega⟩

def ofSeconds (s : UInt64) : Duration :=
  ⟨s.toNat * nanosPerSecond, by
    have := s.toNat_lt
    unfold limit nanosPerSecond
    omega⟩

/-- The sum, if it is a duration. -/
def add? (a b : Duration) : Option Duration := ofNanos? (a.nanos + b.nanos)

theorem nanos_of_add? {a b sum : Duration} (h : a.add? b = some sum) :
    sum.nanos = a.nanos + b.nanos := by
  unfold add? ofNanos? at h
  split at h
  · cases h
    rfl
  · cases h

theorem exists_add? {a b : Duration} (h : a.nanos + b.nanos ≤ limit) :
    ∃ sum, a.add? b = some sum := ⟨_, dif_pos h⟩

/-- The longer of two durations. -/
def longer (a b : Duration) : Duration := if a.nanos ≤ b.nanos then b else a

theorem nanos_longer (a b : Duration) : (longer a b).nanos = Nat.max a.nanos b.nanos := by
  unfold longer
  split <;> simp only [Nat.max_def] <;> split <;> omega

end Duration

/-- A reading of the monotonic clock, in nanoseconds since its origin. -/
abbrev Instant := Nat

/-- The first instant that the clock cannot hold. -/
def Instant.limit : Nat := 9223372036854775808000000000

/-- The instant `d` after `now`, if the clock can hold it. -/
def Instant.add? (now : Instant) (d : Duration) : Option Instant :=
  if now + d.nanos < Instant.limit then some (now + d.nanos) else none

theorem Instant.eq_of_add? {now later : Instant} {d : Duration}
    (h : Instant.add? now d = some later) : later = now + d.nanos := by
  unfold add? at h
  split at h
  · cases h
    rfl
  · cases h

/-- The deadline of a wait that starts at `now`; none without a timeout, and none when
the clock cannot hold it. -/
def deadlineAfter (now : Instant) (timeout : Option Duration) : Option Instant :=
  timeout.bind (Instant.add? now)

/-- Whether a deadline has come. -/
def isDue (now : Instant) (deadline : Option Instant) : Bool :=
  match deadline with
  | some d => decide (d ≤ now)
  | none => false

/-- The earlier of two deadlines, where none means never. -/
def earlier : Option Instant → Option Instant → Option Instant
  | none, b => b
  | a, none => a
  | some a, some b => some (min a b)

/-- The earliest of several deadlines. -/
def earliest (deadlines : List (Option Instant)) : Option Instant :=
  deadlines.foldr earlier none

end Doip
