/-!
# Durations and instants

Time is counted in whole nanoseconds. A duration is kept in 64-bit seconds and a fraction, so it
is below 2^64 seconds, and arithmetic that would leave this range has no result. An instant is a
reading of the steady clock; the clock cannot name an instant from 2^63 seconds on, so a deadline
beyond that does not exist (`Instant.add?`).
-/

namespace CacheServer

/-- Nanoseconds in a second. -/
def nanosPerSecond : Nat := 1000000000

/-- A span of time below 2^64 seconds. -/
structure Duration where
  nanos : Nat
  nanos_lt : nanos < Nat.pow 2 64 * nanosPerSecond
  deriving DecidableEq

namespace Duration

/-- The duration of `n` nanoseconds, if it is in range. -/
def ofNanos? (n : Nat) : Option Duration :=
  if h : n < Nat.pow 2 64 * nanosPerSecond then some ⟨n, h⟩ else none

/-- No time at all. -/
def zero : Duration := ⟨0, by decide⟩

/-- A duration in milliseconds that fit in 64 bits. -/
def ofMillis (ms : UInt64) : Duration :=
  ⟨ms.toNat * 1000000, by
    have := ms.toNat_lt
    simp only [nanosPerSecond, Nat.pow_eq]
    omega⟩

/-- The whole seconds of a duration. -/
def seconds (d : Duration) : Nat := d.nanos / nanosPerSecond

/-- The nanoseconds of a duration beyond its whole seconds. -/
def fraction (d : Duration) : Nat := d.nanos % nanosPerSecond

/-- The sum, unless it is out of range. -/
def add? (a b : Duration) : Option Duration := ofNanos? (a.nanos + b.nanos)

/-- Twice the duration, unless it is out of range. -/
def double? (d : Duration) : Option Duration := ofNanos? (2 * d.nanos)

/-- The shorter of two durations. -/
def min (a b : Duration) : Duration := if a.nanos ≤ b.nanos then a else b

/-- A tenth of the duration, rounded down to a nanosecond. -/
def tenth (d : Duration) : Duration :=
  ⟨d.nanos / 10, Nat.lt_of_le_of_lt (Nat.div_le_self _ _) d.nanos_lt⟩

end Duration

/-- A reading of the steady clock, in nanoseconds since its start. -/
structure Instant where
  nanos : Nat
  deriving DecidableEq

namespace Instant

/-- The first reading that the clock can no longer take. -/
def limit : Nat := Nat.pow 2 63 * nanosPerSecond

/-- The instant `d` after `t`, unless the clock cannot name it. -/
def add? (t : Instant) (d : Duration) : Option Instant :=
  if t.nanos + d.nanos < limit then some ⟨t.nanos + d.nanos⟩ else none

end Instant

end CacheServer
