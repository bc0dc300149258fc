import CacheServer.Time

/-!
# Back-off

The pause between attempts that keep failing, and between polls. It doubles from round to round up
to a longest one, and each pause is drawn out by up to a tenth, so that several waiters do not
stay in step. The arithmetic of durations can overflow; this is the only way in which it fails.
-/

namespace CacheServer

/-- Which step of the arithmetic has left the range of durations. -/
inductive Overflow
  /-- Adding the jitter. -/
  | addition
  /-- Doubling for the next round. -/
  | doubling
  deriving DecidableEq, Repr

namespace Overflow

/-- The description of an overflow in reports. -/
def message : Overflow → String
  | addition => "overflow when adding durations"
  | doubling => "overflow when multiplying duration by scalar"

end Overflow

/-- A pause that grows. -/
structure Backoff where
  initial : Duration
  max : Duration
  /-- The next pause, without its jitter. -/
  base : Duration
  deriving DecidableEq

namespace Backoff

/-- A back-off in front of its first round. -/
def start (initial max : Duration) : Backoff := ⟨initial, max, initial⟩

/-- The polls for connections to end, during a shutdown. -/
def shutdownPoll : Backoff := start (.ofMillis 1) (.ofMillis 500)

/-- The attempts to accept a connection while resources are short. -/
def acceptRetry : Backoff := start (.ofMillis 5) (.ofMillis 1000)

/-- The next pause and the back-off after it. The jitter is what was drawn, and at most a tenth of
the base. -/
def next (b : Backoff) (drawn : Duration) : Except Overflow (Duration × Backoff) :=
  match b.base.add? (drawn.min b.base.tenth) with
  | none => .error .addition
  | some pause =>
    match b.base.double? with
    | none => .error .doubling
    | some doubled => .ok (pause, { b with base := doubled.min b.max })

/-- Starts over from the first round. -/
def reset (b : Backoff) : Backoff := { b with base := b.initial }

end Backoff

end CacheServer
