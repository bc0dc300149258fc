import CacheServer.Bytes
import CacheServer.Time

/-!
# Items

What the store keeps under a key: the bytes, and a deadline if they are to expire. An item counts
as absent from its deadline on, the deadline itself included, whether or not it has been removed.
-/

namespace CacheServer

/-- A stored value. -/
structure Item where
  data : Bytes
  /-- When the item expires; an item without a deadline never does. -/
  deadline : Option Instant
  deriving DecidableEq

namespace Item

/-- An item that never expires. -/
def lasting (data : Bytes) : Item := ⟨data, none⟩

/-- The deadline of something stored at `now` for the time `ttl`. A time of zero stands for no
deadline, and so does one that ends beyond what the clock can name. -/
def deadlineFor (now : Instant) (ttl : Duration) : Option Instant :=
  if ttl.nanos = 0 then none else now.add? ttl

/-- An item stored at `now` for the time `ttl`. -/
def expiring (now : Instant) (ttl : Duration) (data : Bytes) : Item :=
  ⟨data, deadlineFor now ttl⟩

/-- Whether the item has expired at a reading of the clock. -/
def expiredAt (item : Item) (now : Instant) : Bool :=
  match item.deadline with
  | none => false
  | some deadline => deadline.nanos ≤ now.nanos

/-- An item without a deadline never expires. -/
@[simp] theorem expiredAt_lasting (data : Bytes) (now : Instant) :
    (lasting data).expiredAt now = false := rfl

/-- An expired item stays expired. -/
theorem expiredAt_mono {item : Item} {now later : Instant} (h : now.nanos ≤ later.nanos)
    (expired : item.expiredAt now = true) : item.expiredAt later = true := by
  cases item with
  | mk data deadline =>
    cases deadline with
    | none => exact absurd expired Bool.false_ne_true
    | some d => exact decide_eq_true (Nat.le_trans (of_decide_eq_true expired) h)

end Item

end CacheServer
