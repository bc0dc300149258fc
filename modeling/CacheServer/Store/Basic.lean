import CacheServer.Store.Item

/-!
# The store

A map from keys to items. Expired items are hidden from every reading (`get`, `size`, `keys`) but
stay in the map until they are overwritten, deleted, purged or swept (`removeExpired`). Every
operation that depends on the time takes the reading of the clock at which it runs.

The entries are a list without repeated keys, the last written first. Whatever an operation does
to the map it does by filtering this list and by putting one entry in front, so that all of them
commute with hiding the expired entries.
-/

namespace CacheServer

/-- The cache's map. -/
structure Store where
  entries : List (String × Item)
  distinct : (entries.map (·.1)).Nodup

namespace Store

/-- A store with nothing in it. -/
def empty : Store := ⟨[], List.nodup_nil⟩

instance : Inhabited Store := ⟨empty⟩

/-- The entries that satisfy a condition. -/
def restrict (s : Store) (p : String × Item → Bool) : Store :=
  ⟨s.entries.filter p, s.distinct.sublist (List.filter_sublist.map _)⟩

/-- The entry of a key, expired or not. -/
def find? (s : Store) (key : String) : Option Item := s.entries.lookup key

/-- Writes the entry of a key. -/
def put (s : Store) (key : String) (item : Item) : Store where
  entries := (key, item) :: (s.restrict (·.1 != key)).entries
  distinct := by
    refine List.nodup_cons.mpr ⟨?_, (s.restrict _).distinct⟩
    simp [restrict]

/-- Stores a value for good. -/
def set (s : Store) (key : String) (value : Bytes) : Store := s.put key (.lasting value)

/-- Stores a value at `now` for the time `ttl`; a time of zero means for good. -/
def setWithTtl (s : Store) (now : Instant) (key : String) (value : Bytes) (ttl : Duration) :
    Store :=
  s.put key (.expiring now ttl value)

/-- The value of a key at `now`. -/
def get (s : Store) (now : Instant) (key : String) : Option Bytes :=
  ((s.find? key).filter (!·.expiredAt now)).map (·.data)

/-- Removes the entry of a key, and tells whether it was live at `now`. -/
def delete (s : Store) (now : Instant) (key : String) : Bool × Store :=
  ((s.get now key).isSome, s.restrict (·.1 != key))

/-- Removes everything. -/
def purge (_ : Store) : Store := empty

/-- The entries that have not expired at `now`. -/
def live (s : Store) (now : Instant) : List (String × Item) :=
  s.entries.filter (!·.2.expiredAt now)

/-- The number of live entries. -/
def size (s : Store) (now : Instant) : Nat := (s.live now).length

/-- Whether there is no live entry. -/
def isEmpty (s : Store) (now : Instant) : Bool := s.size now == 0

/-- The keys of the live entries, the last written first. -/
def keys (s : Store) (now : Instant) : List String := (s.live now).map (·.1)

/-- Removes every entry that has expired at `now`, and counts them. -/
def removeExpired (s : Store) (now : Instant) : Nat × Store :=
  let kept := s.restrict (!·.2.expiredAt now)
  (s.entries.length - kept.entries.length, kept)

/-- The entries that a condition leaves. -/
@[simp] theorem entries_restrict (s : Store) (p : String × Item → Bool) :
    (s.restrict p).entries = s.entries.filter p := rfl

/-- A written entry stands in front, and no other under its key is left. -/
@[simp] theorem entries_put (s : Store) (key : String) (item : Item) :
    (s.put key item).entries = (key, item) :: s.entries.filter (·.1 != key) := rfl

/-- Two stores with the same entries are equal. -/
theorem ext {s t : Store} (h : s.entries = t.entries) : s = t := by
  cases s; cases t; cases h; rfl

/-- What is written under a key is found there. -/
theorem find?_put_self (s : Store) (key : String) (item : Item) :
    (s.put key item).find? key = some item := by
  simp [find?]

/-- Filtering by key leaves the entry of every kept key. -/
theorem find?_restrict_key (s : Store) (p : String → Bool) (key : String) :
    (s.restrict fun e => p e.1).find? key = if p key then s.find? key else none := by
  obtain ⟨entries, distinct⟩ := s
  simp only [find?, entries_restrict]
  clear distinct
  induction entries with
  | nil => simp
  | cons e rest ih =>
    obtain ⟨k, item⟩ := e
    rw [List.filter_cons, List.lookup_cons]
    cases hk : key == k with
    | true =>
      have hkey : key = k := eq_of_beq hk
      subst hkey
      cases hp : p key <;> simp [hp] at ih ⊢
      exact ih
    | false => cases hp : p k <;> simp [hk, List.lookup_cons, ih]

/-- Writing under one key leaves the entries of the others. -/
theorem find?_put_of_ne (s : Store) {key other : String} (item : Item) (h : other ≠ key) :
    (s.put key item).find? other = s.find? other := by
  have hb : (other == key) = false := beq_eq_false_iff_ne.mpr h
  have := find?_restrict_key s (· != key) other
  simp only [find?, entries_put, List.lookup_cons, hb] at this ⊢
  simpa [h, find?] using this

end Store

end CacheServer
