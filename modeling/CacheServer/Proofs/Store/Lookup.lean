import CacheServer.Store.Basic
import Mathlib.Data.List.Nodup

/-!
# Looking up

Keys are not repeated, so an entry is in the list exactly if looking up its key finds it
(`mem_entries_iff`). From this each operation has its equation for look-ups, and what is listed as
live is what can be got: `visible` is the entry of a key as a reader sees it.
-/

namespace CacheServer.Store

variable (s : Store) (now : Instant)

/-- An entry is one of the store's exactly if its key is looked up as it. -/
theorem mem_entries_iff {s : Store} {key : String} {item : Item} :
    (key, item) ∈ s.entries ↔ s.find? key = some item := by
  obtain ⟨entries, distinct⟩ := s
  simp only [find?]
  induction entries with
  | nil => simp
  | cons e rest ih =>
    obtain ⟨k, i⟩ := e
    obtain ⟨hk, hrest⟩ := List.nodup_cons.1 distinct
    rw [List.mem_cons, List.lookup_cons, ih hrest]
    cases hb : key == k with
    | true =>
      obtain rfl := eq_of_beq hb
      have hnone : rest.lookup key ≠ some item := fun h =>
        hk (List.mem_map_of_mem (f := (·.1)) ((ih hrest).2 h))
      simp [hnone, eq_comm]
    | false =>
      have hne : key ≠ k := ne_of_beq_false hb
      simp [hne]

/-- Filtering keeps an entry that satisfies the condition, and no other. -/
theorem find?_restrict (p : String × Item → Bool) (key : String) :
    (s.restrict p).find? key = (s.find? key).filter fun item => p (key, item) := by
  ext item
  rw [← Option.mem_def, Option.mem_def, ← mem_entries_iff, Option.filter_eq_some_iff,
    ← mem_entries_iff, entries_restrict, List.mem_filter]

/-- There is nothing in the empty store. -/
theorem find?_empty (key : String) : empty.find? key = none := rfl

/-- A write is found under its own key, and nothing else changes. -/
theorem find?_put (key other : String) (item : Item) :
    (s.put key item).find? other = if other = key then some item else s.find? other := by
  split
  · next h => subst h; exact find?_put_self s other item
  · next h => exact find?_put_of_ne s item h

/-- A removed key is not found, and nothing else changes. -/
theorem find?_delete (key other : String) :
    (s.delete now key).2.find? other = if other = key then none else s.find? other := by
  have := find?_restrict_key s (· != key) other
  simp only [delete, this]
  by_cases h : other = key <;> simp [h]

/-! ## What a reader sees -/

/-- The entry of a key as long as it has not expired. -/
def visible (key : String) : Option Item := (s.find? key).filter (!·.expiredAt now)

/-- Who hides what has expired, and later hides what has expired then, hides no more than who only
does it later. -/
theorem filter_filter_not_expiredAt {now later : Instant} (hclock : now.nanos ≤ later.nanos)
    (found : Option Item) : (found.filter (!·.expiredAt now)).filter (!·.expiredAt later) =
      found.filter (!·.expiredAt later) := by
  rw [Option.filter_filter]
  congr 1
  funext item
  cases hnow : item.expiredAt now with
  | false => simp
  | true => simp [Item.expiredAt_mono hclock hnow]

/-- A reading gives the data of the visible item. -/
theorem get_eq_map_visible (key : String) : s.get now key = (s.visible now key).map (·.data) := rfl

/-- What is stored for good is got at every reading. -/
theorem get_set (key : String) (value : Bytes) : (s.set key value).get now key = some value := by
  rw [get, set, find?_put_self, Option.filter_some, Item.expiredAt_lasting]
  rfl

/-- A removal tells whether the key was visible, and takes out all that is under it. -/
theorem delete_eq (key : String) :
    s.delete now key = ((s.visible now key).isSome, s.restrict (·.1 != key)) := by
  simp [delete, get_eq_map_visible]

/-- The live entries are the visible ones. -/
theorem mem_live_iff {s : Store} {now : Instant} {key : String} {item : Item} :
    (key, item) ∈ s.live now ↔ s.visible now key = some item := by
  rw [live, List.mem_filter, mem_entries_iff, visible, Option.filter_eq_some_iff]

/-- A key is listed exactly if a reader sees it. -/
theorem mem_keys_iff {s : Store} {now : Instant} {key : String} :
    key ∈ s.keys now ↔ (s.visible now key).isSome := by
  simp only [keys, List.mem_map, Prod.exists, exists_and_right, exists_eq_right, mem_live_iff,
    Option.isSome_iff_exists]

/-- No key is listed twice. -/
theorem nodup_keys : (s.keys now).Nodup :=
  s.distinct.sublist (List.filter_sublist.map _)

/-- The size of a store is the number of its listed keys. -/
theorem size_eq_length_keys : s.size now = (s.keys now).length := by
  simp [size, keys]

end CacheServer.Store
