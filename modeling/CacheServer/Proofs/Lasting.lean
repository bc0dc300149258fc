import CacheServer.Proofs.History

/-!
# Stores without deadlines

Neither interface gives an entry a deadline, so a store in which nothing has one keeps it that way
(`Cache.lasting_after`). In such a store every entry is live at every reading of the clock, and a
sweep removes nothing (`Store.Lasting.removeExpired_eq`).
-/

namespace CacheServer

namespace Store

/-- No entry has a deadline. -/
def Lasting (s : Store) : Prop := ∀ entry ∈ s.entries, entry.2.deadline = none

variable {s : Store}

/-- An empty store has no deadlines. -/
theorem lasting_empty : empty.Lasting := nofun

/-- To write an entry without a deadline keeps a store without deadlines. -/
theorem Lasting.put (h : s.Lasting) (key : String) (value : Bytes) :
    (s.put key (.lasting value)).Lasting := by
  intro entry hentry
  rw [entries_put, List.mem_cons] at hentry
  rcases hentry with rfl | hentry
  · rfl
  · exact h entry (List.mem_of_mem_filter hentry)

/-- To remove entries keeps a store without deadlines. -/
theorem Lasting.restrict (h : s.Lasting) (p : String × Item → Bool) : (s.restrict p).Lasting :=
  fun entry hentry => h entry (List.mem_of_mem_filter hentry)

/-- Nothing expires in a store without deadlines. -/
theorem Lasting.not_expiredAt (h : s.Lasting) {entry : String × Item} (hentry : entry ∈ s.entries)
    (now : Instant) : entry.2.expiredAt now = false := by
  rw [Item.expiredAt, h entry hentry]

/-- All entries of a store without deadlines are live. -/
theorem Lasting.live_eq (h : s.Lasting) (now : Instant) : s.live now = s.entries := by
  rw [live, List.filter_eq_self]
  intro entry hentry
  rw [h.not_expiredAt hentry now]
  rfl

/-- All keys are listed. -/
theorem Lasting.keys_eq (h : s.Lasting) (now : Instant) : s.keys now = s.entries.map (·.1) := by
  rw [keys, h.live_eq now]

/-- Every entry of a store without deadlines is visible. -/
theorem Lasting.visible_eq (h : s.Lasting) (now : Instant) (key : String) :
    s.visible now key = s.find? key := by
  ext item
  rw [← mem_live_iff, h.live_eq now, mem_entries_iff]

/-- What is got does not depend on the reading of the clock. -/
theorem Lasting.get_eq (h : s.Lasting) (now : Instant) (key : String) :
    s.get now key = (s.find? key).map (·.data) := by
  rw [get_eq_map_visible, h.visible_eq now key]

/-- A sweep removes nothing. -/
theorem Lasting.removeExpired_eq (h : s.Lasting) (now : Instant) :
    s.removeExpired now = (0, s) := by
  have hkept : s.restrict (fun e => !e.2.expiredAt now) = s := ext (h.live_eq now)
  simp only [removeExpired, hkept, Nat.sub_self]

end Store

/-! ## Steps -/

/-- No write gives an entry a deadline. -/
theorem Write.lasting_apply {s : Store} (h : s.Lasting) (w : Write) : (w.apply s).Lasting := by
  cases w with
  | set key value => exact h.put key value
  | delete key => exact h.restrict _
  | purge => exact Store.lasting_empty

/-- No step gives an entry a deadline. -/
theorem Step.lasting_apply {cache : Cache} (h : cache.store.Lasting) (step : Step) :
    (step.apply cache).store.Lasting := by
  by_cases hwrites : ∃ w, step.Performs w
  · obtain ⟨w, hw⟩ := hwrites
    rw [Step.store_of_performs hw]
    exact w.lasting_apply h
  · rw [Step.store_of_not_performs fun w hw => hwrites ⟨w, hw⟩]
    exact h

namespace Cache

variable {cache : Cache} {history : List Step}

/-- A history goes on from what its first step leaves. -/
theorem after_cons (cache : Cache) (step : Step) (history : List Step) :
    cache.after (step :: history) = (step.apply cache).after history := rfl

/-- No history gives an entry a deadline. -/
theorem lasting_after (h : cache.store.Lasting) (history : List Step) :
    (cache.after history).store.Lasting := by
  induction history generalizing cache with
  | nil => exact h
  | cons step history ih =>
    rw [after_cons]
    exact ih (step.lasting_apply h)

/-- Steps that do not affect a key leave what is stored there. -/
theorem find?_after_of_not_affects {key : String}
    (h : ∀ step ∈ history, ∀ w, step.Performs w → ¬ w.Affects key) :
    (cache.after history).store.find? key = cache.store.find? key := by
  induction history generalizing cache with
  | nil => rfl
  | cons step history ih =>
    obtain ⟨hstep, hhistory⟩ := List.forall_mem_cons.1 h
    rw [after_cons, ih hhistory]
    exact Step.find?_of_not_affects hstep

end Cache

end CacheServer
