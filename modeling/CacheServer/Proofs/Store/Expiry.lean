import CacheServer.Proofs.Store.LiveMap

/-!
# When an entry is visible

What a reader sees of a key is decided by the last write of it: of a value that was stored for some
time, exactly as long as the clock has not reached the deadline, and of a value that was stored for
good, always. Nothing that happens to the store besides makes a difference, sweeps included
(`visibility`).

A step either leaves the entry of a key as it is, or it removes it because it has expired, or it was
asked to write or to remove the key (`find?_step`); everything is derived from these cases.
-/

namespace CacheServer

/-- An item that was stored for some time has not expired if the time is zero, ends beyond what the
clock can name, or is not over. -/
theorem Item.expiredAt_expiring_eq_false_iff {t now : Instant} {ttl : Duration} {value : Bytes} :
    (expiring t ttl value).expiredAt now = false ↔
      ttl.nanos = 0 ∨ Instant.limit ≤ t.nanos + ttl.nanos ∨ now.nanos < t.nanos + ttl.nanos := by
  simp only [expiring, expiredAt, deadlineFor, Instant.add?]
  by_cases hzero : ttl.nanos = 0
  · simp [hzero]
  · by_cases hnamed : t.nanos + ttl.nanos < Instant.limit
    · simp [hzero, hnamed, Nat.not_le.2 hnamed]
    · simp [hzero, hnamed, Nat.not_lt.1 hnamed]

/-! ## Steps -/

/-- Whether a step writes a key. -/
def StoreStep.Sets (key : String) : StoreStep → Prop
  | .call (.set other _) | .call (.setWithTtl other _ _) => other = key
  | _ => False

/-- Whether a step is asked to remove a key. -/
def StoreStep.Removes (key : String) : StoreStep → Prop
  | .call (.delete other) => other = key
  | .call .purge => True
  | _ => False

namespace Store

variable {s : Store} {key : String} {now later : Instant}

/-- The store after a step at `now`. -/
def step (s : Store) (now : Instant) : StoreStep → Store
  | .call call => (s.perform now call).2
  | .sweep => (s.removeExpired now).2

/-- The store after steps, each at its own reading of the clock. -/
def after (s : Store) (steps : List (Instant × StoreStep)) : Store :=
  steps.foldl (fun s (now, step) => s.step now step) s

/-- What a step can do to the entry of a key that it does not write. -/
theorem find?_step {step : StoreStep} (h : ¬ step.Sets key) (now : Instant) :
    (s.step now step).find? key = s.find? key ∨
      (step.Removes key ∧ (s.step now step).find? key = none) ∨
      (s.step now step).find? key = (s.find? key).filter (!·.expiredAt now) := by
  cases step with
  | sweep => exact .inr (.inr (s.find?_restrict _ key))
  | call call =>
    cases call with
    | set other value => exact .inl (s.find?_put_of_ne _ (Ne.symm h))
    | setWithTtl other value ttl => exact .inl (s.find?_put_of_ne _ (Ne.symm h))
    | get | size | isEmpty | keys => exact .inl rfl
    | purge => exact .inr (.inl ⟨trivial, find?_empty key⟩)
    | delete other =>
      have hfound : (s.delete now other).2.find? key = _ := s.find?_delete now other key
      by_cases hother : key = other
      · exact .inr (.inl ⟨hother.symm, hfound.trans (if_pos hother)⟩)
      · exact .inl (hfound.trans (if_neg hother))

/-- A step that does not concern a key changes nothing for those who read it then or later. -/
theorem visible_step {step : StoreStep} (hsets : ¬ step.Sets key) (hremoves : ¬ step.Removes key)
    (hclock : now.nanos ≤ later.nanos) :
    (s.step now step).visible later key = s.visible later key := by
  rcases find?_step (s := s) hsets now with hsame | ⟨hremoved, -⟩ | hswept
  · rw [visible, hsame, visible]
  · exact absurd hremoved hremoves
  · rw [visible, hswept, filter_filter_not_expiredAt hclock, visible]

/-- What a reader does not see, only a write makes visible. -/
theorem visible_step_eq_none {step : StoreStep} (hsets : ¬ step.Sets key)
    (h : s.visible later key = none) : (s.step now step).visible later key = none := by
  rcases find?_step (s := s) hsets now with hsame | ⟨-, hgone⟩ | hswept
  · rw [visible, hsame]
    exact h
  · rw [visible, hgone]
    rfl
  · rw [visible, Option.filter_eq_none_iff] at h ⊢
    rw [hswept]
    exact fun item hitem => h item (Option.filter_eq_some_iff.1 hitem).1

/-- What is stored for good stays until the key is written or removed. -/
theorem find?_step_lasting {step : StoreStep} {value : Bytes} (hsets : ¬ step.Sets key)
    (hremoves : ¬ step.Removes key) (h : s.find? key = some (.lasting value)) :
    (s.step now step).find? key = some (.lasting value) := by
  rcases find?_step (s := s) hsets now with hsame | ⟨hremoved, -⟩ | hswept
  · exact hsame.trans h
  · exact absurd hremoved hremoves
  · rw [hswept, h]
    rfl

/-! ## Runs -/

variable {steps : List (Instant × StoreStep)} {value : Bytes}

/-- Steps that do not concern a key change nothing for those who read it later. -/
theorem visible_after (hother : ∀ step ∈ steps, ¬ step.2.Sets key ∧ ¬ step.2.Removes key)
    (hclock : ∀ step ∈ steps, step.1.nanos ≤ later.nanos) :
    (s.after steps).visible later key = s.visible later key := by
  induction steps generalizing s with
  | nil => rfl
  | cons step steps ih =>
    obtain ⟨⟨hsets, hremoves⟩, hother⟩ := List.forall_mem_cons.1 hother
    obtain ⟨hnow, hclock⟩ := List.forall_mem_cons.1 hclock
    exact (ih hother hclock).trans (visible_step hsets hremoves hnow)

/-- What is not seen once is not seen later, unless it is written. -/
theorem visible_after_eq_none (hsets : ∀ step ∈ steps, ¬ step.2.Sets key)
    (h : s.visible later key = none) : (s.after steps).visible later key = none := by
  induction steps generalizing s with
  | nil => exact h
  | cons step steps ih =>
    obtain ⟨hstep, hsets⟩ := List.forall_mem_cons.1 hsets
    exact ih hsets (visible_step_eq_none hstep h)

/-- An entry without a deadline stays while nothing sets or removes its key. -/
theorem find?_after_lasting (hother : ∀ step ∈ steps, ¬ step.2.Sets key ∧ ¬ step.2.Removes key)
    (h : s.find? key = some (.lasting value)) :
    (s.after steps).find? key = some (.lasting value) := by
  induction steps generalizing s with
  | nil => exact h
  | cons step steps ih =>
    obtain ⟨⟨hsets, hremoves⟩, hother⟩ := List.forall_mem_cons.1 hother
    exact ih hother (find?_step_lasting hsets hremoves h)

/-! ## What is listed and counted -/

/-- To remove a key takes it out of the list of keys. -/
theorem keys_delete (s : Store) (now : Instant) (key : String) :
    (s.delete now key).2.keys now = (s.keys now).filter (· != key) := by
  simp only [keys, live, delete, entries_restrict, List.filter_map]
  rw [List.filter_comm]
  rfl

/-- A key takes up one place among the live entries if a reader sees it, and none if not. -/
theorem size_eq_size_delete_add (s : Store) (now : Instant) (key : String) :
    s.size now = (s.delete now key).2.size now + if (s.get now key).isSome then 1 else 0 := by
  have herase : (s.keys now).erase key = (s.keys now).filter (· != key) :=
    (s.nodup_keys now).erase_eq_filter key
  have hseen : (s.get now key).isSome ↔ key ∈ s.keys now := by
    rw [mem_keys_iff, get_eq_map_visible, Option.isSome_map]
  rw [size_eq_length_keys, size_eq_length_keys, keys_delete, ← herase]
  by_cases hmem : key ∈ s.keys now
  · rw [if_pos (hseen.2 hmem), List.length_erase_of_mem hmem]
    have := List.length_pos_of_mem hmem
    omega
  · rw [if_neg (mt hseen.1 hmem), List.erase_of_not_mem hmem, Nat.add_zero]

/-- How long a key is visible. A value that was stored at `t` for the time `ttl` is got, listed and
counted exactly as long as the clock has not reached the end of this time, or for good if the time
is zero or ends beyond what the clock can name; calls for other keys, readings and sweeps make no
difference. A key that is not found stays so until it is set. A value that was set for good is got
at any time until the key is written or removed, whatever was stored there before. -/
theorem visibility (s : Store) (key : String) :
    (∀ (value : Bytes) (ttl : Duration) (t now : Instant) (steps : List (Instant × StoreStep)),
      (∀ step ∈ steps, ¬ step.2.Sets key ∧ ¬ step.2.Removes key) →
      (∀ step ∈ steps, step.1.nanos ≤ now.nanos) →
      let later := (s.setWithTtl t key value ttl).after steps
      (later.get now key = some value ↔
        ttl.nanos = 0 ∨ Instant.limit ≤ t.nanos + ttl.nanos ∨
          now.nanos < t.nanos + ttl.nanos) ∧
      (later.get now key ≠ some value → later.get now key = none) ∧
      (key ∈ later.keys now ↔ later.get now key = some value) ∧
      later.size now =
        (later.delete now key).2.size now + if later.get now key = some value then 1 else 0) ∧
    (∀ (now later : Instant) (steps : List (Instant × StoreStep)), now.nanos ≤ later.nanos →
      (∀ step ∈ steps, ¬ step.2.Sets key) → s.get now key = none →
      (s.after steps).get later key = none) ∧
    ∀ (value : Bytes) (now : Instant) (steps : List (Instant × StoreStep)),
      (∀ step ∈ steps, ¬ step.2.Sets key ∧ ¬ step.2.Removes key) →
      ((s.set key value).after steps).get now key = some value := by
  refine ⟨fun value ttl t now steps hother hclock => ?_,
    fun now later steps hlater hsets hnone => ?_, fun value now steps hother => ?_⟩
  · intro later
    have hvisible : later.visible now key =
        if (Item.expiring t ttl value).expiredAt now then none
        else some (.expiring t ttl value) := by
      rw [visible_after hother hclock, visible, setWithTtl, find?_put_self, Option.filter_some]
      cases (Item.expiring t ttl value).expiredAt now <;> rfl
    have hget : later.get now key =
        if (Item.expiring t ttl value).expiredAt now then none else some value := by
      rw [get_eq_map_visible, hvisible]
      split <;> rfl
    have hlisted : key ∈ later.keys now ↔ (later.get now key).isSome := by
      rw [mem_keys_iff, get_eq_map_visible, Option.isSome_map]
    have hsize := later.size_eq_size_delete_add now key
    rw [← Item.expiredAt_expiring_eq_false_iff, hlisted]
    rw [hget] at hsize ⊢
    cases hexpired : (Item.expiring t ttl value).expiredAt now with
    | false => simpa [hexpired] using hsize
    | true => simpa [hexpired] using hsize
  · rw [get_eq_map_visible, Option.map_eq_none_iff] at hnone ⊢
    refine visible_after_eq_none hsets ?_
    rw [visible, Option.filter_eq_none_iff] at hnone ⊢
    intro item hitem
    have hexpired := hnone item hitem
    simp only [Bool.not_eq_true', Bool.not_eq_false] at hexpired ⊢
    exact Item.expiredAt_mono hlater hexpired
  · have hfound : ((s.set key value).after steps).find? key = some (.lasting value) :=
      find?_after_lasting hother (s.find?_put_self key _)
    rw [get, hfound]
    rfl

/-- A value is got a nanosecond before its deadline, and not found at the deadline nor behind it;
another that is set then is got for good. -/
theorem visibility_at_deadline :
    let ttl : Duration := ⟨10, by decide⟩
    let steps : List (Instant × StoreStep) :=
      [(⟨6⟩, .call (.set "other" [2])), (⟨7⟩, .call (.get "k")), (⟨9⟩, .sweep),
        (⟨14⟩, .call (.delete "other"))]
    let later := (empty.setWithTtl ⟨5⟩ "k" [1] ttl).after steps
    (∀ step ∈ steps, ¬ step.2.Sets "k" ∧ ¬ step.2.Removes "k") ∧
      (∀ step ∈ steps, step.1.nanos ≤ 14) ∧ later.get ⟨14⟩ "k" = some [1] ∧
      later.get ⟨15⟩ "k" = none ∧ (later.after steps).get ⟨20⟩ "k" = none ∧
      ((later.set "k" [3]).after steps).get ⟨20⟩ "k" = some [3] := by
  intro ttl steps later
  have hother : ∀ step ∈ steps, ¬ step.2.Sets "k" ∧ ¬ step.2.Removes "k" := by
    simp [steps, StoreStep.Sets, StoreStep.Removes]
  have hclock : ∀ step ∈ steps, step.1.nanos ≤ 14 := by decide
  obtain ⟨hexpiring, -, -⟩ := visibility empty "k"
  obtain ⟨-, hgone, hlasting⟩ := visibility later "k"
  have hnone : later.get ⟨15⟩ "k" = none := by decide
  exact ⟨hother, hclock, (hexpiring [1] ttl ⟨5⟩ ⟨14⟩ steps hother hclock).1.2 (by decide), hnone,
    hgone ⟨15⟩ ⟨20⟩ steps (by decide) (fun step hstep => (hother step hstep).1) hnone,
    hlasting [3] ⟨20⟩ steps hother⟩

end Store

end CacheServer
