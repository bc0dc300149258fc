import CacheServer.Proofs.Store.Lookup
import Mathlib.Data.Multiset.Basic

/-!
# The store as a map of live bindings

A `LiveMap` is what the store is for its users: a finite map that holds live bindings only and
drops one at the moment the clock reaches its deadline. The store itself keeps expired entries
until they are swept. `results_eq_liveMap_results` says that no user can tell the two apart, as
long as the clock does not run backwards, and that sweeps are never noticed.

The proof is a simulation. `Agrees` relates a map and a store that show a reader the same bindings;
it is kept by time (`Agrees.later`), by every call (`Agrees.perform`) and by sweeps of the store
alone (`Agrees.sweep`).
-/

namespace CacheServer

/-- What a user can ask of the store. -/
inductive StoreCall
  | set (key : String) (value : Bytes)
  | setWithTtl (key : String) (value : Bytes) (ttl : Duration)
  | get (key : String)
  | delete (key : String)
  | purge
  | size
  | isEmpty
  | keys

/-- What a call answers. -/
inductive Outcome
  | done
  | value (found : Option Bytes)
  | flag (answer : Bool)
  | count (n : Nat)
  /-- Keys in no particular order. -/
  | names (keys : Multiset String)
  deriving DecidableEq

/-- What happens to the store: a call, or a sweep that no user asked for. -/
inductive StoreStep
  | call (call : StoreCall)
  | sweep

namespace Store

/-- What a call at `now` answers, and the store after it. -/
def perform (s : Store) (now : Instant) : StoreCall → Outcome × Store
  | .set key value => (.done, s.set key value)
  | .setWithTtl key value ttl => (.done, s.setWithTtl now key value ttl)
  | .get key => (.value (s.get now key), s)
  | .delete key => (.flag (s.delete now key).1, (s.delete now key).2)
  | .purge => (.done, s.purge)
  | .size => (.count (s.size now), s)
  | .isEmpty => (.flag (s.isEmpty now), s)
  | .keys => (.names (s.keys now), s)

/-- The answers to the calls of a run. -/
def results (s : Store) : List (Instant × StoreStep) → List Outcome
  | [] => []
  | (now, .call call) :: steps => (s.perform now call).1 :: (s.perform now call).2.results steps
  | (now, .sweep) :: steps => (s.removeExpired now).2.results steps

/-- The calls of a run, without the sweeps. -/
def calls (steps : List (Instant × StoreStep)) : List (Instant × StoreCall) :=
  steps.filterMap fun
    | (now, .call call) => some (now, call)
    | (_, .sweep) => none

end Store

/-- A finite map from keys to items. -/
abbrev LiveMap := Std.ExtTreeMap String Item

namespace LiveMap

/-- The bindings that are left when the clock shows `now`: one goes when its deadline is reached. -/
def expire (m : LiveMap) (now : Instant) : LiveMap :=
  m.filter fun _ item => item.deadline.all (now.nanos < ·.nanos)

/-- What a call at `now` answers if there are only live bindings, and the map after it. -/
def perform (m : LiveMap) (now : Instant) : StoreCall → Outcome × LiveMap
  | .set key value => (.done, m.insert key (.lasting value))
  | .setWithTtl key value ttl => (.done, m.insert key (.expiring now ttl value))
  | .get key => (.value (m[key]?.map (·.data)), m)
  | .delete key => (.flag (m.contains key), m.erase key)
  | .purge => (.done, ∅)
  | .size => (.count m.size, m)
  | .isEmpty => (.flag m.isEmpty, m)
  | .keys => (.names m.keys, m)

/-- The answers to the calls of a run. -/
def results (m : LiveMap) : List (Instant × StoreCall) → List Outcome
  | [] => []
  | (now, call) :: calls =>
    ((m.expire now).perform now call).1 :: results ((m.expire now).perform now call).2 calls

/-- The map of a store's entries. -/
def ofStore (s : Store) : LiveMap := .ofList s.entries

/-- An item is live exactly while its deadline, if it has one, lies ahead. -/
theorem all_lt_deadline (item : Item) (now : Instant) :
    item.deadline.all (now.nanos < ·.nanos) = !item.expiredAt now := by
  unfold Item.expiredAt
  cases item.deadline with
  | none => rfl
  | some deadline => simp [← decide_not]

/-- After the expiry a map has its live items. -/
@[simp] theorem getElem?_expire (m : LiveMap) (now : Instant) (key : String) :
    (m.expire now)[key]? = m[key]?.filter (!·.expiredAt now) := by
  simp only [expire, Std.ExtTreeMap.getElem?_filter', all_lt_deadline]

/-- The map of a store has what the store finds. -/
theorem getElem?_ofStore (s : Store) (key : String) : (ofStore s)[key]? = s.find? key := by
  have hdistinct : s.entries.Pairwise fun a b => ¬ compare a.1 b.1 = .eq := by
    refine (List.pairwise_map.1 s.distinct).imp fun hne => ?_
    simpa using hne
  cases h : s.find? key with
  | some item =>
    exact Std.ExtTreeMap.getElem?_ofList_of_mem (by simp) hdistinct (Store.mem_entries_iff.2 h)
  | none =>
    refine Std.ExtTreeMap.getElem?_ofList_of_contains_eq_false ?_
    rw [List.contains_eq_mem, decide_eq_false_iff_not]
    intro hmem
    obtain ⟨⟨k, item⟩, hentry, rfl⟩ := List.mem_map.1 hmem
    rw [Store.mem_entries_iff.1 hentry] at h
    cases h

/-! ## The simulation -/

/-- A map and a store that show the same bindings to every reader from `now` on. -/
def Agrees (m : LiveMap) (s : Store) (now : Instant) : Prop :=
  ∀ key, (m.expire now)[key]? = s.visible now key

/-- What has expired stays expired, so agreement lasts. -/
theorem Agrees.later {m : LiveMap} {s : Store} {now later : Instant} (h : Agrees m s now)
    (hclock : now.nanos ≤ later.nanos) : Agrees m s later := by
  intro key
  have hkey := h key
  rw [getElem?_expire, Store.visible] at hkey ⊢
  rw [← Store.filter_filter_not_expiredAt hclock, hkey, Store.filter_filter_not_expiredAt hclock]

/-- A sweep removes nothing that a reader could still see. -/
theorem Agrees.sweep {m : LiveMap} {s : Store} {now : Instant} (h : Agrees m s now) :
    Agrees m (s.removeExpired now).2 now := by
  intro key
  rw [h key, Store.visible, Store.visible, Store.removeExpired, Store.find?_restrict,
    Option.filter_filter]
  simp only [Bool.and_self]

/-- A write keeps the agreement of a map with a store. -/
theorem Agrees.put {m : LiveMap} {s : Store} {now : Instant} (h : Agrees m s now) (key : String)
    (item : Item) : Agrees (m.insert key item) (s.put key item) now := by
  intro other
  have hother := h other
  rw [getElem?_expire, Store.visible] at hother ⊢
  rw [Std.ExtTreeMap.getElem?_insert, Store.find?_put]
  simp only [Std.LawfulEqCmp.compare_eq_iff_eq, eq_comm (a := key)]
  split
  · rfl
  · exact hother

/-- A removal keeps the agreement of a map with a store. -/
theorem Agrees.delete {m : LiveMap} {s : Store} {now : Instant} (h : Agrees m s now)
    (key : String) : Agrees (m.erase key) (s.delete now key).2 now := by
  intro other
  have hother := h other
  rw [getElem?_expire, Store.visible] at hother ⊢
  rw [Std.ExtTreeMap.getElem?_erase, Store.find?_delete]
  simp only [Std.LawfulEqCmp.compare_eq_iff_eq, eq_comm (a := key)]
  split
  · rfl
  · exact hother

/-- Where the map has nothing that has expired, it lists the keys that the store lists. -/
theorem keys_perm {m : LiveMap} {s : Store} {now : Instant}
    (h : ∀ key, m[key]? = s.visible now key) : (s.keys now).Perm m.keys := by
  have hdistinct : m.keys.Nodup := by
    refine Std.ExtTreeMap.distinct_keys.imp fun hne => ?_
    simpa using hne
  rw [List.perm_ext_iff_of_nodup (s.nodup_keys now) hdistinct]
  intro key
  rw [Store.mem_keys_iff, Std.ExtTreeMap.mem_keys, Std.ExtTreeMap.mem_iff_isSome_getElem?, h key]

/-- A call is answered alike by a map and a store that agree, and they agree after it. -/
theorem Agrees.perform {m : LiveMap} {s : Store} {now : Instant} (h : Agrees m s now)
    (call : StoreCall) :
    (s.perform now call).1 = ((m.expire now).perform now call).1 ∧
      Agrees ((m.expire now).perform now call).2 (s.perform now call).2 now := by
  have hlive : Agrees (m.expire now) s now := fun key => by
    rw [← h key, getElem?_expire, getElem?_expire, Option.filter_filter]
    simp only [Bool.and_self]
  have hsize : s.size now = (m.expire now).size := by
    rw [Store.size_eq_length_keys, (keys_perm h).length_eq, Std.ExtTreeMap.length_keys]
  cases call with
  | set key value => exact ⟨rfl, hlive.put key _⟩
  | setWithTtl key value ttl => exact ⟨rfl, hlive.put key _⟩
  | get key =>
    refine ⟨?_, hlive⟩
    show Outcome.value (s.get now key) = .value ((m.expire now)[key]?.map (·.data))
    rw [h key, Store.get_eq_map_visible]
  | delete key =>
    refine ⟨?_, hlive.delete key⟩
    show Outcome.flag (s.delete now key).1 = .flag ((m.expire now).contains key)
    rw [Std.ExtTreeMap.contains_eq_isSome_getElem?, h key, Store.delete_eq]
  | purge => exact ⟨rfl, fun key => rfl⟩
  | size => exact ⟨congrArg Outcome.count hsize, hlive⟩
  | isEmpty =>
    refine ⟨?_, hlive⟩
    show Outcome.flag (s.isEmpty now) = .flag (m.expire now).isEmpty
    rw [Store.isEmpty, hsize, Std.ExtTreeMap.isEmpty_eq_size_beq_zero]
  | keys => exact ⟨congrArg Outcome.names (Multiset.coe_eq_coe.2 (keys_perm h)), hlive⟩

/-- From agreement on, a run is answered as the map answers its calls. -/
theorem Agrees.results {m : LiveMap} {s : Store} {now : Instant}
    {steps : List (Instant × StoreStep)} (h : Agrees m s now)
    (hstart : ∀ step ∈ steps, now.nanos ≤ step.1.nanos)
    (hclock : steps.Pairwise fun a b => a.1.nanos ≤ b.1.nanos) :
    s.results steps = m.results (Store.calls steps) := by
  induction steps generalizing m s now with
  | nil => rfl
  | cons step steps ih =>
    obtain ⟨later, event⟩ := step
    obtain ⟨hnow, hstart⟩ := List.forall_mem_cons.1 hstart
    obtain ⟨hlater, hsteps⟩ := List.pairwise_cons.1 hclock
    have hat := h.later hnow
    cases event with
    | call call =>
      obtain ⟨hanswer, hafter⟩ := hat.perform call
      show _ :: _ = _ :: _
      rw [hanswer, ih hafter hlater hsteps]
      rfl
    | sweep => exact ih hat.sweep hlater hsteps

/-- A store agrees with its own map. -/
theorem agrees_ofStore (s : Store) (now : Instant) : Agrees (ofStore s) s now := fun key => by
  rw [getElem?_expire, getElem?_ofStore, Store.visible]

/-- A store answers the calls of a run as the map of its entries does. -/
theorem results_ofStore (s : Store) {steps : List (Instant × StoreStep)}
    (hclock : steps.Pairwise fun a b => a.1.nanos ≤ b.1.nanos) :
    s.results steps = (ofStore s).results (Store.calls steps) := by
  cases steps with
  | nil => rfl
  | cons step steps =>
    refine (agrees_ofStore s step.1).results ?_ hclock
    exact List.forall_mem_cons.2 ⟨Nat.le_refl _, (List.pairwise_cons.1 hclock).1⟩

end LiveMap

/-! ## What a sweep does -/

namespace Store

/-- An item has expired exactly if it has a deadline that the clock has reached. -/
theorem expiredAt_iff {item : Item} {now : Instant} :
    item.expiredAt now = true ↔ ∃ deadline ∈ item.deadline, deadline.nanos ≤ now.nanos := by
  unfold Item.expiredAt
  cases item.deadline with
  | none => simp
  | some deadline => simp

/-- A sweep tells how many entries have expired. -/
theorem removeExpired_fst (s : Store) (now : Instant) :
    (s.removeExpired now).1 = s.entries.countP fun e => e.2.expiredAt now := by
  have hlength := List.length_eq_countP_add_countP (fun e => e.2.expiredAt now) (l := s.entries)
  simp only [removeExpired, entries_restrict, ← List.countP_eq_length_filter]
  simp only [Bool.not_eq_true, Bool.decide_eq_false] at hlength
  omega

/-- Another sweep at the same reading finds nothing to remove. -/
theorem removeExpired_removeExpired (s : Store) (now : Instant) :
    ((s.removeExpired now).2.removeExpired now).1 = 0 := by
  rw [removeExpired_fst, List.countP_eq_zero]
  intro e he
  simpa using (List.mem_filter.1 he).2

end Store

/-- While the clock does not run backwards, a store answers every call as a map of live bindings
does, and sweeps, wherever they are put in or left out, change no answer. A sweep counts the
entries whose deadline the clock has reached, leaves exactly the others, and leaves nothing for
another sweep at the same reading. -/
theorem results_eq_liveMap_results (s : Store) {steps : List (Instant × StoreStep)}
    (hclock : steps.Pairwise fun a b => a.1.nanos ≤ b.1.nanos) :
    s.results steps = (LiveMap.ofStore s).results (Store.calls steps) ∧
      (∀ steps' : List (Instant × StoreStep),
        (steps'.Pairwise fun a b => a.1.nanos ≤ b.1.nanos) →
        Store.calls steps' = Store.calls steps → s.results steps' = s.results steps) ∧
      ∀ (t : Store) (now : Instant),
        (t.keys now).Nodup ∧
        (t.removeExpired now).1 =
          t.entries.countP (fun e => ∃ deadline ∈ e.2.deadline, deadline.nanos ≤ now.nanos) ∧
        (∀ key item, (t.removeExpired now).2.find? key = some item ↔
          t.find? key = some item ∧ ∀ deadline ∈ item.deadline, now.nanos < deadline.nanos) ∧
        ((t.removeExpired now).2.removeExpired now).1 = 0 := by
  refine ⟨LiveMap.results_ofStore s hclock, fun steps' hclock' hcalls => ?_, fun t now =>
    ⟨t.nodup_keys now, ?_, fun key item => ?_, t.removeExpired_removeExpired now⟩⟩
  · rw [LiveMap.results_ofStore s hclock, LiveMap.results_ofStore s hclock', hcalls]
  · rw [Store.removeExpired_fst]
    congr 1
    funext e
    rw [Bool.eq_iff_iff, Store.expiredAt_iff, decide_eq_true_eq]
  · rw [Store.removeExpired, Store.find?_restrict, Option.filter_eq_some_iff]
    simp only [Bool.not_eq_true', ← Bool.not_eq_true, Store.expiredAt_iff, not_exists, not_and,
      Nat.not_le]

/-- An entry is read before its deadline, and at its deadline it is gone, swept or not. -/
theorem liveMap_results_of_expiring_entry :
    let steps : List (Instant × StoreStep) :=
      [(⟨0⟩, .call (.setWithTtl "k" [1] ⟨10, by decide⟩)), (⟨9⟩, .call (.get "k")),
        (⟨10⟩, .call .size), (⟨12⟩, .sweep), (⟨12⟩, .call (.delete "k")), (⟨13⟩, .call .keys)]
    (steps.Pairwise fun a b => a.1.nanos ≤ b.1.nanos) ∧
      (LiveMap.ofStore .empty).results (Store.calls steps) =
        [.done, .value (some [1]), .count 0, .flag false, .names 0] := by
  intro steps
  have hclock : steps.Pairwise fun a b => a.1.nanos ≤ b.1.nanos := by decide
  exact ⟨hclock, (results_eq_liveMap_results .empty hclock).1.symm.trans (by decide)⟩

end CacheServer
