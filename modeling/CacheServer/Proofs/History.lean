import CacheServer.Proofs.Write

/-!
# Histories

Native messages and requests over HTTP arrive in any order and work on one cache. Which of them
write, and what, is decided by their bytes alone (`Step.Performs`), so a history determines what is
stored. `LastSet` says of a history that the last write that affects a key set it to a value.
`execute_get_after_iff` says that a `GET` answers exactly that value, and that what performs no
write on the key is not noticed.

The proof goes along the history from its end. One step either writes the key, and then nothing
before it counts, or leaves the key's entry as it is.
-/

namespace CacheServer

open Protocol

/-- What reaches the cache from one of the interfaces. -/
inductive Step
  | message (reading : Reading) (bytes : Bytes)
  | request (now : Instant) (request : Http.Request)

namespace Step

/-- Whether a step performs a write. -/
def Performs (step : Step) (w : Write) : Prop :=
  match step with
  | message _ bytes => Native.Performs bytes w
  | request _ r => Http.Performs r w

/-- The cache after a step. -/
def apply (cache : Cache) : Step → Cache
  | message reading bytes => (Native.execute cache reading bytes).1
  | request now r => (Http.answer cache now r).1

variable {cache : Cache} {step : Step} {key : String} {value : Bytes}

/-- A step that performs a write does this to the store. -/
theorem store_of_performs {w : Write} (h : step.Performs w) :
    (step.apply cache).store = w.apply cache.store := by
  cases step with
  | message reading bytes => exact (Native.execute_of_performs h).1
  | request now r => exact (Http.answer_of_performs h).1

/-- A step that performs no write leaves the store. -/
theorem store_of_not_performs (h : ∀ w, ¬ step.Performs w) :
    (step.apply cache).store = cache.store := by
  cases step with
  | message reading bytes => exact (Native.execute_of_not_performs h).1
  | request now r => exact (Http.answer_of_not_performs h).1

/-- A step writes a key or performs no write that affects it. -/
theorem affects_or_not (step : Step) (key : String) :
    (∃ w, step.Performs w ∧ w.Affects key) ∨ ∀ w, step.Performs w → ¬ w.Affects key := by
  by_cases h : ∃ w, step.Performs w ∧ w.Affects key
  · exact .inl h
  · exact .inr fun w hw hkey => h ⟨w, hw, hkey⟩

/-- What a step sets is found after it. -/
theorem find?_of_performs_set (h : step.Performs (.set key value)) :
    (step.apply cache).store.find? key = some (.lasting value) := by
  rw [store_of_performs h]
  exact Write.find?_apply_set cache.store key value

/-- A step that affects a key without setting it leaves nothing there. -/
theorem find?_of_affects {w : Write} (h : step.Performs w) (haffects : w.Affects key)
    (hset : ∀ value, ¬ step.Performs (.set key value)) :
    (step.apply cache).store.find? key = none := by
  rw [store_of_performs h]
  refine Write.find?_apply_of_affects haffects fun value hw => ?_
  rw [hw] at h
  exact hset value h

/-- A step that does not affect a key leaves what is stored there. -/
theorem find?_of_not_affects (h : ∀ w, step.Performs w → ¬ w.Affects key) :
    (step.apply cache).store.find? key = cache.store.find? key := by
  by_cases hwrites : ∃ w, step.Performs w
  · obtain ⟨w, hw⟩ := hwrites
    rw [store_of_performs hw]
    exact Write.find?_apply_of_not_affects (h w hw)
  · rw [store_of_not_performs fun w hw => hwrites ⟨w, hw⟩]

end Step

/-- The cache after a history. -/
def Cache.after (cache : Cache) (history : List Step) : Cache :=
  history.foldl (fun c step => step.apply c) cache

/-- Steps behind others start from what these leave. -/
theorem Cache.after_append (cache : Cache) (earlier later : List Step) :
    cache.after (earlier ++ later) = (cache.after earlier).after later :=
  List.foldl_append

/-- Whether the last write of a history that affects a key sets it to a value. -/
def LastSet (history : List Step) (key : String) (value : Bytes) : Prop :=
  ∃ (earlier : List Step) (step : Step) (later : List Step),
    history = earlier ++ step :: later ∧ step.Performs (.set key value) ∧
      ∀ other ∈ later, ∀ w, other.Performs w → ¬ w.Affects key

variable {cache : Cache} {history : List Step} {step : Step} {key : String} {value : Bytes}

/-- Nothing has been set before the first step. -/
theorem not_lastSet_nil : ¬ LastSet [] key value := by
  rintro ⟨earlier, step, later, h, -⟩
  exact absurd h.symm (by simp)

/-- Behind a step that affects a key, only that step counts. -/
theorem lastSet_append_of_affects {w : Write} (h : step.Performs w) (haffects : w.Affects key) :
    LastSet (history ++ [step]) key value ↔ step.Performs (.set key value) := by
  constructor
  · rintro ⟨earlier, last, later, heq, hset, hlater⟩
    rcases append_singleton_eq_append_cons heq with ⟨-, rfl, -⟩ | ⟨front, rfl, -⟩
    · exact hset
    · exact absurd haffects (hlater step (by simp) w h)
  · intro hset
    exact ⟨history, step, [], rfl, hset, by simp⟩

/-- A step that does not affect a key does not count. -/
theorem lastSet_append_of_not_affects (h : ∀ w, step.Performs w → ¬ w.Affects key) :
    LastSet (history ++ [step]) key value ↔ LastSet history key value := by
  constructor
  · rintro ⟨earlier, last, later, heq, hset, hlater⟩
    rcases append_singleton_eq_append_cons heq with ⟨-, rfl, -⟩ | ⟨front, rfl, hhistory⟩
    · exact absurd rfl (h _ hset)
    · exact ⟨earlier, last, front, hhistory, hset, fun other hother =>
        hlater other (List.mem_append_left _ hother)⟩
  · rintro ⟨earlier, last, later, rfl, hset, hlater⟩
    refine ⟨earlier, last, later ++ [step], by simp, hset, fun other hother => ?_⟩
    rcases List.mem_append.1 hother with hother | hother
    · exact hlater other hother
    · obtain rfl := List.mem_singleton.1 hother
      exact h

/-- A step that does not affect a key can be left out, wherever it stands. -/
theorem lastSet_leave_out {earlier later : List Step}
    (h : ∀ w, step.Performs w → ¬ w.Affects key) :
    LastSet (earlier ++ step :: later) key value ↔ LastSet (earlier ++ later) key value := by
  induction later using List.reverseRecOn with
  | nil =>
    rw [List.append_nil]
    exact lastSet_append_of_not_affects h
  | append_singleton later last ih =>
    rw [← List.cons_append, ← List.append_assoc, ← List.append_assoc]
    rcases last.affects_or_not key with ⟨w, hw, hkey⟩ | hnot
    · rw [lastSet_append_of_affects hw hkey, lastSet_append_of_affects hw hkey]
    · rw [lastSet_append_of_not_affects hnot, lastSet_append_of_not_affects hnot, ih]

/-! ## What is stored, and what is answered -/

/-- What is stored after a history that starts with nothing stored. -/
theorem find?_after_eq_some_iff {metrics : Metrics} {item : Item} :
    ((Cache.mk .empty metrics).after history).store.find? key = some item ↔
      ∃ value, item = .lasting value ∧ LastSet history key value := by
  induction history using List.reverseRecOn with
  | nil =>
    have hnone : ¬ ∃ value, item = .lasting value ∧ LastSet [] key value :=
      fun ⟨_, _, h⟩ => not_lastSet_nil h
    exact iff_of_false (by simp [Cache.after, Store.find?_empty]) hnone
  | append_singleton earlier step ih =>
    rw [Cache.after_append]
    show (step.apply _).store.find? key = _ ↔ _
    rcases step.affects_or_not key with ⟨w, hw, hkey⟩ | hnot
    · simp only [lastSet_append_of_affects hw hkey]
      by_cases hset : ∃ value, step.Performs (.set key value)
      · obtain ⟨value, hset⟩ := hset
        constructor
        · intro h
          rw [Step.find?_of_performs_set hset] at h
          exact ⟨value, (Option.some.inj h).symm, hset⟩
        · rintro ⟨value', rfl, hset'⟩
          exact Step.find?_of_performs_set hset'
      · rw [Step.find?_of_affects hw hkey fun value h => hset ⟨value, h⟩]
        exact iff_of_false nofun fun ⟨value, _, h⟩ => hset ⟨value, h⟩
    · rw [Step.find?_of_not_affects hnot, ih]
      simp only [lastSet_append_of_not_affects hnot]

/-- What is got after a history that starts with nothing stored; nothing ever expires. -/
theorem get_after_eq_some_iff {metrics : Metrics} (now : Instant) :
    ((Cache.mk .empty metrics).after history).store.get now key = some value ↔
      LastSet history key value := by
  rw [Store.get, Option.map_eq_some_iff]
  constructor
  · rintro ⟨item, hitem, rfl⟩
    have hfound := (Option.filter_eq_some_iff.1 hitem).1
    obtain ⟨value, rfl, hset⟩ := find?_after_eq_some_iff.1 hfound
    exact hset
  · intro hset
    refine ⟨.lasting value, Option.filter_eq_some_iff.2 ⟨?_, rfl⟩, rfl⟩
    exact find?_after_eq_some_iff.2 ⟨value, rfl, hset⟩

/-- A `GET` after a history answers the value to which the last write that affects the key has set
it, and `Not found` if there is none. A step that does not affect the key can be left out of the
history without changing the answer. -/
theorem execute_get_after_iff (metrics : Metrics) (history : List Step) (reading : Reading)
    {message : Bytes} {key : String} {given : Option Bytes}
    (hget : Request.parse message = .ok ⟨some .get, some key, given⟩) (hkey : key ≠ "")
    (hgiven : ∀ v ∈ given, v = []) :
    let reply (history : List Step) : Response :=
      (Native.execute ((Cache.mk .empty metrics).after history) reading message).2.1
    (∀ value, reply history = ⟨some .get, true, none, some key, some value⟩ ↔
        LastSet history key value) ∧
      ((∀ value, ¬ LastSet history key value) →
        reply history = ⟨some .get, false, some "Not found", some key, none⟩) ∧
      ∀ (earlier : List Step) (step : Step) (later : List Step),
        history = earlier ++ step :: later → (∀ w, step.Performs w → ¬ w.Affects key) →
        reply (earlier ++ later) = reply history := by
  intro reply
  have hreply : ∀ history, reply history = Native.getReply key
      (((Cache.mk .empty metrics).after history).store.get reading.now key) := fun history =>
    (Native.execute_get hget hkey hgiven).2
  refine ⟨fun value => ?_, fun hnone => ?_, fun earlier step later hhistory hstep => ?_⟩
  · rw [hreply, ← get_after_eq_some_iff reading.now]
    cases ((Cache.mk .empty metrics).after history).store.get reading.now key with
    | none => simp [Native.getReply, Response.rejection]
    | some found => simp [Native.getReply, Response.success]
  · have hget : ((Cache.mk .empty metrics).after history).store.get reading.now key = none := by
      rw [Option.eq_none_iff_forall_ne_some]
      exact fun value hvalue => hnone value ((get_after_eq_some_iff reading.now).1 hvalue)
    rw [hreply, hget]
    rfl
  · rw [hreply, hreply]
    congr 1
    ext value
    rw [get_after_eq_some_iff, get_after_eq_some_iff, hhistory, lastSet_leave_out hstep]

/-- A value that was set by a message and then over HTTP; what came after it was refused. -/
theorem execute_get_after_put :
    let first := Request.encode ⟨some .set, some "k", some [1]⟩
    let put : Http.Request := ⟨"PUT", "/SET/k?x", Bytes.ofText "\x7b\"value\":\"2\"\x7d"⟩
    let misrouted : Http.Request := ⟨"GET", "/DELETE/k", []⟩
    let getting := Request.encode ⟨some .get, some "k", none⟩
    let history : List Step :=
      [.message ⟨⟨0⟩, 0⟩ first, .request ⟨5⟩ put, .message ⟨⟨7⟩, 0⟩ [], .request ⟨9⟩ misrouted]
    Request.parse getting = .ok ⟨some .get, some "k", none⟩ ∧ "k" ≠ "" ∧
      (∀ v ∈ (none : Option Bytes), v = []) ∧
      (Native.execute (Cache.initial.after history) ⟨⟨9⟩, 0⟩ getting).2.1 =
        ⟨some .get, true, none, some "k", some (Bytes.ofText "2")⟩ := by
  intro first put misrouted getting history
  have hget : Request.parse getting = .ok ⟨some .get, some "k", none⟩ := by decide
  have hkey : "k" ≠ "" := by decide
  have hput : Http.Performs put (.set "k" (Bytes.ofText "2")) :=
    .set (Http.Route.ofTarget?_eq_some_iff.1 (by decide)) rfl hkey (by decide) (by decide)
  have hempty : Request.parse [] = .error .malformedRequest := by decide
  have hlast : LastSet history "k" (Bytes.ofText "2") := by
    refine ⟨[.message ⟨⟨0⟩, 0⟩ first], .request ⟨5⟩ put, _, rfl, hput, fun other hother w hw => ?_⟩
    rcases List.mem_pair.1 hother with rfl | rfl
    · exact absurd hw (Native.not_performs_of_error hempty w)
    · exact absurd hw (Http.not_performs_of_get rfl w)
  exact ⟨hget, hkey, nofun,
    ((execute_get_after_iff .initial history ⟨⟨9⟩, 0⟩ hget hkey nofun).1 _).2 hlast⟩

end CacheServer
