import CacheServer.Proofs.History

/-!
# What a step leaves alone

The store of entries is looked at as it is, with the expired entries that no reader sees and with
all deadlines. `Step.store_apply` says what one step does to it: a step that is not answered as a
success, and one that only reads, does nothing at all; a `SET` writes the entry of its key, a
`DELETE` removes the entry of its key, and a `PURGE` removes every entry.

A step is a success by its answer alone (`Step.Succeeds`), and its verb is what its bytes say
(`Step.Names`). Together they decide which write it performs (`Step.exists_performs`).
-/

namespace CacheServer

open Protocol

/-- The verb that a write is made with. -/
def Write.verb : Write → Verb
  | set _ _ => .set
  | delete _ => .delete
  | purge => .purge

namespace Step

/-- Whether a step names a verb: the message in its header, the request by its path, if the method
is the one of the route. -/
def Names (step : Step) (v : Verb) : Prop :=
  match step with
  | message _ bytes => ∃ r, Request.parse bytes = .ok r ∧ r.verb = some v
  | request _ r => ∃ route, Http.Route.Serves (Http.Route.path r.target) route ∧
      r.method = route.method ∧ route.verb? = some v

/-- Whether a step is answered as a success: the status of the response is `OK`, that of the reply
is 200. -/
def Succeeds (cache : Cache) (step : Step) : Prop :=
  match step with
  | message reading bytes => (Native.execute cache reading bytes).2.1.ok = true
  | request now r => (Http.answer cache now r).2.status = 200

variable {cache : Cache} {step : Step} {v : Verb} {w : Write}

/-- A step names at most one verb. -/
theorem Names.unique {v' : Verb} (h : step.Names v) (h' : step.Names v') : v = v' := by
  cases step with
  | message reading bytes =>
    obtain ⟨r, hparse, hverb⟩ := h
    obtain ⟨r', hparse', hverb'⟩ := h'
    cases hparse.symm.trans hparse'
    exact Option.some.inj (hverb.symm.trans hverb')
  | request now r =>
    obtain ⟨route, hpath, -, hverb⟩ := h
    obtain ⟨route', hpath', -, hverb'⟩ := h'
    cases hpath.unique hpath'
    exact Option.some.inj (hverb.symm.trans hverb')

/-- A write is performed with the verb that the step names. -/
theorem names_of_performs (h : step.Performs w) : step.Names w.verb := by
  cases step with
  | message reading bytes =>
    cases h with
    | set hparse | delete hparse | purge hparse => exact ⟨_, hparse, rfl⟩
  | request now r =>
    cases h with
    | set hpath hmethod | delete hpath hmethod | purge hpath hmethod =>
      exact ⟨_, hpath, hmethod, rfl⟩

/-- A step that performs a write succeeds. -/
theorem succeeds_of_performs (cache : Cache) (h : step.Performs w) : step.Succeeds cache := by
  cases step with
  | message reading bytes => exact (Native.execute_of_performs h).2.1
  | request now r => exact (Http.answer_of_performs h).2

/-- A step with a verb that writes is answered as a success only if it performs a write. -/
theorem exists_performs (hsucceeds : step.Succeeds cache) (hnames : step.Names v)
    (hv : v ∈ [Verb.set, .delete, .purge]) : ∃ w, step.Performs w ∧ w.verb = v := by
  suffices hperforms : ∃ w, step.Performs w by
    obtain ⟨w, hw⟩ := hperforms
    exact ⟨w, hw, (names_of_performs hw).unique hnames⟩
  by_contra hnone
  rw [not_exists] at hnone
  cases step with
  | message reading bytes =>
    obtain ⟨r, hparse, hverb⟩ := hnames
    refine (Native.execute_of_not_performs hnone).2 ⟨hsucceeds, ?_⟩
    rw [(Native.execute_of_parse cache reading hparse hverb).2, Native.verb_perform]
    simpa using hv
  | request now r =>
    obtain ⟨route, -, hmethod, hverb⟩ := hnames
    rcases (Http.answer_of_not_performs hnone).2 with hget | hstatus
    · exact Http.Route.method_ne_get hverb hv (hmethod ▸ hget)
    · rw [Succeeds] at hsucceeds
      rw [hsucceeds] at hstatus
      exact absurd hstatus (by decide)


/-! ## What a step does to the entries -/

/-- A step that does not succeed leaves the store. -/
theorem store_of_not_succeeds (h : ¬ step.Succeeds cache) :
    (step.apply cache).store = cache.store :=
  store_of_not_performs fun _ hw => h (succeeds_of_performs cache hw)

/-- A step whose verb only reads performs no write, whatever it is answered. -/
theorem store_of_reads (h : step.Names v) (hv : v ∉ [Verb.set, .delete, .purge]) :
    (step.apply cache).store = cache.store := by
  refine store_of_not_performs fun w hw => hv ?_
  rw [h.unique (names_of_performs hw)]
  cases w <;> simp [Write.verb]

/-- A request for the metrics performs no write. -/
theorem store_of_metrics {now : Instant} {r : Http.Request}
    (h : Http.Route.Serves (Http.Route.path r.target) .metrics) :
    ((request now r).apply cache).store = cache.store := by
  refine store_of_not_performs fun w hw => ?_
  obtain ⟨route, hpath, -, hverb⟩ := names_of_performs hw
  rw [hpath.unique h] at hverb
  cases hverb

/-- A step that is not answered as a success, or that only reads, leaves every entry as it is, the
expired ones included. A successful `SET` writes the entry of its key, with the bytes it was given
and without a deadline, and leaves every other; a successful `DELETE` removes the entry of its key
and leaves every other; a successful `PURGE` leaves no entry. -/
theorem store_apply (cache : Cache) (step : Step) :
    let before := cache.store
    let after := (step.apply cache).store
    (¬ step.Succeeds cache → after = before) ∧
    (∀ v ∈ [Verb.get, .length, .keys, .ping, .close], step.Names v → after = before) ∧
    (∀ now r, step = .request now r → Http.Route.Serves (Http.Route.path r.target) .metrics →
      after = before) ∧
    (step.Succeeds cache → step.Names .set → ∃ key value, step.Performs (.set key value) ∧
      ∀ other, after.find? other = if other = key then some ⟨value, none⟩ else before.find? other) ∧
    (step.Succeeds cache → step.Names .delete → ∃ key, step.Performs (.delete key) ∧
      ∀ other, after.find? other = if other = key then none else before.find? other) ∧
    (step.Succeeds cache → step.Names .purge → after.entries = []) := by
  intro before after
  refine ⟨store_of_not_succeeds, fun v hv hnames => ?_, ?_, fun hsucceeds hnames => ?_,
    fun hsucceeds hnames => ?_, fun hsucceeds hnames => ?_⟩
  · exact store_of_reads hnames (by cases v <;> simp at hv ⊢)
  · rintro now r rfl hpath
    exact store_of_metrics hpath
  · obtain ⟨w, hw, hverb⟩ := exists_performs hsucceeds hnames (by simp)
    cases w with
    | set key value =>
      refine ⟨key, value, hw, fun other => ?_⟩
      rw [show after = before.set key value from store_of_performs hw]
      exact Store.find?_put before key other _
    | delete | purge => cases hverb
  · obtain ⟨w, hw, hverb⟩ := exists_performs hsucceeds hnames (by simp)
    cases w with
    | delete key =>
      refine ⟨key, hw, fun other => ?_⟩
      rw [show after = (before.delete ⟨0⟩ key).2 from store_of_performs hw]
      exact Store.find?_delete before ⟨0⟩ key other
    | set | purge => cases hverb
  · obtain ⟨w, hw, hverb⟩ := exists_performs hsucceeds hnames (by simp)
    cases w with
    | purge => rw [show after = .empty from store_of_performs hw]; rfl
    | set | delete => cases hverb

/-- A refused body leaves an expired entry where it is, and a `SET` of another key does too. -/
theorem store_apply_beside_expired :
    let cache : Cache := ⟨Store.empty.setWithTtl ⟨0⟩ "old" [1] ⟨1, by decide⟩, .initial⟩
    let refused : Step := .request ⟨5⟩ ⟨"PUT", "/SET/k", Bytes.ofText "\x7b\x7d"⟩
    let setting : Step := .message ⟨⟨5⟩, 0⟩ (Request.encode ⟨some .set, some "k", some [2]⟩)
    ¬ refused.Succeeds cache ∧ (refused.apply cache).store = cache.store ∧
      setting.Succeeds cache ∧ setting.Names .set ∧
      (setting.apply cache).store.find? "old" = some ⟨[1], some ⟨1⟩⟩ := by
  intro cache refused setting
  have hrefused : ¬ refused.Succeeds cache := by
    show ¬ (Http.answer cache ⟨5⟩ ⟨"PUT", "/SET/k", Bytes.ofText "\x7b\x7d"⟩).2.status = 200
    decide
  have hsucceeds : setting.Succeeds cache := by
    show (Native.execute cache ⟨⟨5⟩, 0⟩ _).2.1.ok = true
    decide
  have hnames : setting.Names .set := ⟨⟨some .set, some "k", some [2]⟩, by decide, rfl⟩
  refine ⟨hrefused, (store_apply cache refused).1 hrefused, hsucceeds, hnames, ?_⟩
  obtain ⟨key, value, hperforms, hfind⟩ := (store_apply cache setting).2.2.2.1 hsucceeds hnames
  have hkey : "old" ≠ key := by
    cases hperforms with
    | set hparse =>
      have hread : Request.parse (Request.encode ⟨some .set, some "k", some [2]⟩) =
          .ok ⟨some .set, some "k", some [2]⟩ := by decide
      cases hread.symm.trans hparse
      decide
  rw [hfind "old", if_neg hkey]
  decide

end Step

end CacheServer
