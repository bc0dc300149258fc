import CacheServer.Proofs.Store.Expiry
import CacheServer.Proofs.Store.LiveMap
import CacheServer.Proofs.Store.Schedule

/-!
# Runs with a background sweeper

A run with a sweeper is compared with the same run without one: the store is at any time the one of
the run without sweeps less the entries that had expired at one of them (`Shadows`). So nobody who
reads the store sees a difference, and what sweeps have removed can be counted (`sweeps_outcome`).
-/

namespace CacheServer

/-! ## Steps -/

namespace SweepStep

/-- Whether a step starts a sweeper. -/
def starts : SweepStep → Bool
  | startWith _ => true
  | _ => false

/-- What the store's clock shows after a step that begins at `now`. -/
def clockAfter (plan : SweepPlan) (now : Instant) : SweepStep → Instant
  | sleep nanos => ⟨now.nanos + plan.pace * nanos⟩
  | linger nanos => ⟨now.nanos + nanos⟩
  | _ => now

/-- The key that a step sets. -/
def key? : SweepStep → Option String
  | set key _ _ => some key
  | _ => none

/-- The entry that a step writes when the clock shows `now`. -/
def entry? (now : Instant) : SweepStep → Option (String × Item)
  | set key value ttl => some (key, .expiring now ttl value)
  | _ => none

/-- Writes what a step writes, and does nothing else. -/
def write (now : Instant) (store : Store) (s : SweepStep) : Store :=
  (s.entry? now).elim store fun e => store.put e.1 e.2

/-- Writing leaves the entries of the other keys. -/
theorem find?_write (now : Instant) (store : Store) {s : SweepStep} {key : String}
    (h : s.key? ≠ some key) : (s.write now store).find? key = store.find? key := by
  cases s with
  | set other value ttl => exact store.find?_put_of_ne _ fun heq => h (congrArg some heq.symm)
  | _ => rfl

end SweepStep

namespace SweepRun

section
variable {plan : SweepPlan} {run : SweepRun} {steps : List SweepStep} {s : SweepStep}

/-- The store's clock behind a step does not depend on the tasks. -/
theorem Ordered.clock_step (h : run.Ordered plan) (s : SweepStep) :
    (run.step plan s).clock = s.clockAfter plan run.clock := by
  cases s with
  | sleep nanos =>
    have hclock : (run.step plan (.sleep nanos)).clock = _ := clock_sleep h.led nanos
    rw [hclock]
    simp [readingAt, SweepStep.clockAfter]
  | _ => rfl

/-! ## Without a running sweeper -/

/-- No sweeper is running: the tokens of all that were started are cancelled. -/
def Idle (run : SweepRun) : Prop := ∀ task ∈ run.tasks, task.cancelled = true

/-- Behind a stop no sweeper runs. -/
theorem Ordered.idle_stop (h : run.Ordered plan) : (run.step plan .stop).Idle := h.led.cancel

/-- To cancel a token twice is to cancel it once. -/
theorem cancel_cancel (run : SweepRun) : run.cancel.cancel = run.cancel := by
  obtain ⟨_, _, _, tasks, _ | i, _, _⟩ := run
  · rfl
  · have htasks : (tasks.modify i SweepTask.cancel).modify i SweepTask.cancel =
        tasks.modify i SweepTask.cancel := List.modify_modify_eq ..
    simp only [cancel, Option.elim_some, htasks]

/-- Without a running sweeper, nothing happens in a sleep but that time passes. -/
theorem Idle.sleep_eq (h : run.Idle) (nanos : Nat) : run.sleep plan nanos =
    run.moved (run.timer + nanos) (readingAt plan run (run.timer + nanos))
      (asleep plan run nanos) := by
  have hled : Led plan run none := .idle h
  rw [SweepRun.sleep_eq hled, due, hled.awaitedTick_eq]
  rfl

/-- Without a running sweeper, a step that starts none does nothing to the store but write. -/
theorem Idle.step (plan : SweepPlan) (h : run.Idle) (hs : s.starts = false) :
    (run.step plan s).Idle ∧ (run.step plan s).sweeps = run.sweeps ∧
      (run.step plan s).store = s.write run.clock run.store := by
  have hled : Led plan run none := .idle h
  cases s with
  | set | linger => exact ⟨h, rfl, rfl⟩
  | startWith counted => exact absurd hs Bool.noConfusion
  | stop | drop => exact ⟨hled.cancel, rfl, rfl⟩
  | sleep nanos =>
    have hsleep : run.step plan (.sleep nanos) = _ := h.sleep_eq nanos
    refine ⟨?_, by rw [hsleep]; rfl, by rw [hsleep]; rfl⟩
    cases hled.sleep nanos with
    | idle hcancelled => exact hcancelled

/-- Without a running sweeper, entries stay as they are until they are overwritten. -/
theorem Idle.after (plan : SweepPlan) (h : run.Idle) (hsteps : ∀ s ∈ steps, s.starts = false) :
    (run.after plan steps).sweeps = run.sweeps ∧
    ∀ key, (∀ s ∈ steps, s.key? ≠ some key) →
      (run.after plan steps).store.find? key = run.store.find? key := by
  induction steps generalizing run with
  | nil => exact ⟨rfl, fun _ _ => rfl⟩
  | cons s steps ih =>
    obtain ⟨hs, hsteps⟩ := List.forall_mem_cons.1 hsteps
    obtain ⟨hidle, hsweeps, hstore⟩ := h.step plan hs
    obtain ⟨hsweeps', hfind⟩ := ih hidle hsteps
    refine ⟨hsweeps'.trans hsweeps, fun key hkey => ?_⟩
    obtain ⟨hother, hothers⟩ := List.forall_mem_cons.1 hkey
    rw [← s.find?_write run.clock run.store hother, ← hstore]
    exact hfind key hothers

/-! ## The run without a sweeper -/

/-- What a run with a sweeper has in common with the same run without one: the clock, and the
entries that had not expired at any sweep. -/
structure Shadows (run bare : SweepRun) : Prop where
  clock : run.clock = bare.clock
  unswept : bare.tasks = [] ∧ bare.sweeps = []
  store : run.store = bare.store.restrict fun e =>
    run.instants.all fun instant => !e.2.expiredAt instant.2
  timer : run.timer = bare.timer

variable {bare : SweepRun}

/-- A run at its beginning shadows itself. -/
theorem shadows_initial (clock : Instant) : Shadows (initial clock) (initial clock) :=
  ⟨rfl, ⟨rfl, rfl⟩, rfl, rfl⟩

/-- An item has not expired before it is written. -/
theorem expiredAt_expiring_of_le {now earlier : Instant} {ttl : Duration} {value : Bytes}
    (h : earlier.nanos ≤ now.nanos) : (Item.expiring now ttl value).expiredAt earlier = false := by
  rw [Item.expiredAt_expiring_eq_false_iff]
  omega

/-- No sweeper runs in the shadow. -/
theorem Shadows.idle (h : Shadows run bare) : bare.Idle := by
  intro task htask
  rw [h.unswept.1] at htask
  exact nomatch htask

/-- A sleep keeps a run with sweeps and its shadow without them alike. -/
theorem Shadows.sleep (h : Shadows run bare) (hrun : run.Ordered plan) (nanos : Nat) :
    Shadows (run.sleep plan nanos) (bare.sleep plan nanos) := by
  have hclock : readingAt plan run (run.timer + nanos) =
      readingAt plan bare (bare.timer + nanos) := by
    simp only [readingAt, h.clock, h.timer]
  have htasks : asleep plan bare nanos = [] := by
    rw [asleep, h.unswept.1]
    rfl
  rw [h.idle.sleep_eq, htasks]
  refine ⟨(clock_sleep hrun.led nanos).trans hclock, ⟨rfl, h.unswept.2⟩, ?_,
    (timer_sleep hrun.led nanos).trans (congrArg (· + nanos) h.timer)⟩
  rw [store_sleep hrun.led, h.store, Store.restrict_restrict, instants_sleep hrun.led]
  simp only [List.all_append, List.all_map]
  rfl

/-- A step of the run is a step of the run without a sweeper, unless it starts a sweeper. -/
theorem Shadows.step (h : Shadows run bare) (hrun : run.Ordered plan) (s : SweepStep) :
    Shadows (run.step plan s) (if s.starts then bare else bare.step plan s) := by
  cases s with
  | set key value ttl =>
    refine ⟨h.clock, h.unswept, ?_, h.timer⟩
    have hlive : (run.instants.all fun instant =>
        !(Item.expiring run.clock ttl value).expiredAt instant.2) = true := by
      simp only [List.all_eq_true, Bool.not_eq_true']
      exact fun instant hinstant => expiredAt_expiring_of_le (hrun.past instant hinstant).2
    show run.store.put key (.expiring run.clock ttl value) =
      (bare.store.put key (.expiring bare.clock ttl value)).restrict _
    rw [← h.clock, Store.restrict_put _ hlive]
    exact congrArg (Store.put · key _) h.store
  | startWith counted => exact ⟨h.clock, h.unswept, h.store, h.timer⟩
  | stop | drop =>
    have htasks : bare.cancel.tasks = [] :=
      List.eq_nil_of_length_eq_zero (by rw [length_cancel, h.unswept.1]; rfl)
    exact ⟨h.clock, ⟨htasks, h.unswept.2⟩, h.store, h.timer⟩
  | sleep nanos => exact h.sleep hrun nanos
  | linger nanos =>
    have hclock : (⟨run.clock.nanos + nanos⟩ : Instant) = ⟨bare.clock.nanos + nanos⟩ := by
      rw [h.clock]
    exact ⟨hclock, h.unswept, h.store, h.timer⟩

/-- Steps keep a run with sweeps and its shadow without them alike. -/
theorem Shadows.after (h : Shadows run bare) (hrun : run.Ordered plan)
    (steps : List SweepStep) :
    Shadows (run.after plan steps) (bare.after plan (steps.filter (!·.starts))) := by
  induction steps generalizing run bare with
  | nil => exact h
  | cons s steps ih =>
    have hafter := ih (h.step hrun s) (hrun.step s)
    rw [List.filter_cons]
    cases hs : s.starts <;> rw [hs] at hafter <;> exact hafter

/-- The live entries are those of the run without a sweeper. -/
theorem Shadows.live (h : Shadows run bare) (hrun : run.Ordered plan) :
    run.store.live run.clock = bare.store.live run.clock := by
  rw [Store.live, Store.live, h.store, Store.entries_restrict, List.filter_filter]
  refine List.filter_congr fun e _ => ?_
  cases hexpired : e.2.expiredAt run.clock with
  | true => rfl
  | false =>
    simp only [Bool.not_false, Bool.true_and, List.all_eq_true, Bool.not_eq_true']
    intro instant hinstant
    refine Bool.eq_false_iff.2 fun hearlier => ?_
    rw [Item.expiredAt_mono (hrun.past instant hinstant).2 hearlier] at hexpired
    cases hexpired

/-- Sweeps leave the entries of the shadow that had not expired at any of them. -/
theorem Shadows.mem_entries_iff (h : Shadows run bare) {e : String × Item} :
    e ∈ run.store.entries ↔
      e ∈ bare.store.entries ∧ ∀ sweep ∈ run.sweeps, e.2.expiredAt sweep.reading = false := by
  rw [h.store, Store.entries_restrict, List.mem_filter]
  simp [instants, List.all_eq_true]

/-! ## What sweeps have removed -/

/-- The counter has counted every sweep so far, and every sweeper counts. -/
structure Counting (run : SweepRun) : Prop where
  counted : ∀ task ∈ run.tasks, task.counted = true
  removed : run.removed = UInt64.ofNat run.total

/-- A run counts at its beginning. -/
theorem counting_initial (clock : Instant) : (initial clock).Counting := ⟨nofun, rfl⟩

/-- To cancel a token changes nothing about what is counted. -/
theorem Counting.cancel (h : run.Counting) : ∀ task ∈ run.cancel.tasks, task.counted = true := by
  intro task htask
  obtain ⟨j, hj⟩ := List.mem_iff_getElem?.1 htask
  rw [getElem?_cancel] at hj
  obtain ⟨other, hother, rfl⟩ := Option.map_eq_some_iff.1 hj
  have hcounted := h.counted other (List.mem_of_getElem? hother)
  split <;> exact hcounted

/-- A sleep keeps a run counting. -/
theorem Counting.sleep (h : run.Counting) (hrun : run.Ordered plan) (nanos : Nat) :
    (run.sleep plan nanos).Counting := by
  have hcounts : run.counts = true :=
    (Option.all_eq_true _ _).2 fun task hlast => h.counted task (List.mem_of_getLast? hlast)
  refine ⟨fun task htask => ?_, ?_⟩
  · rw [tasks_sleep hrun.led] at htask
    obtain ⟨other, hother, rfl⟩ := List.mem_map.1 htask
    simpa using h.counted other hother
  · rw [sleep_eq hrun.led]
    exact removed_sweepAll hcounts h.removed

/-- A step that starts no sweeper without the counter keeps a run counting. -/
theorem Counting.step (hplan : plan.counted = true) (h : run.Counting) (hrun : run.Ordered plan)
    (hs : ∀ counted, s = .startWith counted → counted = true) : (run.step plan s).Counting := by
  cases s with
  | set | linger => exact ⟨h.counted, h.removed⟩
  | startWith counted =>
    refine ⟨List.forall_mem_append.2 ⟨h.cancel, List.forall_mem_singleton.2 ?_⟩, h.removed⟩
    simp [hplan, hs counted rfl]
  | stop | drop => exact ⟨h.cancel, h.removed⟩
  | sleep nanos => exact h.sleep hrun nanos

/-- Steps that start no sweeper without the counter keep a run counting. -/
theorem Counting.after (hplan : plan.counted = true) (h : run.Counting) (hrun : run.Ordered plan)
    (hsteps : ∀ counted, .startWith counted ∈ steps → counted = true) :
    (run.after plan steps).Counting := by
  induction steps generalizing run with
  | nil => exact h
  | cons s steps ih =>
    have hs : ∀ counted, s = .startWith counted → counted = true := by
      rintro counted rfl
      exact hsteps counted List.mem_cons_self
    exact ih (h.step hplan hrun hs) (hrun.step s) fun counted hmem =>
      hsteps counted (List.mem_cons_of_mem s hmem)

/-- What is written has been removed by a sweep, has been overwritten or is there. -/
theorem Ordered.total_step_le (h : run.Ordered plan) (s : SweepStep) :
    (run.step plan s).total + (run.step plan s).store.entries.length ≤
      run.total + run.store.entries.length + s.key?.toList.length := by
  cases s with
  | set key value ttl =>
    have hkept : (run.store.entries.filter (·.1 != key)).length ≤ run.store.entries.length :=
      List.length_filter_le _ _
    show run.total + (run.store.put key _).entries.length ≤ run.total + _ + 1
    rw [Store.entries_put, List.length_cons]
    omega
  | sleep nanos => exact (total_sleep h.led nanos).le
  | _ => exact Nat.le_refl _

/-- The number of writes, by the first step. -/
theorem length_keys_cons (s : SweepStep) (steps : List SweepStep) :
    ((s :: steps).filterMap SweepStep.key?).length =
      s.key?.toList.length + (steps.filterMap SweepStep.key?).length := by
  rw [List.filterMap_cons]
  cases s.key? <;> simp [Nat.add_comm]

/-- No more is removed and kept than there was and has been written. -/
theorem Ordered.total_after_le (h : run.Ordered plan) (steps : List SweepStep) :
    (run.after plan steps).total + (run.after plan steps).store.entries.length ≤
      run.total + run.store.entries.length + (steps.filterMap SweepStep.key?).length := by
  induction steps generalizing run with
  | nil => exact Nat.le_refl _
  | cons s steps ih =>
    have hstep := h.total_step_le s
    rw [length_keys_cons]
    exact (ih (h.step s)).trans (by omega)

/-! ## Keys that are set once -/

/-- The steps set every key at most once, and none that is in the store. -/
structure SetsOnce (steps : List SweepStep) (store : Store) : Prop where
  nodup : (steps.filterMap SweepStep.key?).Nodup
  fresh : ∀ e ∈ store.entries, ∀ s ∈ steps, s.key? ≠ some e.1

/-- If no key is set twice, a write puts its entry beside the others. -/
theorem SetsOnce.entries_write {store : Store} (h : SetsOnce (s :: steps) store) (now : Instant) :
    (s.write now store).entries = (s.entry? now).toList ++ store.entries := by
  cases s with
  | set key value ttl =>
    have hkept : store.entries.filter (·.1 != key) = store.entries := by
      refine List.filter_eq_self.2 fun e he => bne_iff_ne.2 fun heq => ?_
      exact h.fresh e he _ List.mem_cons_self (congrArg some heq.symm)
    exact congrArg (List.cons _) hkept
  | _ => rfl

/-- A step only adds what it sets. -/
theorem Ordered.mem_entries_step (hrun : run.Ordered plan) {e : String × Item}
    (h : e ∈ (run.step plan s).store.entries) : s.key? = some e.1 ∨ e ∈ run.store.entries := by
  cases s with
  | set key value ttl =>
    rcases List.mem_cons.1 h with rfl | hkept
    · exact .inl rfl
    · exact .inr (List.mem_filter.1 hkept).1
  | sleep nanos =>
    have hstore : (run.step plan (.sleep nanos)).store = _ := store_sleep hrun.led nanos
    rw [hstore] at h
    exact .inr (List.mem_filter.1 h).1
  | _ => exact .inr h

/-- A step keeps the keys that are still to be set out of the store. -/
theorem SetsOnce.step (h : SetsOnce (s :: steps) run.store) (hrun : run.Ordered plan) :
    SetsOnce steps (run.step plan s).store := by
  have hpairs := List.pairwise_filterMap.1 h.nodup
  obtain ⟨hs, hsteps⟩ := List.pairwise_cons.1 hpairs
  refine ⟨List.pairwise_filterMap.2 hsteps, fun e he later hlater hkey => ?_⟩
  rcases hrun.mem_entries_step he with hwritten | hold
  · exact hs later hlater e.1 hwritten e.1 hkey rfl
  · exact h.fresh e hold later (List.mem_cons_of_mem s hlater) hkey

/-- Where every key is set once, what is written has been removed by a sweep or is there. -/
theorem SetsOnce.total_after (h : SetsOnce steps run.store) (hrun : run.Ordered plan) :
    (run.after plan steps).total + (run.after plan steps).store.entries.length =
      run.total + run.store.entries.length + (steps.filterMap SweepStep.key?).length := by
  induction steps generalizing run with
  | nil => rfl
  | cons s steps ih =>
    have hstep : (run.step plan s).total + (run.step plan s).store.entries.length =
        run.total + run.store.entries.length + s.key?.toList.length := by
      cases s with
      | set key value ttl =>
        have hstore : (run.step plan (.set key value ttl)).store.entries = _ :=
          h.entries_write run.clock
        rw [hstore, List.length_append]
        show run.total + (1 + _) = run.total + _ + 1
        omega
      | sleep nanos => exact total_sleep hrun.led nanos
      | _ => rfl
    rw [after_cons, ih (h.step hrun) (hrun.step s), hstep, length_keys_cons, Nat.add_assoc,
      Nat.add_assoc]

/-- The entries that steps write when the clock shows `now` at first. -/
def written (plan : SweepPlan) (now : Instant) : List SweepStep → List (String × Item)
  | [] => []
  | s :: steps => (s.entry? now).toList ++ written plan (s.clockAfter plan now) steps

/-- The written entries are as many as the steps that set a key. -/
theorem length_written (plan : SweepPlan) (now : Instant) (steps : List SweepStep) :
    (written plan now steps).length = (steps.filterMap SweepStep.key?).length := by
  induction steps generalizing now with
  | nil => rfl
  | cons s steps ih =>
    have hentry : (s.entry? now).toList.length = s.key?.toList.length := by cases s <;> rfl
    rw [written, List.length_append, ih, hentry, length_keys_cons]

/-- To start a sweeper writes nothing and takes no time. -/
theorem written_filter_starts (plan : SweepPlan) (now : Instant) (steps : List SweepStep) :
    written plan now (steps.filter (!·.starts)) = written plan now steps := by
  induction steps generalizing now with
  | nil => rfl
  | cons s steps ih =>
    cases s with
    | startWith counted => exact ih now
    | _ => exact congrArg (_ ++ ·) (ih _)

/-- Without a sweeper, and where every key is set once, what is written is there. -/
theorem SetsOnce.entries_eq_written (h : SetsOnce steps run.store) (hrun : run.Ordered plan)
    (hidle : run.Idle) (hsteps : ∀ s ∈ steps, s.starts = false) :
    (run.after plan steps).store.entries =
      (written plan run.clock steps).reverse ++ run.store.entries := by
  induction steps generalizing run with
  | nil => rfl
  | cons s steps ih =>
    obtain ⟨hs, hsteps⟩ := List.forall_mem_cons.1 hsteps
    obtain ⟨hidle', -, hstore⟩ := hidle.step plan hs
    have hentry : (s.entry? run.clock).toList.reverse = (s.entry? run.clock).toList := by
      cases s.entry? run.clock <;> rfl
    rw [after_cons, ih (h.step hrun) (hrun.step s) hidle' hsteps, hstore, h.entries_write,
      hrun.clock_step, written, List.reverse_append, hentry, List.append_assoc]

/-- Where every key is set once, the entries whose time has run out are those that sweeps have
removed, and those that another sweep would remove. -/
theorem total_add_removeExpired (plan : SweepPlan) (clock : Instant) (steps : List SweepStep)
    (h : (steps.filterMap SweepStep.key?).Nodup) :
    let run := (initial clock).after plan steps
    run.total + (run.store.removeExpired run.clock).1 =
      (written plan clock steps).countP fun e => e.2.expiredAt run.clock := by
  intro run
  have hrun : run.Ordered plan := ordered_after plan clock steps
  have hshadows := (shadows_initial clock).after (ordered_initial plan clock) steps
  have hall : run.total + run.store.entries.length = (written plan clock steps).length := by
    have honce : SetsOnce steps (initial clock).store := ⟨h, nofun⟩
    rw [honce.total_after (ordered_initial plan clock), length_written]
    exact Nat.zero_add _
  have hbare : ((initial clock).after plan (steps.filter (!·.starts))).store.entries =
      (written plan clock steps).reverse := by
    have honce : SetsOnce (steps.filter (!·.starts)) (initial clock).store :=
      ⟨h.sublist (List.filter_sublist.filterMap _), nofun⟩
    rw [honce.entries_eq_written (ordered_initial plan clock) nofun fun s hs => by
      simpa using (List.mem_filter.1 hs).2, written_filter_starts]
    exact List.append_nil _
  -- the entries that are still live are the same ones on both sides
  have hkept : run.store.entries.countP (fun e => !e.2.expiredAt run.clock) =
      (written plan clock steps).countP fun e => !e.2.expiredAt run.clock := by
    have hlength := congrArg List.length (hshadows.live hrun)
    rwa [Store.live, Store.live, hbare, ← List.countP_eq_length_filter,
      ← List.countP_eq_length_filter, List.countP_reverse] at hlength
  have hthere := List.length_eq_countP_add_countP (fun e => e.2.expiredAt run.clock)
    (l := run.store.entries)
  have hwritten := List.length_eq_countP_add_countP (fun e => e.2.expiredAt run.clock)
    (l := written plan clock steps)
  simp only [Bool.not_eq_true, Bool.decide_eq_false] at hthere hwritten
  rw [Store.removeExpired_fst]
  omega

/-! ## A whole run -/

/-- Right after a sweep nothing that has expired is in the store. -/
theorem SweptIn.store_during (clock : Instant) {earlier : List SweepStep} {nanos : Nat}
    (h : SweptIn plan steps earlier nanos) :
    let before := during plan clock earlier (nanos - 1)
    let moment := during plan clock earlier nanos
    moment.store = (before.store.removeExpired moment.clock).2 ∧
      ∀ e ∈ moment.store.entries, e.2.expiredAt moment.clock = false := by
  intro before moment
  obtain ⟨whole, later, -, hpos, -, hdue⟩ := h
  have hstore : moment.store = (before.store.removeExpired moment.clock).2 :=
    (during_of_dueIn clock hpos hdue).1
  refine ⟨hstore, fun e he => ?_⟩
  rw [hstore] at he
  simpa using (List.mem_filter.1 he).2

/-- Without a running sweeper, an explicit pass removes what has expired and was not overwritten. -/
theorem Idle.find?_removeExpired (plan : SweepPlan) (h : run.Idle)
    (hsteps : ∀ s ∈ steps, s.starts = false) {key : String}
    (hkey : ∀ s ∈ steps, s.key? ≠ some key) :
    let next := run.after plan steps
    (next.store.removeExpired next.clock).2.find? key =
      (run.store.find? key).filter (!·.expiredAt next.clock) := by
  intro next
  rw [← (h.after plan hsteps).2 key hkey]
  exact next.store.find?_restrict _ key

/-- No more is removed than is set. -/
theorem total_after_le (plan : SweepPlan) (clock : Instant) (steps : List SweepStep) :
    ((initial clock).after plan steps).total ≤ (steps.filterMap SweepStep.key?).length := by
  have hle := (ordered_initial plan clock).total_after_le steps
  rw [show (initial clock).total + (initial clock).store.entries.length = 0 from rfl,
    Nat.zero_add] at hle
  exact Nat.le_of_add_right_le hle

end

/-- What a background sweeper does over a run. Readers see what they would see without it: only
entries that have expired at a sweep are missing, and no sweep is noticed. Sweeps happen at the
positive multiples of the interval after a start, while this sweeper has neither been stopped nor
given up nor replaced, one after the other and at no other time; each removes exactly the entries
that have expired then, and leaves none. Without a running sweeper entries stay until they are
overwritten or an explicit pass removes them. To stop twice is to stop once. If every sweeper is
given the counter, it counts what sweeps remove; and if every key is set at most once, what sweeps
have removed and what a last pass finds are together the entries whose time has run out. -/
theorem sweeps_outcome (plan : SweepPlan) (clock : Instant) (steps : List SweepStep) :
    let run := (initial clock).after plan steps
    let bare := (initial clock).after plan (steps.filter (!·.starts))
    (bare.sweeps = [] ∧ run.clock = bare.clock ∧
      run.store.live run.clock = bare.store.live run.clock ∧
      ∀ e, e ∈ run.store.entries ↔
        e ∈ bare.store.entries ∧ ∀ sweep ∈ run.sweeps, e.2.expiredAt sweep.reading = false) ∧
    (run.sweeps.Pairwise fun earlier later => earlier.time < later.time) ∧
    (∀ sweep, sweep ∈ run.sweeps ↔ ∃ earlier nanos, SweptIn plan steps earlier nanos ∧
      sweep = sweepDuring plan clock earlier nanos) ∧
    (∀ earlier nanos, SweptIn plan steps earlier nanos →
      let before := during plan clock earlier (nanos - 1)
      let moment := during plan clock earlier nanos
      moment.timer = elapsed earlier + nanos ∧
      moment.store = (before.store.removeExpired moment.clock).2 ∧
      (∀ e ∈ moment.store.entries, e.2.expiredAt moment.clock = false) ∧
      ∃ rest, run = moment.after plan rest) ∧
    (run.Idle → ∀ later, (∀ s ∈ later, s.starts = false) →
      let next := run.after plan later
      next.sweeps = run.sweeps ∧
      ∀ key, (∀ s ∈ later, s.key? ≠ some key) →
        next.store.find? key = run.store.find? key ∧
        (next.store.removeExpired next.clock).2.find? key =
          (run.store.find? key).filter (!·.expiredAt next.clock)) ∧
    ((run.step plan .stop).Idle ∧ (run.step plan .stop).step plan .stop = run.step plan .stop) ∧
    (plan.counted = true → (∀ counted, .startWith counted ∈ steps → counted = true) →
      run.removed = UInt64.ofNat run.total ∧
      ((steps.filterMap SweepStep.key?).length < UInt64.size → run.removed.toNat = run.total)) ∧
    ((steps.filterMap SweepStep.key?).Nodup →
      run.total + (run.store.removeExpired run.clock).1 =
        (written plan clock steps).countP fun e => e.2.expiredAt run.clock) := by
  intro run bare
  have hordered : run.Ordered plan := ordered_after plan clock steps
  have hshadows : Shadows run bare :=
    (shadows_initial clock).after (ordered_initial plan clock) steps
  refine ⟨⟨hshadows.unswept.2, hshadows.clock, hshadows.live hordered,
      fun _ => hshadows.mem_entries_iff⟩, hordered.sweeps, fun _ => mem_sweeps_iff,
    fun earlier nanos hswept => ?_, fun hidle later hlater => ?_,
    ⟨hordered.idle_stop, run.cancel_cancel⟩, fun hplan hcounted => ?_,
    total_add_removeExpired plan clock steps⟩
  · obtain ⟨hstore, hnone⟩ := hswept.store_during clock
    exact ⟨timer_during clock earlier nanos, hstore, hnone, exists_after_during clock hswept⟩
  · obtain ⟨hsweeps, hfind⟩ := hidle.after plan hlater
    exact ⟨hsweeps, fun key hkey =>
      ⟨hfind key hkey, hidle.find?_removeExpired plan hlater hkey⟩⟩
  · have hremoved :=
      ((counting_initial clock).after hplan (ordered_initial plan clock) hcounted).removed
    refine ⟨hremoved, fun hsmall => ?_⟩
    have htotal : run.total < UInt64.size :=
      Nat.lt_of_le_of_lt (total_after_le plan clock steps) hsmall
    rw [hremoved, UInt64.toNat_ofNat_of_lt' htotal]

/-- One entry expires before the first sweep, which removes it. The other would be removed by the
third one, but the sweeper is replaced, so its successor comes later, and is stopped before. -/
theorem sweeps_outcome_of_replaced_sweeper :
    let plan : SweepPlan := ⟨10, by decide, 1, true⟩
    let earlier : List SweepStep :=
      [.startWith true, .set "a" [1] ⟨5, by decide⟩, .set "b" [2] ⟨25, by decide⟩]
    let steps := earlier ++ [.sleep 12, .startWith true, .sleep 15, .stop]
    let run := (initial ⟨0⟩).after plan steps
    SweptIn plan steps earlier 10 ∧ (during plan ⟨0⟩ earlier 10).timer = 10 ∧
      run.sweeps = [⟨10, ⟨10⟩, 1⟩, ⟨22, ⟨22⟩, 0⟩] ∧ run.Idle ∧
      ((run.after plan [.sleep 100]).store.find? "b").isSome ∧
      run.removed.toNat = 1 ∧ (steps.filterMap SweepStep.key?).Nodup ∧
      1 + (run.store.removeExpired run.clock).1 =
        (written plan ⟨0⟩ steps).countP fun e => e.2.expiredAt run.clock := by
  intro plan earlier steps run
  obtain ⟨-, -, -, hmoment, hidle, -, hcounter, honce⟩ := sweeps_outcome plan ⟨0⟩ steps
  have hswept : SweptIn plan steps earlier 10 :=
    ⟨12, _, rfl, by decide, by decide, [], true, ⟨_, rfl, by simp [SweepStep.LeavesSweeper]⟩, 1,
      by decide, by decide⟩
  have hrun : run.Idle := by unfold Idle; decide +kernel
  have hnodup : (steps.filterMap SweepStep.key?).Nodup := by decide
  have hlater : ∀ s ∈ [SweepStep.sleep 100], s.starts = false := by simp [SweepStep.starts]
  have hcounted : ∀ counted, SweepStep.startWith counted ∈ steps → counted = true := by
    simp [steps, earlier]
  have htotal : run.total = 1 := by decide +kernel
  refine ⟨hswept, (hmoment earlier 10 hswept).1, by decide +kernel, hrun, ?_, ?_, hnodup, ?_⟩
  · rw [((hidle hrun _ hlater).2 "b" (by simp [SweepStep.key?])).1]
    decide +kernel
  · exact ((hcounter rfl hcounted).2 (by decide)).trans htotal
  · rw [← htotal]
    exact honce hnodup

end SweepRun

end CacheServer
