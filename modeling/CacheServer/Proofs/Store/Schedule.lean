import CacheServer.Proofs.Cutting
import CacheServer.Proofs.Store.Sweeper

/-!
# When a background sweeper sweeps

A sweeper runs from the step that starts it up to one that starts another, stops it or gives it up
(`Running`). Its first tick goes to the start, so the tick that it waits for is always a positive
multiple of the interval after the start (`awaitedTick_after`). Therefore sweeps happen at these
times, as long as that sweeper is running, and at no other time (`mem_sweeps_iff`). Each sweep
removes the entries that have expired then, and no others (`during_of_dueIn`).

Time goes on in whole nanoseconds, and a sleep that ends just when a sweep is due includes the
sweep.
-/

namespace CacheServer

/-! ## Steps -/

namespace SweepStep

/-- Whether a step leaves the sweeper as it is. -/
def LeavesSweeper : SweepStep → Prop
  | set .. | sleep _ | linger _ => True
  | startWith _ | stop | drop => False

/-- How long the timer runs during a step. -/
def nanos : SweepStep → Nat
  | sleep nanos => nanos
  | _ => 0

end SweepStep

namespace SweepRun

/-- The state after steps. -/
def after (plan : SweepPlan) (run : SweepRun) (steps : List SweepStep) : SweepRun :=
  steps.foldl (step plan) run

/-- How long the timer runs during steps. -/
def elapsed (steps : List SweepStep) : Nat := (steps.map (·.nanos)).sum

section
variable {plan : SweepPlan} {run : SweepRun} {steps : List SweepStep} {s : SweepStep}

/-- A run takes its first step first. -/
theorem after_cons : run.after plan (s :: steps) = (run.step plan s).after plan steps := rfl

/-- Steps in a row can be cut anywhere. -/
theorem after_append (later : List SweepStep) :
    run.after plan (steps ++ later) = (run.after plan steps).after plan later :=
  List.foldl_append

/-- A run takes its last step last. -/
theorem after_concat (s : SweepStep) :
    run.after plan (steps ++ [s]) = (run.after plan steps).step plan s :=
  after_append [s]

/-! ## The task that is running -/

/-- To cancel changes the task whose token is kept and no other. -/
theorem getElem?_cancel (run : SweepRun) (j : Nat) : run.cancel.tasks[j]? =
    run.tasks[j]?.map fun task => if run.sweeper = some j then task.cancel else task := by
  unfold SweepRun.cancel
  cases run.sweeper with
  | none => simp
  | some i => simp [List.getElem?_modify]

/-- To cancel neither makes nor loses a task. -/
theorem length_cancel (run : SweepRun) : run.cancel.tasks.length = run.tasks.length := by
  unfold SweepRun.cancel
  cases run.sweeper with
  | none => rfl
  | some i => exact List.length_modify _ _ _

/-- No task is running but the one whose token is kept. -/
theorem Led.cancelled_of_ne {next? : Option Nat} (h : Led plan run next?) {j : Nat}
    {task : SweepTask} (htask : run.tasks[j]? = some task) (hne : run.sweeper ≠ some j) :
    task.cancelled = true := by
  cases h with
  | idle hcancelled => exact hcancelled task (List.mem_of_getElem? htask)
  | @running front last _ htasks hfront hkept =>
    rw [htasks] at htask
    rcases Nat.lt_trichotomy j front.length with hlt | rfl | hgt
    · rw [List.getElem?_append_left hlt] at htask
      exact hfront task (List.mem_of_getElem? htask)
    · exact absurd hkept hne
    · rw [List.getElem?_eq_none (by simpa using Nat.succ_le_of_lt hgt)] at htask
      exact nomatch htask

/-- When the token that is kept is cancelled, no task is running. -/
theorem Led.cancel {next? : Option Nat} (h : Led plan run next?) :
    ∀ task ∈ run.cancel.tasks, task.cancelled = true := by
  intro task htask
  obtain ⟨j, hj⟩ := List.mem_iff_getElem?.1 htask
  rw [getElem?_cancel] at hj
  obtain ⟨other, hother, rfl⟩ := Option.map_eq_some_iff.1 hj
  split
  · rfl
  · next hne => exact h.cancelled_of_ne hother hne

/-- The tick that a task waits for behind a step that begins when the timer shows `timer`. -/
def tickAfter (plan : SweepPlan) (timer : Nat) (next? : Option Nat) : SweepStep → Option Nat
  | .set .. | .linger _ => next?
  | .startWith _ => some (timer + plan.interval)
  | .stop | .drop => none
  | .sleep nanos => next?.map fun next => tickBehind plan.interval next (timer + nanos)

/-- What a step does to the task that is running: another one takes its place, its token is
cancelled, or it takes the ticks that are due. -/
theorem Led.step {next? : Option Nat} (h : Led plan run next?) (s : SweepStep) :
    Led plan (run.step plan s) (tickAfter plan run.timer next? s) := by
  cases s with
  | set | linger =>
    cases h with
    | idle hcancelled => exact .idle hcancelled
    | running htasks hfront hkept hrunning hwaits hlt hle =>
      exact .running htasks hfront hkept hrunning hwaits hlt hle
  | startWith counted =>
    exact .running rfl h.cancel (congrArg some run.length_cancel.symm) rfl
      (SweepTask.proceed_spawned _) (Nat.lt_add_of_pos_right plan.interval_pos) (Nat.le_refl _)
  | stop | drop => exact .idle h.cancel
  | sleep nanos => exact h.sleep nanos

/-! ## The order of sweeps -/

/-- The sweeps of a run lie in the past, one after the other, and no task is running but the one
that was started last. -/
structure Ordered (plan : SweepPlan) (run : SweepRun) : Prop where
  led : Led plan run (run.awaitedTick plan)
  past : ∀ instant ∈ run.instants, instant.1 ≤ run.timer ∧ instant.2.nanos ≤ run.clock.nanos
  rising : run.instants.Pairwise fun earlier later => earlier.1 < later.1

/-- A run is in order at its beginning. -/
theorem ordered_initial (plan : SweepPlan) (clock : Instant) : (initial clock).Ordered plan :=
  ⟨.idle nofun, nofun, .nil⟩

/-- The store's clock does not go back while the timer moves on. -/
theorem readingAt_mono {time later : Nat} (h : time ≤ later) :
    (readingAt plan run time).nanos ≤ (readingAt plan run later).nanos :=
  Nat.add_le_add_left (Nat.mul_le_mul_left _ (Nat.sub_le_sub_right h _)) _

/-- The timer runs in sleeps only. -/
theorem Ordered.timer_step (h : run.Ordered plan) (s : SweepStep) :
    (run.step plan s).timer = run.timer + s.nanos := by
  cases s with
  | sleep nanos => exact timer_sleep h.led nanos
  | _ => rfl

/-- The tick that the running task waits for, behind a step. -/
theorem Ordered.awaitedTick_step (h : run.Ordered plan) (s : SweepStep) :
    (run.step plan s).awaitedTick plan = tickAfter plan run.timer (run.awaitedTick plan) s :=
  (h.led.step s).awaitedTick_eq

/-- A step keeps a run in order. -/
theorem Ordered.step (h : run.Ordered plan) (s : SweepStep) : (run.step plan s).Ordered plan := by
  have hled : Led plan (run.step plan s) ((run.step plan s).awaitedTick plan) := by
    rw [h.awaitedTick_step]
    exact h.led.step s
  cases s with
  | set | startWith | stop | drop => exact ⟨hled, h.past, h.rising⟩
  | sleep nanos =>
    have hinstants : (run.step plan (.sleep nanos)).instants = _ := instants_sleep h.led nanos
    refine ⟨hled, fun instant hinstant => ?_, ?_⟩
    · have htimer : (run.step plan (.sleep nanos)).timer = _ := timer_sleep h.led nanos
      have hclock : (run.step plan (.sleep nanos)).clock = _ := clock_sleep h.led nanos
      rw [htimer, hclock]
      rw [hinstants, List.mem_append, List.mem_map] at hinstant
      rcases hinstant with hearlier | ⟨time, htime, rfl⟩
      · obtain ⟨htimer, hclock⟩ := h.past instant hearlier
        exact ⟨Nat.le_trans htimer (Nat.le_add_right _ _),
          Nat.le_trans hclock (Nat.le_add_right _ _)⟩
      · obtain ⟨-, -, hle, -⟩ := (mem_due_iff h.led).1 htime
        exact ⟨hle, readingAt_mono hle⟩
    · rw [hinstants]
      refine List.pairwise_append.2 ⟨h.rising, List.pairwise_map.2 pairwise_due, ?_⟩
      intro instant hinstant later hlater
      obtain ⟨time, htime, rfl⟩ := List.mem_map.1 hlater
      exact Nat.lt_of_le_of_lt (h.past instant hinstant).1 (lt_of_mem_due h.led htime)
  | linger nanos =>
    refine ⟨hled, fun instant hinstant => ?_, h.rising⟩
    obtain ⟨htimer, hclock⟩ := h.past instant hinstant
    exact ⟨htimer, Nat.le_trans hclock (Nat.le_add_right _ _)⟩

/-- Steps keep a run in order. -/
theorem Ordered.after (h : run.Ordered plan) (steps : List SweepStep) :
    (run.after plan steps).Ordered plan := by
  induction steps generalizing run with
  | nil => exact h
  | cons s steps ih => exact ih (h.step s)

/-- The timer moves on by what was slept. -/
theorem Ordered.timer_after (h : run.Ordered plan) (steps : List SweepStep) :
    (run.after plan steps).timer = run.timer + elapsed steps := by
  induction steps generalizing run with
  | nil => rfl
  | cons s steps ih =>
    have hcons : elapsed (s :: steps) = s.nanos + elapsed steps := rfl
    rw [hcons, ← Nat.add_assoc, ← h.timer_step]
    exact ih (h.step s)

/-- The sweeps of a run happen one after the other. -/
theorem Ordered.sweeps (h : run.Ordered plan) :
    run.sweeps.Pairwise fun earlier later => earlier.time < later.time := by
  have hrising := h.rising
  rwa [instants, List.pairwise_map] at hrising

/-- Every run from the beginning is in order. -/
theorem ordered_after (plan : SweepPlan) (clock : Instant) (steps : List SweepStep) :
    ((initial clock).after plan steps).Ordered plan :=
  (ordered_initial plan clock).after steps

/-! ## When sweeps happen -/

/-- The sweeper that was started behind the steps `before` is still running after the steps. -/
def Running (steps before : List SweepStep) (counted : Bool) : Prop :=
  ∃ within, steps = before ++ .startWith counted :: within ∧ ∀ s ∈ within, s.LeavesSweeper

/-- After the steps, a running sweeper is due in `nanos`: a positive multiple of the interval will
have passed since its start. -/
def DueIn (plan : SweepPlan) (steps : List SweepStep) (nanos : Nat) : Prop :=
  ∃ before counted, Running steps before counted ∧
    ∃ m, 0 < m ∧ elapsed before + m * plan.interval = elapsed steps + nanos

/-- A sweeper is due in a sleep that follows the steps `earlier`, when `nanos` of it have passed. -/
def SweptIn (plan : SweepPlan) (steps earlier : List SweepStep) (nanos : Nat) : Prop :=
  ∃ whole later, steps = earlier ++ .sleep whole :: later ∧ 0 < nanos ∧ nanos ≤ whole ∧
    DueIn plan earlier nanos

/-- Before the first step no sweeper runs. -/
theorem not_running_nil {before : List SweepStep} {counted : Bool} :
    ¬ Running [] before counted := by
  rintro ⟨within, hsteps, -⟩
  exact absurd hsteps.symm (by simp)

/-- A sweeper runs if it was started just now, or ran before and was left alone. -/
theorem running_concat_iff {before : List SweepStep} {counted : Bool} :
    Running (steps ++ [s]) before counted ↔
      before = steps ∧ s = .startWith counted ∨ s.LeavesSweeper ∧ Running steps before counted := by
  constructor
  · rintro ⟨within, hsteps, hwithin⟩
    rcases append_singleton_eq_append_cons hsteps with ⟨rfl, hs, rfl⟩ | ⟨front, rfl, rfl⟩
    · exact .inl ⟨rfl, hs.symm⟩
    · obtain ⟨hfront, hs⟩ := List.forall_mem_append.1 hwithin
      exact .inr ⟨hs s (List.mem_singleton_self s), front, rfl, hfront⟩
  · rintro (⟨rfl, rfl⟩ | ⟨hs, within, rfl, hwithin⟩)
    · exact ⟨[], rfl, nofun⟩
    · refine ⟨within ++ [s], by simp, List.forall_mem_append.2 ⟨hwithin, ?_⟩⟩
      exact fun other hother => List.mem_singleton.1 hother ▸ hs

/-- One step more has the sweeps of the earlier ones and, if it is a sleep, those that are due in
it. -/
theorem sweptIn_concat_iff {earlier : List SweepStep} {nanos : Nat} :
    SweptIn plan (steps ++ [s]) earlier nanos ↔ SweptIn plan steps earlier nanos ∨
      earlier = steps ∧ ∃ whole, s = .sleep whole ∧ 0 < nanos ∧ nanos ≤ whole ∧
        DueIn plan steps nanos := by
  constructor
  · rintro ⟨whole, later, hsteps, hpos, hle, hdue⟩
    rcases append_singleton_eq_append_cons hsteps with ⟨rfl, hs, rfl⟩ | ⟨front, rfl, rfl⟩
    · exact .inr ⟨rfl, whole, hs.symm, hpos, hle, hdue⟩
    · exact .inl ⟨whole, front, rfl, hpos, hle, hdue⟩
  · rintro (⟨whole, later, rfl, hswept⟩ | ⟨rfl, whole, rfl, hswept⟩)
    · exact ⟨whole, later ++ [s], by simp, hswept⟩
    · exact ⟨whole, [], rfl, hswept⟩

/-- The timer shows the time that was slept. -/
theorem timer_after_initial (plan : SweepPlan) (clock : Instant) (steps : List SweepStep) :
    ((initial clock).after plan steps).timer = elapsed steps :=
  ((ordered_initial plan clock).timer_after steps).trans (Nat.zero_add _)

/-- What a task waits for after steps: a task is running exactly if a sweeper has been started and
neither been stopped, given up nor replaced, and then it waits for a tick at a positive multiple of
the interval after this start. -/
theorem awaitedTick_after (plan : SweepPlan) (clock : Instant) (steps : List SweepStep) :
    (∀ next ∈ ((initial clock).after plan steps).awaitedTick plan,
      ∃ before counted, Running steps before counted) ∧
    ∀ before counted, Running steps before counted →
      ∃ m, 0 < m ∧ ((initial clock).after plan steps).awaitedTick plan =
        some (elapsed before + m * plan.interval) := by
  induction steps using List.reverseRecOn with
  | nil => exact ⟨nofun, fun _ _ h => absurd h not_running_nil⟩
  | append_singleton steps s ih =>
    obtain ⟨hstarted, hrunning⟩ := ih
    rw [after_concat, (ordered_after plan clock steps).awaitedTick_step, timer_after_initial]
    simp only [running_concat_iff]
    cases s with
    | set | linger =>
      refine ⟨fun next hnext => ?_, ?_⟩
      · obtain ⟨before, counted, hbefore⟩ := hstarted next hnext
        exact ⟨before, counted, .inr ⟨trivial, hbefore⟩⟩
      · rintro before counted (⟨-, heq⟩ | ⟨-, hbefore⟩)
        · cases heq
        · exact hrunning before counted hbefore
    | startWith counted =>
      refine ⟨fun _ _ => ⟨steps, counted, .inl ⟨rfl, rfl⟩⟩, ?_⟩
      rintro before other (⟨rfl, -⟩ | ⟨hleaves, -⟩)
      · exact ⟨1, Nat.one_pos, by rw [tickAfter, Nat.one_mul]⟩
      · exact hleaves.elim
    | stop | drop =>
      refine ⟨nofun, ?_⟩
      rintro before other (⟨-, heq⟩ | ⟨hleaves, -⟩)
      · cases heq
      · exact hleaves.elim
    | sleep nanos =>
      refine ⟨fun next hnext => ?_, ?_⟩
      · obtain ⟨earlier, hearlier, -⟩ := Option.map_eq_some_iff.1 hnext
        obtain ⟨before, counted, hbefore⟩ := hstarted earlier hearlier
        exact ⟨before, counted, .inr ⟨trivial, hbefore⟩⟩
      · rintro before counted (⟨-, heq⟩ | ⟨-, hbefore⟩)
        · cases heq
        · obtain ⟨m, hm, hnext⟩ := hrunning before counted hbefore
          let taken := ticksBy plan.interval (elapsed before + m * plan.interval)
            (elapsed steps + nanos)
          refine ⟨m + taken, Nat.add_pos_left hm taken, ?_⟩
          rw [hnext, tickAfter, Option.map_some, tickBehind, Nat.add_assoc, ← Nat.add_mul]

/-- After the steps, the running sweeper is due at the times that `DueIn` tells. -/
theorem mem_due_after_iff {clock : Instant} {whole nanos : Nat} :
    elapsed steps + nanos ∈ due plan ((initial clock).after plan steps) whole ↔
      0 < nanos ∧ nanos ≤ whole ∧ DueIn plan steps nanos := by
  have hled := (ordered_after plan clock steps).led
  obtain ⟨hstarted, hrunning⟩ := awaitedTick_after plan clock steps
  have htimer := timer_after_initial plan clock steps
  constructor
  · intro hdue
    have hlt := lt_of_mem_due hled hdue
    obtain ⟨next, hnext, hle, i, htime⟩ := (mem_due_iff hled).1 hdue
    obtain ⟨before, counted, hbefore⟩ := hstarted next hnext
    obtain ⟨m, hm, hawaited⟩ := hrunning before counted hbefore
    cases hawaited.symm.trans hnext
    rw [htimer] at hlt hle
    refine ⟨by omega, by omega, before, counted, hbefore, m + i, Nat.add_pos_left hm i, ?_⟩
    rw [Nat.add_mul, ← Nat.add_assoc]
    exact htime.symm
  · rintro ⟨hpos, hle, before, counted, hbefore, m', -, htime⟩
    obtain ⟨m, hm, hawaited⟩ := hrunning before counted hbefore
    -- the next tick is an interval away at most, so no multiple in front of it is still to come
    have hnear : elapsed before + m * plan.interval ≤ elapsed steps + plan.interval := by
      rw [← htimer]
      exact (hawaited ▸ hled).le_add
    have hmm : m ≤ m' := by
      by_contra hlt
      have hsucc := Nat.mul_le_mul_right plan.interval (Nat.not_le.1 hlt)
      rw [Nat.succ_mul] at hsucc
      omega
    refine (mem_due_iff hled).2 ⟨_, hawaited, by rw [htimer]; omega, m' - m, ?_⟩
    rw [← htime, Nat.add_assoc, ← Nat.add_mul, Nat.add_sub_cancel' hmm]

/-- The state in a sleep that follows the steps `earlier`, when `nanos` of it have passed. -/
def during (plan : SweepPlan) (clock : Instant) (earlier : List SweepStep) (nanos : Nat) :
    SweepRun :=
  ((initial clock).after plan earlier).sleep plan nanos

/-- The timer in the middle of a sleep. -/
theorem timer_during (clock : Instant) (earlier : List SweepStep) (nanos : Nat) :
    (during plan clock earlier nanos).timer = elapsed earlier + nanos := by
  rw [during, timer_sleep (ordered_after plan clock earlier).led, timer_after_initial]

/-- The store's clock in the middle of a sleep. -/
theorem clock_during (clock : Instant) (earlier : List SweepStep) (nanos : Nat) :
    (during plan clock earlier nanos).clock =
      readingAt plan ((initial clock).after plan earlier) (elapsed earlier + nanos) := by
  rw [during, clock_sleep (ordered_after plan clock earlier).led, timer_after_initial]

/-- Sweeps happen when a sweeper is due in a sleep, and at no other time. -/
theorem mem_instants_iff {clock : Instant} {instant : Nat × Instant} :
    instant ∈ ((initial clock).after plan steps).instants ↔
      ∃ earlier nanos, SweptIn plan steps earlier nanos ∧
        instant = ((during plan clock earlier nanos).timer,
          (during plan clock earlier nanos).clock) := by
  induction steps using List.reverseRecOn with
  | nil =>
    constructor
    · exact nofun
    · rintro ⟨earlier, nanos, ⟨whole, later, hsteps, -⟩, -⟩
      simp at hsteps
  | append_singleton steps s ih =>
    rw [after_concat]
    simp only [sweptIn_concat_iff, timer_during, clock_during] at ih ⊢
    cases s with
    | sleep whole =>
      have hsleep : (((initial clock).after plan steps).step plan (.sleep whole)).instants = _ :=
        instants_sleep (ordered_after plan clock steps).led whole
      rw [hsleep, List.mem_append, ih, List.mem_map]
      constructor
      · rintro (⟨earlier, nanos, hswept, rfl⟩ | ⟨time, htime, rfl⟩)
        · exact ⟨earlier, nanos, .inl hswept, rfl⟩
        · obtain ⟨nanos, rfl⟩ : ∃ nanos, time = elapsed steps + nanos := by
            have hlt := lt_of_mem_due (ordered_after plan clock steps).led htime
            rw [timer_after_initial] at hlt
            exact Nat.exists_eq_add_of_le (Nat.le_of_lt hlt)
          exact ⟨steps, nanos, .inr ⟨rfl, whole, rfl, mem_due_after_iff.1 htime⟩, rfl⟩
      · rintro ⟨earlier, nanos, hswept | ⟨rfl, other, heq, hswept⟩, rfl⟩
        · exact .inl ⟨earlier, nanos, hswept, rfl⟩
        · cases heq
          exact .inr ⟨_, mem_due_after_iff.2 hswept, rfl⟩
    | _ =>
      simp only [reduceCtorEq, false_and, exists_false, and_false, or_false]
      exact ih

/-! ## What a sweep does -/

/-- When the sweeper is due, the entries go that have expired then, and no others. -/
theorem sleep_succ_of_mem_due {next? : Option Nat} (h : Led plan run next?) {nanos : Nat}
    (hdue : run.timer + (nanos + 1) ∈ due plan run (nanos + 1)) :
    (run.sleep plan (nanos + 1)).store =
      ((run.sleep plan nanos).store.removeExpired (run.sleep plan (nanos + 1)).clock).2 ∧
    (run.sleep plan (nanos + 1)).sweeps = (run.sleep plan nanos).sweeps ++
      [⟨(run.sleep plan (nanos + 1)).timer, (run.sleep plan (nanos + 1)).clock,
        ((run.sleep plan nanos).store.removeExpired (run.sleep plan (nanos + 1)).clock).1⟩] := by
  have hlast : due plan (run.sleep plan nanos) 1 = [(run.sleep plan nanos).timer + 1] := by
    refine pairwise_due.eq_of_mem_iff (List.pairwise_singleton _ _) fun time => ?_
    rw [List.mem_singleton]
    constructor
    · intro htime
      obtain ⟨-, -, hle, -⟩ := (mem_due_iff (h.sleep nanos)).1 htime
      exact Nat.le_antisymm hle (lt_of_mem_due (h.sleep nanos) htime)
    · rintro rfl
      rw [due_add h, List.mem_append] at hdue
      rw [timer_sleep h]
      refine hdue.resolve_left fun hearlier => ?_
      obtain ⟨-, -, hle, -⟩ := (mem_due_iff h).1 hearlier
      omega
  rw [sleep_add h nanos 1, sleep_eq (h.sleep nanos) 1, hlast]
  exact ⟨rfl, rfl⟩

/-- The sweep in a sleep that follows the steps `earlier`, when `nanos` of it have passed. -/
def sweepDuring (plan : SweepPlan) (clock : Instant) (earlier : List SweepStep) (nanos : Nat) :
    Sweep :=
  let moment := during plan clock earlier nanos
  ⟨moment.timer, moment.clock,
    ((during plan clock earlier (nanos - 1)).store.removeExpired moment.clock).1⟩

/-- When a sweep is due, it happens, on what the store holds at that instant. -/
theorem during_of_dueIn (clock : Instant) {earlier : List SweepStep} {nanos : Nat}
    (hpos : 0 < nanos) (hdue : DueIn plan earlier nanos) :
    (during plan clock earlier nanos).store =
      ((during plan clock earlier (nanos - 1)).store.removeExpired
        (during plan clock earlier nanos).clock).2 ∧
    (during plan clock earlier nanos).sweeps =
      (during plan clock earlier (nanos - 1)).sweeps ++ [sweepDuring plan clock earlier nanos] := by
  obtain ⟨passed, rfl⟩ := Nat.exists_eq_succ_of_ne_zero (Nat.ne_of_gt hpos)
  have hmem := (@mem_due_after_iff plan earlier clock _ _).2 ⟨hpos, Nat.le_refl _, hdue⟩
  rw [← timer_after_initial plan clock earlier] at hmem
  exact sleep_succ_of_mem_due (ordered_after plan clock earlier).led hmem

/-- A run passes the moments in its sleeps. -/
theorem exists_after_during (clock : Instant) {earlier : List SweepStep} {nanos : Nat}
    (h : SweptIn plan steps earlier nanos) :
    ∃ rest, (initial clock).after plan steps =
      (during plan clock earlier nanos).after plan rest := by
  obtain ⟨whole, later, rfl, -, hle, -⟩ := h
  refine ⟨.sleep (whole - nanos) :: later, ?_⟩
  have hsplit : ((initial clock).after plan earlier).sleep plan whole =
      (during plan clock earlier nanos).sleep plan (whole - nanos) := by
    rw [during, ← sleep_add (ordered_after plan clock earlier).led,
      Nat.add_sub_cancel' hle]
  rw [after_append]
  exact congrArg (after plan · later) hsplit

/-- Sweeps that have happened are not forgotten. -/
theorem Ordered.sweeps_prefix_step (h : run.Ordered plan) (s : SweepStep) :
    run.sweeps <+: (run.step plan s).sweeps := by
  cases s with
  | sleep nanos =>
    show run.sweeps <+: (run.sleep plan nanos).sweeps
    rw [sleep_eq h.led]
    exact sweeps_prefix_sweepAll
  | _ => exact List.prefix_rfl

/-- Sweeps that have happened stay on record. -/
theorem Ordered.sweeps_prefix_after (h : run.Ordered plan) (steps : List SweepStep) :
    run.sweeps <+: (run.after plan steps).sweeps := by
  induction steps generalizing run with
  | nil => exact List.prefix_rfl
  | cons s steps ih => exact (h.sweeps_prefix_step s).trans (ih (h.step s))

/-- The sweeps of a run are those that happen when its sweepers are due. -/
theorem mem_sweeps_iff {clock : Instant} {sweep : Sweep} :
    sweep ∈ ((initial clock).after plan steps).sweeps ↔
      ∃ earlier nanos, SweptIn plan steps earlier nanos ∧
        sweep = sweepDuring plan clock earlier nanos := by
  have hmem {earlier : List SweepStep} {nanos : Nat} (h : SweptIn plan steps earlier nanos) :
      sweepDuring plan clock earlier nanos ∈ ((initial clock).after plan steps).sweeps := by
    obtain ⟨rest, hrest⟩ := exists_after_during clock h
    obtain ⟨whole, later, -, hpos, -, hdue⟩ := h
    have hmoment : (during plan clock earlier nanos).Ordered plan :=
      (ordered_after plan clock earlier).step (.sleep nanos)
    rw [hrest]
    refine (hmoment.sweeps_prefix_after rest).subset ?_
    rw [(during_of_dueIn clock hpos hdue).2]
    exact List.mem_append_right _ (List.mem_singleton_self _)
  constructor
  · intro hsweep
    have hinstant : (sweep.time, sweep.reading) ∈ ((initial clock).after plan steps).instants :=
      List.mem_map_of_mem hsweep
    obtain ⟨earlier, nanos, hswept, hmoment⟩ := mem_instants_iff.1 hinstant
    refine ⟨earlier, nanos, hswept, ?_⟩
    -- there is one sweep at a time, so this is the one that happens when the sweeper is due
    have hnodup : (((initial clock).after plan steps).sweeps.map (·.time)).Nodup := by
      have hrising := (ordered_after plan clock steps).sweeps
      exact List.pairwise_map.2 (hrising.imp Nat.ne_of_lt)
    exact List.inj_on_of_nodup_map hnodup hsweep (hmem hswept) (congrArg Prod.fst hmoment)
  · rintro ⟨earlier, nanos, hswept, rfl⟩
    exact hmem hswept

end

end SweepRun

end CacheServer
