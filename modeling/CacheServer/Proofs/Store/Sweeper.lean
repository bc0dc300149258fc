import CacheServer.Store.Sweeper
import Mathlib.Algebra.GroupWithZero.Nat
import Mathlib.Data.List.Sort

/-!
# What happens in a sleep

While the program sleeps, the timer moves from tick to tick, and at each one some task sweeps. In a
run that was made step by step only the task that was started last can be running (`Led`), since
every start cancels the token of the task before. So a sleep is a row of sweeps at the ticks of this
task (`sleep_eq`), which are an interval apart (`mem_due_iff`), and it can be cut anywhere
(`sleep_add`).
-/

namespace CacheServer

/-- Behind a tick that is taken in time, the next one is an interval later. -/
theorem Ticker.tick_of_le {ticker : Ticker} {now : Nat} (h : now ≤ ticker.next + tolerance)
    (interval : Nat) : ticker.tick interval now = ⟨ticker.next + interval⟩ := by
  rw [tick, if_neg (Nat.not_lt.2 h)]

namespace Store

variable (s : Store)

/-- To sort out twice is to sort out by both conditions. -/
theorem restrict_restrict (p q : String × Item → Bool) :
    (s.restrict p).restrict q = s.restrict fun e => p e && q e :=
  ext (by simp [List.filter_filter, Bool.and_comm])

/-- A condition that every entry meets sorts out nothing. -/
theorem restrict_eq_self {p : String × Item → Bool} (h : ∀ e ∈ s.entries, p e = true) :
    s.restrict p = s :=
  ext (List.filter_eq_self.2 h)

/-- An entry that is kept can be written before or after the others are sorted out. -/
theorem restrict_put {p : String × Item → Bool} {key : String} {item : Item}
    (h : p (key, item) = true) : (s.put key item).restrict p = (s.restrict p).put key item :=
  ext (by
    rw [entries_restrict, entries_put, entries_put, entries_restrict, List.filter_cons_of_pos h,
      List.filter_comm])

end Store

/-! ## Sweeps in a row -/

namespace SweepRun

/-- How many entries the sweeps of a run have removed. -/
def total (run : SweepRun) : Nat := (run.sweeps.map (·.count)).sum

/-- When the sweeps of a run have happened, by the timer and by the store's clock. -/
def instants (run : SweepRun) : List (Nat × Instant) :=
  run.sweeps.map fun sweep => (sweep.time, sweep.reading)

/-- Sweeps at several readings of the timer. -/
def sweepAll (counted : Bool) (reading : Nat → Instant) (run : SweepRun) (times : List Nat) :
    SweepRun :=
  times.foldl (fun r time => sweepAt counted r time (reading time)) run

section
variable {counted : Bool} {reading : Nat → Instant} {run : SweepRun} {times : List Nat}

/-- Sweeps in a row begin with the first. -/
theorem sweepAll_cons (time : Nat) : sweepAll counted reading run (time :: times) =
    sweepAll counted reading (sweepAt counted run time (reading time)) times := rfl

/-- Only the readings at which sweeps happen matter. -/
theorem sweepAll_congr {reading' : Nat → Instant}
    (h : ∀ time ∈ times, reading time = reading' time) :
    sweepAll counted reading run times = sweepAll counted reading' run times := by
  induction times generalizing run with
  | nil => rfl
  | cons time times ih =>
    obtain ⟨htime, htimes⟩ := List.forall_mem_cons.1 h
    rw [sweepAll_cons, sweepAll_cons, htime, ih htimes]

/-- The run with another timer, another clock and other tasks. -/
def moved (run : SweepRun) (timer : Nat) (clock : Instant) (tasks : List SweepTask) : SweepRun :=
  { run with timer, clock, tasks }

/-- Sweeps leave the timer, the clock and the tasks alone, so these can be changed before or
after. -/
theorem sweepAll_moved (timer : Nat) (clock : Instant) (tasks : List SweepTask) :
    sweepAll counted reading (run.moved timer clock tasks) times =
      (sweepAll counted reading run times).moved timer clock tasks := by
  induction times generalizing run with
  | nil => rfl
  | cons time times ih => exact @ih (sweepAt counted run time (reading time))

/-- Sweeps leave the token that is kept. -/
theorem sweeper_sweepAll : (sweepAll counted reading run times).sweeper = run.sweeper := by
  induction times generalizing run with
  | nil => rfl
  | cons time times ih => exact ih

/-- Sweeps in a row can be cut anywhere. -/
theorem sweepAll_append (times' : List Nat) : sweepAll counted reading run (times ++ times') =
    sweepAll counted reading (sweepAll counted reading run times) times' :=
  List.foldl_append

/-- Sweeps in a row happen at their times. -/
theorem instants_sweepAll : (sweepAll counted reading run times).instants =
    run.instants ++ times.map fun time => (time, reading time) := by
  induction times generalizing run with
  | nil => simp [sweepAll]
  | cons time times ih =>
    rw [sweepAll_cons, ih]
    simp [instants, sweepAt]

/-- Sweeps in a row leave the earlier ones on record. -/
theorem sweeps_prefix_sweepAll : run.sweeps <+: (sweepAll counted reading run times).sweeps := by
  induction times generalizing run with
  | nil => exact List.prefix_rfl
  | cons time times ih =>
    have hfirst : run.sweeps <+: (sweepAt counted run time (reading time)).sweeps :=
      List.prefix_append _ _
    exact hfirst.trans ih

/-- Sweeps leave the entries that have not expired at any of them. -/
theorem store_sweepAll : (sweepAll counted reading run times).store =
    run.store.restrict fun e => times.all fun time => !e.2.expiredAt (reading time) := by
  induction times generalizing run with
  | nil => exact (run.store.restrict_eq_self fun _ _ => rfl).symm
  | cons time times ih =>
    rw [sweepAll_cons, ih]
    exact run.store.restrict_restrict _ _

/-- What sweeps remove, they count. -/
theorem total_sweepAll : (sweepAll counted reading run times).total +
      (sweepAll counted reading run times).store.entries.length =
    run.total + run.store.entries.length := by
  induction times generalizing run with
  | nil => rfl
  | cons time times ih =>
    have hsweep : (sweepAt counted run time (reading time)).total =
        run.total + (run.store.removeExpired (reading time)).1 := by
      simp [total, sweepAt]
    have hkept : ((run.store.removeExpired (reading time)).2).entries.length ≤
        run.store.entries.length := List.length_filter_le _ _
    rw [sweepAll_cons, ih, hsweep, Nat.add_assoc]
    exact congrArg (run.total + ·) (Nat.sub_add_cancel hkept)

/-- Sweeps that count keep the counter at the number of removed entries. -/
theorem removed_sweepAll (hcounted : counted = true)
    (h : run.removed = UInt64.ofNat run.total) :
    (sweepAll counted reading run times).removed =
      UInt64.ofNat (sweepAll counted reading run times).total := by
  induction times generalizing run with
  | nil => exact h
  | cons time times ih =>
    refine ih ?_
    simp [total, sweepAt, hcounted, h]

end

/-! ## Ticks -/

section
variable {interval next upTo later time : Nat}

/-- How many ticks are due by a time, when the next one is due at `next`. -/
def ticksBy (interval next upTo : Nat) : Nat := (upTo + interval - next) / interval

/-- The ticks that are due by a time, when the next one is due at `next`. -/
def ticksFrom (interval next upTo : Nat) : List Nat :=
  (List.range (ticksBy interval next upTo)).map fun i => next + i * interval

/-- The ticks by a time are those that lie no later. -/
theorem lt_ticksBy_iff (hpos : 0 < interval) {i : Nat} :
    i < ticksBy interval next upTo ↔ next + i * interval ≤ upTo := by
  rw [ticksBy, Nat.lt_iff_add_one_le, Nat.le_div_iff_mul_le hpos, Nat.succ_mul]
  omega

/-- There is no tick before the next one. -/
theorem ticksBy_eq_zero_iff (hpos : 0 < interval) :
    ticksBy interval next upTo = 0 ↔ upTo < next := by
  have hfirst : 0 < ticksBy interval next upTo ↔ next + 0 * interval ≤ upTo := lt_ticksBy_iff hpos
  omega

/-- By a later time there are no fewer ticks. -/
theorem ticksBy_mono (h : upTo ≤ later) :
    ticksBy interval next upTo ≤ ticksBy interval next later :=
  Nat.div_le_div_right (Nat.sub_le_sub_right (Nat.add_le_add_right h _) _)

/-- Behind some ticks the others are left. -/
theorem ticksBy_add_mul (k : Nat) :
    ticksBy interval (next + k * interval) upTo = ticksBy interval next upTo - k := by
  rw [ticksBy, ticksBy, ← Nat.sub_sub, Nat.mul_comm, Nat.sub_mul_div]

/-- The ticks are whole intervals behind the next one. -/
theorem mem_ticksFrom_iff (hpos : 0 < interval) : time ∈ ticksFrom interval next upTo ↔
    time ≤ upTo ∧ ∃ i, time = next + i * interval := by
  simp only [ticksFrom, List.mem_map, List.mem_range, lt_ticksBy_iff hpos]
  constructor
  · rintro ⟨i, hi, rfl⟩
    exact ⟨hi, i, rfl⟩
  · rintro ⟨hle, i, rfl⟩
    exact ⟨i, hle, rfl⟩

/-- One tick comes after the other. -/
theorem pairwise_ticksFrom (hpos : 0 < interval) :
    (ticksFrom interval next upTo).Pairwise (· < ·) :=
  List.pairwise_map.2 (List.pairwise_lt_range.imp fun hlt =>
    Nat.add_lt_add_left (Nat.mul_lt_mul_of_pos_right hlt hpos) _)

/-- Behind a tick that is due, one less is left. -/
theorem ticksBy_of_le (hpos : 0 < interval) (h : next ≤ upTo) :
    ticksBy interval next upTo = ticksBy interval (next + interval) upTo + 1 := by
  have hdue : 0 < ticksBy interval next upTo :=
    (lt_ticksBy_iff hpos).2 (by rwa [Nat.zero_mul, Nat.add_zero])
  have hrest : ticksBy interval (next + 1 * interval) upTo = ticksBy interval next upTo - 1 :=
    ticksBy_add_mul 1
  rw [Nat.one_mul] at hrest
  omega

/-- A tick that is due is in front of the ticks behind it. -/
theorem ticksFrom_of_le (hpos : 0 < interval) (h : next ≤ upTo) :
    ticksFrom interval next upTo = next :: ticksFrom interval (next + interval) upTo := by
  rw [ticksFrom, ticksBy_of_le hpos h, List.range_succ_eq_map, List.map_cons, List.map_map]
  simp [ticksFrom, Function.comp_def, Nat.succ_mul, Nat.add_comm interval, Nat.add_assoc]

/-- Before the next tick there is none. -/
theorem ticksFrom_of_lt (hpos : 0 < interval) (h : upTo < next) :
    ticksFrom interval next upTo = [] := by
  rw [ticksFrom, (ticksBy_eq_zero_iff hpos).2 h]
  rfl

/-- The first tick behind a time. -/
def tickBehind (interval next upTo : Nat) : Nat := next + ticksBy interval next upTo * interval

/-- The tick behind a time is the same when one tick in front of it has been taken. -/
theorem tickBehind_of_le (hpos : 0 < interval) (h : next ≤ upTo) :
    tickBehind interval (next + interval) upTo = tickBehind interval next upTo := by
  rw [tickBehind, tickBehind, ticksBy_of_le hpos h, Nat.succ_mul]
  omega

/-- The ticks of two spans of time, one behind the other. -/
theorem ticksFrom_append (h : upTo ≤ later) : ticksFrom interval next later =
    ticksFrom interval next upTo ++ ticksFrom interval (tickBehind interval next upTo) later := by
  have hsplit : ticksBy interval next later = ticksBy interval next upTo +
      (ticksBy interval next later - ticksBy interval next upTo) :=
    (Nat.add_sub_cancel' (ticksBy_mono h)).symm
  rw [ticksFrom, hsplit, List.range_add, List.map_append, List.map_map, tickBehind]
  congr 1
  rw [ticksFrom, ticksBy_add_mul]
  simp [Function.comp_def, Nat.add_mul, Nat.add_assoc]

/-- The tick behind a later time, counted from the tick behind an earlier one. -/
theorem tickBehind_tickBehind (h : upTo ≤ later) :
    tickBehind interval (tickBehind interval next upTo) later = tickBehind interval next later := by
  have hmono : ticksBy interval next upTo ≤ ticksBy interval next later := ticksBy_mono h
  rw [tickBehind, tickBehind, ticksBy_add_mul, Nat.add_assoc, ← Nat.add_mul,
    Nat.add_sub_cancel' hmono, tickBehind]

/-- The first tick behind a time is behind it, by an interval at most if the next one is. -/
theorem lt_tickBehind (hpos : 0 < interval) : upTo < tickBehind interval next upTo :=
  Nat.not_le.1 fun hle => Nat.lt_irrefl _ ((lt_ticksBy_iff hpos).2 hle)

/-- The tick behind a time is at most an interval away. -/
theorem tickBehind_le (hpos : 0 < interval) (h : next ≤ upTo + interval) :
    tickBehind interval next upTo ≤ upTo + interval := by
  rw [tickBehind]
  cases hk : ticksBy interval next upTo with
  | zero => omega
  | succ k =>
    have hlast : next + k * interval ≤ upTo := (lt_ticksBy_iff hpos).1 (by omega)
    rw [Nat.succ_mul]
    omega

end

/-! ## Moving the timer on -/

section
variable {plan : SweepPlan} {run : SweepRun} {nanos upTo next time : Nat}
  {front : List SweepTask} {task : SweepTask}

/-- What the clock shows later does not depend on where the timer is read in between. -/
theorem readingAt_moveTo (htimer : run.timer ≤ next) (h : next ≤ time) :
    readingAt plan (run.moveTo plan next) time = readingAt plan run time := by
  have hspan : time - run.timer = next - run.timer + (time - next) := by omega
  simp only [readingAt, moveTo]
  rw [hspan, Nat.mul_add, Nat.add_assoc]

/-- Where no task waits for a tick, none sweeps. -/
theorem runTo_of_none (h : ∀ task ∈ run.tasks, task.awaited? = none) (ticks : Nat) :
    run.runTo plan upTo ticks = run.moveTo plan upTo := by
  have hnone : run.nextTick? upTo = none := by
    rw [nextTick?, List.filterMap_eq_nil_iff.2 h]
    rfl
  cases ticks with
  | zero => rfl
  | succ ticks => simp only [runTo, hnone]

/-- If only the last task waits, only its tick is awaited. -/
theorem filterMap_awaited (hfront : ∀ other ∈ front, other.awaited? = none) :
    (front ++ [task.waitOn ⟨next⟩]).filterMap (·.awaited?) = [next] := by
  rw [List.filterMap_append, List.filterMap_eq_nil_iff.2 hfront]
  rfl

/-- At its tick, the only task that waits for one sweeps, and then waits for the next one. -/
theorem takeTicks_eq (hfront : ∀ other ∈ front, other.awaited? = none)
    (htasks : run.tasks = front ++ [task.waitOn ⟨run.timer⟩]) :
    run.takeTicks plan = (sweepAt task.counted run run.timer run.clock).moved run.timer run.clock
      (front ++ [task.waitOn ⟨run.timer + plan.interval⟩]) := by
  have hidle : ∀ other ∈ front, other.isDue run.timer = false := fun other hother => by
    rw [SweepTask.isDue, hfront other hother]
    rfl
  have hdue : (task.waitOn ⟨run.timer⟩).isDue run.timer = true := by
    simp [SweepTask.isDue, SweepTask.awaited?, SweepTask.waitOn]
  have hfilter : run.tasks.filter (·.isDue run.timer) = [task.waitOn ⟨run.timer⟩] := by
    rw [htasks, List.filter_append, List.filter_cons_of_pos hdue,
      List.filter_eq_nil_iff.2 fun other hother => by simp [hidle other hother]]
    rfl
  have hmap : (run.tasks.map fun other =>
      if other.isDue run.timer then other.takeTick plan.interval run.timer else other) =
      front ++ [task.waitOn ⟨run.timer + plan.interval⟩] := by
    rw [htasks, List.map_append, List.map_singleton, if_pos hdue]
    congr 1
    · refine (List.map_congr_left fun other hother => ?_).trans (List.map_id _)
      rw [hidle other hother]
      rfl
    · exact congrArg (fun ticker => [task.waitOn ticker])
        (Ticker.tick_of_le (Nat.le_add_right _ _) plan.interval)
  simp only [takeTicks, hfilter, hmap, List.foldl_cons, List.foldl_nil]
  rfl

/-- Before its tick is due, the only task that waits for one does nothing. -/
theorem runTo_of_lt (hfront : ∀ other ∈ front, other.awaited? = none)
    (htasks : run.tasks = front ++ [task.waitOn ⟨next⟩]) (hlt : upTo < next) (ticks : Nat) :
    run.runTo plan upTo ticks = run.moveTo plan upTo := by
  have hnone : run.nextTick? upTo = none := by
    rw [nextTick?, htasks, filterMap_awaited hfront]
    simp [hlt]
  cases ticks with
  | zero => rfl
  | succ ticks => simp only [runTo, hnone]

/-- The timer moves on over the ticks of the only task that waits for one; it sweeps at each, and
then waits for the first tick behind. -/
theorem runTo_eq (hfront : ∀ other ∈ front, other.awaited? = none)
    (htasks : run.tasks = front ++ [task.waitOn ⟨next⟩]) (htimer : run.timer ≤ next)
    {ticks : Nat} (henough : ticksBy plan.interval next upTo ≤ ticks) :
    run.runTo plan upTo ticks =
      (sweepAll task.counted (readingAt plan run) run (ticksFrom plan.interval next upTo)).moved
        upTo (readingAt plan run upTo)
        (front ++ [task.waitOn ⟨tickBehind plan.interval next upTo⟩]) := by
  have hpos := plan.interval_pos
  have hover {run : SweepRun} {next ticks : Nat}
      (htasks : run.tasks = front ++ [task.waitOn ⟨next⟩]) (hlt : upTo < next) :
      run.runTo plan upTo ticks =
        (sweepAll task.counted (readingAt plan run) run (ticksFrom plan.interval next upTo)).moved
          upTo (readingAt plan run upTo)
          (front ++ [task.waitOn ⟨tickBehind plan.interval next upTo⟩]) := by
    rw [runTo_of_lt hfront htasks hlt, ticksFrom_of_lt hpos hlt, tickBehind,
      (ticksBy_eq_zero_iff hpos).2 hlt, Nat.zero_mul, Nat.add_zero, ← htasks]
    rfl
  -- each round takes one tick, so the ticks that are left never exceed the rounds that are left
  induction ticks generalizing run next with
  | zero => exact hover htasks ((ticksBy_eq_zero_iff hpos).1 (Nat.le_zero.1 henough))
  | succ ticks ih =>
    rcases Nat.lt_or_ge upTo next with hlt | hle
    · exact hover htasks hlt
    · have hnext : run.nextTick? upTo = some next := by
        rw [nextTick?, htasks, filterMap_awaited hfront]
        simp [hle]
      have hswept : (run.moveTo plan next).takeTicks plan =
          (sweepAt task.counted run next (readingAt plan run next)).moved next
            (readingAt plan run next) (front ++ [task.waitOn ⟨next + plan.interval⟩]) :=
        takeTicks_eq hfront htasks
      have hreading {time : Nat} (hlater : next ≤ time) :
          readingAt plan ((run.moveTo plan next).takeTicks plan) time =
            readingAt plan run time := by
        rw [hswept]
        exact readingAt_moveTo htimer hlater
      have htimes : ∀ time ∈ ticksFrom plan.interval (next + plan.interval) upTo,
          readingAt plan ((run.moveTo plan next).takeTicks plan) time =
            readingAt plan run time := by
        intro time htime
        obtain ⟨-, i, rfl⟩ := (mem_ticksFrom_iff hpos).1 htime
        exact hreading (by omega)
      simp only [runTo, hnext]
      rw [ticksBy_of_le hpos hle] at henough
      rw [ih (by rw [hswept]; rfl) (by rw [hswept]; exact Nat.le_add_right _ _) (by omega),
        hreading hle, sweepAll_congr htimes, hswept, sweepAll_moved, ticksFrom_of_le hpos hle,
        tickBehind_of_le hpos hle]
      rfl

end

/-! ## Sleeping -/

end SweepRun

namespace SweepTask

variable {interval now upTo later next : Nat} {task : SweepTask}

/-- A task whose token is cancelled ends as soon as it runs. -/
theorem proceed_of_cancelled (h : task.cancelled = true) :
    task.proceed interval now = { task with loop := .ended } :=
  if_pos h

/-- A task that waits for its ticker goes on to wait. -/
theorem proceed_waitOn (h : task.cancelled = false) (ticker : Ticker) :
    (task.waitOn ticker).proceed interval now = task.waitOn ticker :=
  if_neg (by simp [waitOn, h])

/-- A task that has just been started waits for a tick one interval away. -/
theorem proceed_spawned (counted : Bool) : proceed interval now ⟨false, counted, .spawned⟩ =
    waitOn ⟨false, counted, .spawned⟩ ⟨now + interval⟩ := by
  have htick : (Ticker.start now).tick interval now = ⟨now + interval⟩ :=
    Ticker.tick_of_le (Nat.le_add_right _ _) interval
  simp [proceed, htick]

/-- To run on does not cancel a task. -/
@[simp] theorem cancelled_proceed : (task.proceed interval now).cancelled = task.cancelled := by
  unfold proceed
  split
  · rfl
  · split <;> rfl

/-- To run on leaves it as it was whether a task counts. -/
@[simp] theorem counted_proceed : (task.proceed interval now).counted = task.counted := by
  unfold proceed
  split
  · rfl
  · split <;> rfl

/-- What a task is waiting for when the ticks up to a time have been taken. -/
def pass (interval upTo : Nat) (task : SweepTask) : SweepTask :=
  match task.loop with
  | .waiting ticker => task.waitOn ⟨SweepRun.tickBehind interval ticker.next upTo⟩
  | .spawned | .ended => task

/-- Time that passes does not cancel a task. -/
@[simp] theorem cancelled_pass : (task.pass interval upTo).cancelled = task.cancelled := by
  unfold pass
  split <;> rfl

/-- Time that passes leaves it as it was whether a task counts. -/
@[simp] theorem counted_pass : (task.pass interval upTo).counted = task.counted := by
  unfold pass
  split <;> rfl

/-- A task that waits for no tick is not concerned. -/
theorem pass_of_none (h : task.awaited? = none) : task.pass interval upTo = task := by
  unfold pass
  split
  · next hloop => simp [awaited?, hloop] at h
  · rfl
  · rfl

/-- A task that runs on in between waits for the same in the end. -/
theorem pass_proceed_pass (h : upTo ≤ later) (now' : Nat) :
    (((task.proceed interval now).pass interval upTo).proceed interval now').pass interval later =
      (task.proceed interval now).pass interval later := by
  obtain ⟨cancelled, counted, loop⟩ := task
  cases cancelled with
  | true => rfl
  | false =>
    cases loop with
    | ended => rfl
    | spawned | waiting =>
      simp only [proceed, Bool.false_eq_true, if_false, pass, waitOn]
      rw [SweepRun.tickBehind_tickBehind h]

end SweepTask

namespace SweepRun

section
variable {plan : SweepPlan} {run : SweepRun} {nanos next : Nat} {next? : Option Nat}

/-- Which task can be running: none, or the one that was started last, and then its token is kept,
and it waits for the tick `next`, which is an interval away at most. -/
inductive Led (plan : SweepPlan) (run : SweepRun) : Option Nat → Prop
  | idle : (∀ task ∈ run.tasks, task.cancelled = true) → Led plan run none
  | running {front : List SweepTask} {task : SweepTask} {next : Nat} :
      run.tasks = front ++ [task] → (∀ other ∈ front, other.cancelled = true) →
      run.sweeper = some front.length →
      task.cancelled = false →
      task.proceed plan.interval run.timer = task.waitOn ⟨next⟩ →
      run.timer < next → next ≤ run.timer + plan.interval → Led plan run (some next)

/-- The tick that a task of the run waits for. -/
def awaitedTick (plan : SweepPlan) (run : SweepRun) : Option Nat :=
  ((run.proceed plan).tasks.filterMap (·.awaited?)).head?

/-- The ticks in the next nanoseconds. -/
def due (plan : SweepPlan) (run : SweepRun) (nanos : Nat) : List Nat :=
  (run.awaitedTick plan).elim [] fun next => ticksFrom plan.interval next (run.timer + nanos)

/-- Whether the task that was started last counts what it removes. -/
def counts (run : SweepRun) : Bool := run.tasks.getLast?.all (·.counted)

/-- The tasks when some nanoseconds have passed. -/
def asleep (plan : SweepPlan) (run : SweepRun) (nanos : Nat) : List SweepTask :=
  run.tasks.map fun task =>
    (task.proceed plan.interval run.timer).pass plan.interval (run.timer + nanos)

/-- Tasks that are cancelled wait for nothing. -/
theorem awaited_proceed_of_cancelled {tasks : List SweepTask} {interval now : Nat}
    (h : ∀ task ∈ tasks, task.cancelled = true) :
    ∀ task ∈ tasks.map (·.proceed interval now), task.awaited? = none := by
  intro task htask
  obtain ⟨other, hother, rfl⟩ := List.mem_map.1 htask
  rw [SweepTask.proceed_of_cancelled (h other hother)]
  rfl

/-- The tick that a run waits for is the one that it is led by. -/
theorem Led.awaitedTick_eq (h : Led plan run next?) : run.awaitedTick plan = next? := by
  cases h with
  | idle hcancelled =>
    have hnone : (run.proceed plan).tasks.filterMap (·.awaited?) = [] :=
      List.filterMap_eq_nil_iff.2 (awaited_proceed_of_cancelled hcancelled)
    rw [awaitedTick, hnone]
    rfl
  | @running front task next htasks hfront _ _ hwaits =>
    have hnext : (run.proceed plan).tasks.filterMap (·.awaited?) = [next] := by
      rw [proceed, htasks, List.map_append, List.map_singleton, hwaits]
      exact filterMap_awaited (awaited_proceed_of_cancelled hfront)
    rw [awaitedTick, hnext]
    rfl

/-- A sleep sweeps at the ticks that are due in it, and moves the timer and the clock on. -/
theorem sleep_eq (h : Led plan run next?) (nanos : Nat) : run.sleep plan nanos =
    (sweepAll run.counts (readingAt plan run) run (due plan run nanos)).moved (run.timer + nanos)
      (readingAt plan run (run.timer + nanos)) (asleep plan run nanos) := by
  have hpos := plan.interval_pos
  have htasks : asleep plan run nanos =
      (run.proceed plan).tasks.map (·.pass plan.interval (run.timer + nanos)) := by
    simp [asleep, proceed]
  have hnext := h.awaitedTick_eq
  cases h with
  | idle hcancelled =>
    have hnone : ∀ task ∈ run.tasks.map (·.proceed plan.interval run.timer),
        task.awaited? = none := awaited_proceed_of_cancelled hcancelled
    have hpass : asleep plan run nanos = (run.proceed plan).tasks := by
      rw [htasks]
      exact (List.map_congr_left fun task htask => SweepTask.pass_of_none (hnone task htask)).trans
        (List.map_id _)
    rw [sleep, runTo_of_none hnone, due, hnext, hpass]
    rfl
  | @running front task next hlast hfront _ _ hwaits hlt hle =>
    have hnone : ∀ task ∈ front.map (·.proceed plan.interval run.timer), task.awaited? = none :=
      awaited_proceed_of_cancelled hfront
    have hproceed : (run.proceed plan).tasks =
        front.map (·.proceed plan.interval run.timer) ++ [task.waitOn ⟨next⟩] := by
      rw [proceed, hlast, List.map_append, List.map_singleton, hwaits]
    have hcounts : run.counts = task.counted := by
      rw [counts, hlast, List.getLast?_concat]
      rfl
    have henough : ticksBy plan.interval next (run.timer + nanos) ≤ enoughTicks plan run nanos := by
      have hone : ticksBy plan.interval next (run.timer + nanos) ≤ nanos / plan.interval + 1 := by
        rw [ticksBy, ← Nat.add_div_right _ hpos]
        exact Nat.div_le_div_right (by omega)
      refine Nat.le_trans hone (Nat.le_mul_of_pos_left _ ?_)
      rw [hlast, List.length_append]
      exact Nat.succ_pos _
    have hpass : asleep plan run nanos = front.map (·.proceed plan.interval run.timer) ++
        [task.waitOn ⟨tickBehind plan.interval next (run.timer + nanos)⟩] := by
      rw [htasks, hproceed, List.map_append]
      congr 1
      exact (List.map_congr_left fun task htask => SweepTask.pass_of_none (hnone task htask)).trans
        (List.map_id _)
    rw [sleep, runTo_eq hnone hproceed (Nat.le_of_lt hlt) henough, due, hnext, hcounts, hpass]
    have hswept (times : List Nat) :
        sweepAll task.counted (readingAt plan (run.proceed plan)) (run.proceed plan) times =
          (sweepAll task.counted (readingAt plan run) run times).moved run.timer run.clock
            (run.proceed plan).tasks :=
      sweepAll_moved run.timer run.clock _
    rw [hswept]
    rfl

/-- Behind a sleep the same task is running, and waits for the first tick behind. -/
theorem Led.sleep (h : Led plan run next?) (nanos : Nat) : Led plan (run.sleep plan nanos)
    (next?.map fun next => tickBehind plan.interval next (run.timer + nanos)) := by
  have hpos := plan.interval_pos
  have hcancelled {tasks : List SweepTask} (h : ∀ task ∈ tasks, task.cancelled = true) :
      ∀ task ∈ tasks.map fun task =>
        (task.proceed plan.interval run.timer).pass plan.interval (run.timer + nanos),
        task.cancelled = true := by
    intro task htask
    obtain ⟨other, hother, rfl⟩ := List.mem_map.1 htask
    simpa using h other hother
  rw [sleep_eq h]
  cases h with
  | idle hidle => exact .idle (hcancelled hidle)
  | @running front task next htasks hfront hkept hrunning hwaits hlt hle =>
    let rested : SweepTask := task.waitOn ⟨tickBehind plan.interval next (run.timer + nanos)⟩
    have htasks : asleep plan run nanos = (front.map fun task =>
        (task.proceed plan.interval run.timer).pass plan.interval (run.timer + nanos)) ++
          [rested] := by
      rw [asleep, htasks, List.map_append, List.map_singleton, hwaits]
      rfl
    refine .running htasks (hcancelled hfront) ?_ hrunning (task.proceed_waitOn hrunning _)
      (lt_tickBehind hpos) (tickBehind_le hpos (by omega))
    rw [List.length_map, ← hkept]
    exact sweeper_sweepAll

section
variable (h : Led plan run next?) (nanos : Nat)
include h

/-- A sleep moves the timer on. -/
theorem timer_sleep : (run.sleep plan nanos).timer = run.timer + nanos := by
  rw [sleep_eq h]
  rfl

/-- A sleep moves the store's clock with the timer. -/
theorem clock_sleep :
    (run.sleep plan nanos).clock = readingAt plan run (run.timer + nanos) := by
  rw [sleep_eq h]
  rfl

/-- The tasks behind a sleep. -/
theorem tasks_sleep : (run.sleep plan nanos).tasks = asleep plan run nanos := by
  rw [sleep_eq h]
  rfl

/-- A sleep adds the sweeps that are due in it. -/
theorem instants_sleep : (run.sleep plan nanos).instants =
    run.instants ++ (due plan run nanos).map fun time => (time, readingAt plan run time) := by
  rw [sleep_eq h]
  exact instants_sweepAll

/-- A sleep takes out what has expired at a sweep that is due in it. -/
theorem store_sleep : (run.sleep plan nanos).store =
    run.store.restrict fun e =>
      (due plan run nanos).all fun time => !e.2.expiredAt (readingAt plan run time) := by
  rw [sleep_eq h]
  exact store_sweepAll

/-- What a sleep takes out of the store it counts as removed. -/
theorem total_sleep : (run.sleep plan nanos).total + (run.sleep plan nanos).store.entries.length =
    run.total + run.store.entries.length := by
  rw [sleep_eq h]
  exact total_sweepAll

end

/-- Sweeps come at the ticks that the task waits for: the next one, and then one in each
interval. -/
theorem mem_due_iff (h : Led plan run next?) {time : Nat} : time ∈ due plan run nanos ↔
    ∃ next ∈ next?, time ≤ run.timer + nanos ∧ ∃ i, time = next + i * plan.interval := by
  rw [due, h.awaitedTick_eq]
  cases next? with
  | none => simp
  | some next => simpa using mem_ticksFrom_iff plan.interval_pos

/-- Ticks that are due in a sleep are behind its beginning. -/
theorem lt_of_mem_due (h : Led plan run next?) {time : Nat} (htime : time ∈ due plan run nanos) :
    run.timer < time := by
  obtain ⟨next, hnext, -, i, rfl⟩ := (mem_due_iff h).1 htime
  cases h with
  | idle => exact nomatch hnext
  | running _ _ _ _ _ hlt _ =>
    cases hnext
    exact Nat.lt_add_right _ hlt

/-- The tick that a task waits for is an interval away at most. -/
theorem Led.le_add (h : Led plan run (some next)) : next ≤ run.timer + plan.interval := by
  cases h with
  | running _ _ _ _ _ _ hle => exact hle

/-- The sweeps that are due in a sleep come one after the other. -/
theorem pairwise_due : (due plan run nanos).Pairwise (· < ·) := by
  unfold due
  cases run.awaitedTick plan with
  | none => exact .nil
  | some next => exact pairwise_ticksFrom plan.interval_pos

/-- What the clock shows later does not depend on where the timer is read in between. -/
theorem readingAt_sleep (h : Led plan run next?) {time : Nat} (htime : run.timer + nanos ≤ time) :
    readingAt plan (run.sleep plan nanos) time = readingAt plan run time := by
  have hmoved : readingAt plan (run.moveTo plan (run.timer + nanos)) time =
      readingAt plan run time := readingAt_moveTo (Nat.le_add_right run.timer nanos) htime
  rw [readingAt, timer_sleep h, clock_sleep h]
  exact hmoved

/-- The ticks of two sleeps, one behind the other. -/
theorem due_add (h : Led plan run next?) (nanos later : Nat) : due plan run (nanos + later) =
    due plan run nanos ++ due plan (run.sleep plan nanos) later := by
  rw [due, due, due, h.awaitedTick_eq, (h.sleep nanos).awaitedTick_eq, timer_sleep h,
    ← Nat.add_assoc]
  cases next? with
  | none => rfl
  | some next => exact ticksFrom_append (Nat.le_add_right _ _)

/-- A sleep is two sleeps, one behind the other. -/
theorem sleep_add (h : Led plan run next?) (nanos later : Nat) :
    run.sleep plan (nanos + later) = (run.sleep plan nanos).sleep plan later := by
  have hcounts : (run.sleep plan nanos).counts = run.counts := by
    rw [counts, tasks_sleep h, asleep, List.getLast?_map, counts]
    cases run.tasks.getLast? <;> simp
  have hend : readingAt plan (run.sleep plan nanos) (run.timer + nanos + later) =
      readingAt plan run (run.timer + (nanos + later)) := by
    rw [readingAt_sleep h (Nat.le_add_right _ _), Nat.add_assoc]
  have hreading : ∀ time ∈ due plan (run.sleep plan nanos) later,
      readingAt plan (run.sleep plan nanos) time = readingAt plan run time := by
    intro time htime
    have hlt := lt_of_mem_due (h.sleep nanos) htime
    rw [timer_sleep h] at hlt
    exact readingAt_sleep h (Nat.le_of_lt hlt)
  have htasks : asleep plan (run.sleep plan nanos) later = asleep plan run (nanos + later) := by
    rw [asleep, tasks_sleep h, asleep, List.map_map, timer_sleep h, asleep, Nat.add_assoc]
    refine List.map_congr_left fun task _ => ?_
    exact SweepTask.pass_proceed_pass (by omega) _
  have hswept (times : List Nat) :
      sweepAll run.counts (readingAt plan run) (run.sleep plan nanos) times =
        (sweepAll run.counts (readingAt plan run)
          (sweepAll run.counts (readingAt plan run) run (due plan run nanos)) times).moved
            (run.timer + nanos) (readingAt plan run (run.timer + nanos))
            (asleep plan run nanos) := by
    conv_lhs => rw [sleep_eq h nanos]
    exact sweepAll_moved _ _ _
  rw [sleep_eq h, sleep_eq (h.sleep nanos), hcounts, timer_sleep h, hend, htasks,
    sweepAll_congr hreading, hswept, due_add h, sweepAll_append, Nat.add_assoc]
  rfl

end

end SweepRun

end CacheServer
