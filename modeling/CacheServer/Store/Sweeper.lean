import CacheServer.Store.Basic

/-!
# The expiry sweep

Expired entries take up room until they are swept. A sweeper is a task of its own with a token that
cancels it. Its loop makes a ticker, takes the first tick, which is there at once, and then waits
for the next tick or for its token: at a tick it sweeps the store and waits again, and when it is
cancelled it ends. Whoever has started a sweeper keeps its token; to stop the sweeper, to give it
up and to start another one in its place all cancel it.

A run (`SweepRun`) has two clocks. The timer tells when ticks are due, and it moves while the
program sleeps, from one due tick to the next; the store's clock tells which entries have expired.
In service both keep pace, but a timer can also be run ahead by hand while the store's clock stands
still, so the pace is a parameter: `pace` nanoseconds of the store's clock pass with each nanosecond
of the timer. Time that passes for the store alone is a step of its own (`SweepStep.linger`).
-/

namespace CacheServer

/-! ## Tickers -/

/-- A timer that goes off in intervals. -/
structure Ticker where
  /-- When it goes off next. -/
  next : Nat
  deriving DecidableEq, Repr

namespace Ticker

/-- A ticker goes off for the first time as soon as it is made. -/
def start (now : Nat) : Ticker := ⟨now⟩

/-- How late a tick may be taken, in nanoseconds, without putting off the ticks behind it. -/
def tolerance : Nat := 5000000

/-- The ticker behind a tick that is taken at `now`. The ticks keep their times as long as they are
taken in time; behind a late one they are put off. -/
def tick (ticker : Ticker) (interval now : Nat) : Ticker :=
  ⟨(if ticker.next + tolerance < now then now else ticker.next) + interval⟩

end Ticker

/-! ## Sweepers -/

/-- Where the loop of a sweeper stands. -/
inductive SweepLoop
  /-- In front of its ticker. -/
  | spawned
  /-- Waiting for the next tick, or for its token. -/
  | waiting (ticker : Ticker)
  | ended
  deriving DecidableEq, Repr

/-- The task of a sweeper. -/
structure SweepTask where
  /-- Whether its token is cancelled. -/
  cancelled : Bool
  /-- Whether it counts what it removes. -/
  counted : Bool
  loop : SweepLoop
  deriving DecidableEq, Repr

namespace SweepTask

/-- Cancels the token of a task. -/
def cancel (task : SweepTask) : SweepTask := { task with cancelled := true }

/-- Lets a task wait for its ticker. -/
def waitOn (task : SweepTask) (ticker : Ticker) : SweepTask := { task with loop := .waiting ticker }

/-- Lets a task run until it has to wait: it makes its ticker and takes the first tick, and it ends
if it is cancelled. -/
def proceed (interval now : Nat) (task : SweepTask) : SweepTask :=
  if task.cancelled then { task with loop := .ended }
  else
    match task.loop with
    | .spawned => task.waitOn ((Ticker.start now).tick interval now)
    | .waiting _ | .ended => task

/-- The tick that a task waits for. -/
def awaited? (task : SweepTask) : Option Nat :=
  match task.loop with
  | .waiting ticker => some ticker.next
  | .spawned | .ended => none

/-- Whether the tick that a task waits for is due. -/
def isDue (now : Nat) (task : SweepTask) : Bool := task.awaited?.any (· ≤ now)

/-- Takes a tick and waits for the next one. -/
def takeTick (interval now : Nat) (task : SweepTask) : SweepTask :=
  match task.loop with
  | .waiting ticker => task.waitOn (ticker.tick interval now)
  | .spawned | .ended => task

end SweepTask

/-! ## Runs -/

/-- What can happen in a run. -/
inductive SweepStep
  | set (key : String) (value : Bytes) (ttl : Duration)
  /-- Starts a sweeper, in the place of an earlier one, and gives it the counter or not. -/
  | startWith (counted : Bool)
  /-- Stops the sweeper; stopping it again does nothing. -/
  | stop
  /-- Gives the sweeper up, which stops it. -/
  | drop
  /-- Lets the timer run for some nanoseconds. -/
  | sleep (nanos : Nat)
  /-- Lets some nanoseconds pass for the store alone. -/
  | linger (nanos : Nat)

/-- Starts a sweeper that counts, if there is a counter. -/
def SweepStep.start : SweepStep := .startWith true

/-- The settings of a run. -/
structure SweepPlan where
  /-- The time between sweeps, in nanoseconds. -/
  interval : Nat
  interval_pos : 0 < interval
  pace : Nat
  /-- Whether there is a counter for what sweeps remove. -/
  counted : Bool

/-- A sweep that has happened. -/
structure Sweep where
  /-- The reading of the timer. -/
  time : Nat
  /-- The reading of the store's clock. -/
  reading : Instant
  /-- How many entries it has removed. -/
  count : Nat
  deriving DecidableEq

/-- The state of a run. -/
structure SweepRun where
  timer : Nat
  clock : Instant
  store : Store
  /-- The tasks of all sweepers that were started, in order. -/
  tasks : List SweepTask
  /-- The number of the task whose token is kept. -/
  sweeper : Option Nat
  /-- The counter: the number of entries that counted sweeps have removed. -/
  removed : UInt64
  /-- The sweeps that have happened, in order. -/
  sweeps : List Sweep

namespace SweepRun

/-- A run at its beginning, with an empty store. -/
def initial (clock : Instant) : SweepRun := ⟨0, clock, .empty, [], none, 0, []⟩

/-- One sweep, when the timer shows `time` and the store's clock `reading`. -/
def sweepAt (counted : Bool) (run : SweepRun) (time : Nat) (reading : Instant) : SweepRun :=
  let (count, store) := run.store.removeExpired reading
  { run with
    store
    removed := if counted then run.removed + UInt64.ofNat count else run.removed
    sweeps := run.sweeps ++ [⟨time, reading, count⟩] }

/-- The reading of the store's clock when the timer shows `time`. -/
def readingAt (plan : SweepPlan) (run : SweepRun) (time : Nat) : Instant :=
  ⟨run.clock.nanos + plan.pace * (time - run.timer)⟩

/-- Moves the timer on to a time, and the store's clock with it. -/
def moveTo (plan : SweepPlan) (run : SweepRun) (time : Nat) : SweepRun :=
  { run with timer := time, clock := readingAt plan run time }

/-- Lets every task run until it has to wait. -/
def proceed (plan : SweepPlan) (run : SweepRun) : SweepRun :=
  { run with tasks := run.tasks.map (·.proceed plan.interval run.timer) }

/-- The tasks whose ticks are due take them, one after the other; each of them sweeps. -/
def takeTicks (plan : SweepPlan) (run : SweepRun) : SweepRun :=
  let swept := (run.tasks.filter (·.isDue run.timer)).foldl
    (fun r task => sweepAt task.counted r run.timer run.clock) run
  { swept with
    tasks := run.tasks.map fun task =>
      if task.isDue run.timer then task.takeTick plan.interval run.timer else task }

/-- The next tick that a task waits for, if it is due by a time. -/
def nextTick? (run : SweepRun) (upTo : Nat) : Option Nat :=
  ((run.tasks.filterMap (·.awaited?)).filter (· ≤ upTo)).min?

/-- Moves the timer on from tick to tick up to a time, over so many ticks at most. -/
def runTo (plan : SweepPlan) (upTo : Nat) : (ticks : Nat) → SweepRun → SweepRun
  | 0, run => run.moveTo plan upTo
  | ticks + 1, run =>
    match run.nextTick? upTo with
    | none => run.moveTo plan upTo
    | some time => runTo plan upTo ticks ((run.moveTo plan time).takeTicks plan)

/-- A number of ticks that is not exceeded in some nanoseconds: the ticks of a task are an interval
apart. -/
def enoughTicks (plan : SweepPlan) (run : SweepRun) (nanos : Nat) : Nat :=
  run.tasks.length * (nanos / plan.interval + 1)

/-- Lets the timer run; meanwhile the tasks run. -/
def sleep (plan : SweepPlan) (run : SweepRun) (nanos : Nat) : SweepRun :=
  (run.proceed plan).runTo plan (run.timer + nanos) (enoughTicks plan run nanos)

/-- Cancels the token that is kept. -/
def cancel (run : SweepRun) : SweepRun :=
  { run with tasks := run.sweeper.elim run.tasks fun i => run.tasks.modify i SweepTask.cancel }

/-- What one step does. -/
def step (plan : SweepPlan) (run : SweepRun) : SweepStep → SweepRun
  | .set key value ttl => { run with store := run.store.setWithTtl run.clock key value ttl }
  | .startWith counted =>
    { run with
      tasks := run.cancel.tasks ++ [⟨false, plan.counted && counted, .spawned⟩]
      sweeper := some run.tasks.length }
  | .stop => run.cancel
  | .drop => { run.cancel with sweeper := none }
  | .sleep nanos => run.sleep plan nanos
  | .linger nanos => { run with clock := ⟨run.clock.nanos + nanos⟩ }

/-- Whether the sweeper whose token is kept has been stopped; there may be none. -/
def stopped? (run : SweepRun) : Option Bool :=
  run.sweeper.bind fun i => run.tasks[i]?.map (·.cancelled)

end SweepRun

end CacheServer
