import CacheServer.Backoff
import CacheServer.Error
import CacheServer.Native.Registry

/-!
# Graceful shutdown

A shutdown closes the listeners and waits for the connections to end. It polls the registry, with
pauses that grow, until it finds it empty or the deadline comes. At the deadline it reports how
many connections the last poll has seen.

`ServerRun` puts a registry in time, in nanoseconds, with the connections that will end, each at its
own time. A wait moves this run on from poll to poll (`waitFrom`), and keeps how each poll has found
it (`Wait`). A timer may go off later than it was set for, so the time at which it does is a
parameter: `exactly` for exact timers, `inTicks` for timers that only know multiples of a tick.
-/

namespace CacheServer.Native

/-- An exact timer goes off when it was set for. -/
def exactly (time : Nat) : Nat := time

/-- A timer with ticks goes off at the first tick that is not too early. -/
def inTicks (tick : Nat) (time : Nat) : Nat := (time + tick - 1) / tick * tick

/-- What one poll comes to. -/
inductive Polled
  /-- No connection is left. -/
  | drained
  /-- Connections are left, and the next poll comes after a pause; `backoff` is the back-off behind
  it. -/
  | waits (remaining : Nat) (pause : Duration) (backoff : Backoff)
  /-- The pause is out of range. -/
  | overflow (cause : Overflow)

/-- Looks how many connections are left. `drawn` is the jitter of the pause before the next poll. -/
def Registry.poll (r : Registry) (backoff : Backoff) (drawn : Duration) : Polled :=
  if r.connectionCount = 0 then .drained
  else
    match backoff.next drawn with
    | .error cause => .overflow cause
    | .ok (pause, backoff) => .waits r.connectionCount pause backoff

/-- A registry in time. -/
structure ServerRun where
  registry : Registry
  now : Nat
  /-- The connections that end, with the times. -/
  endings : List (Nat × Nat)

/-- The course of a wait for connections to end. -/
structure Wait where
  /-- The run as each poll has found it, in order. -/
  polls : List ServerRun
  /-- What the wait comes to; nothing if it is not over after the last poll. -/
  result : Option (Except Failure Unit)
  /-- The run when the wait is over. -/
  ended : ServerRun

/-- A poll in front of the others. -/
def Wait.cons (found : ServerRun) (wait : Wait) : Wait := { wait with polls := found :: wait.polls }

namespace ServerRun

/-- A new server at time zero. -/
def initial : ServerRun := ⟨.initial, 0, []⟩

/-- Whether a connection has ended by a time. -/
def endedBy (run : ServerRun) (time id : Nat) : Bool :=
  run.endings.any fun (other, atTime) => other == id && atTime ≤ time

/-- Moves on to a time: the connections that end until then give up their registrations. -/
def advanceTo (run : ServerRun) (time : Nat) : ServerRun :=
  { run with
    registry :=
      (run.registry.held.filter (run.endedBy time)).foldl (fun r id => (r.drop id).2) run.registry
    now := time }

/-- Polls from now on, at most `polls` times. `timer` gives the time at which a timer goes off, and
`drawn` the jitter after each poll. At the deadline the wait is over, whatever there is to see. -/
def waitFrom (timer : Nat → Nat) (deadline : Option Nat) (drawn : Nat → Duration) :
    (polls round : Nat) → ServerRun → Backoff → Wait
  | 0, _, run, _ => ⟨[], none, run⟩
  | polls + 1, round, run, backoff =>
    match run.registry.poll backoff (drawn round) with
    | .drained => ⟨[run], some (.ok ()), run⟩
    | .overflow _ => ⟨[run], none, run⟩
    | .waits remaining pause backoff =>
      let next := timer (run.now + pause.nanos)
      match deadline.filter (· ≤ next) with
      | some d =>
        ⟨[run], some (.error (.shutdownInterrupted remaining)), run.advanceTo (max d run.now)⟩
      | none =>
        (waitFrom timer deadline drawn polls (round + 1) (run.advanceTo next) backoff).cons run

/-- The number of polls after which a wait is over, if it ends at all: no two polls are closer than
the first pause. -/
def enoughPolls (run : ServerRun) (deadline : Option Nat) : Nat :=
  let horizon := (run.endings.map (·.2)).foldl max (deadline.getD run.now)
  (horizon - run.now) / Backoff.shutdownPoll.initial.nanos + 2

/-- The run when a shutdown has begun. -/
def beginShutdown (run : ServerRun) : ServerRun :=
  { run with registry := run.registry.beginShutdown }

/-- Shuts the server down, up to a deadline: a wait behind the beginning of the shutdown. -/
def shutdownWait (run : ServerRun) (timer : Nat → Nat) (deadline : Option Nat)
    (drawn : Nat → Duration) : Wait :=
  waitFrom timer deadline drawn (run.enoughPolls deadline) 0 (run.beginShutdown.advanceTo run.now)
    .shutdownPoll

/-- What a shutdown comes to, and the run when it is over. -/
def shutdown (run : ServerRun) (timer : Nat → Nat) (deadline : Option Nat)
    (drawn : Nat → Duration) : Option (Except Failure Unit) × ServerRun :=
  let wait := run.shutdownWait timer deadline drawn
  (wait.result, wait.ended)

end ServerRun

end CacheServer.Native
