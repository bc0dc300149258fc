import CacheServer.Backoff
import CacheServer.Native.Registry

/-!
# Accepting connections

Accepting can fail for one connection, for want of resources, or because the listening socket is
broken (`AcceptClass`). An accept loop goes on at once after the first kind, pauses after the
second, and ends with the third (`AcceptError.retry`).

`acceptLoop` runs a loop in time: each outcome comes some nanoseconds after it was waited for, and
the server may be closed or shut down at some time, which closes the loop. What the loop does is
recorded with the times (`AcceptRun`). Between two outcomes nobody else works on the registry.
-/

namespace CacheServer.Native

/-- The kinds of failure that matter to an accept loop. -/
inductive ErrorKind
  | connectionAborted
  | connectionReset
  | connectionRefused
  | interrupted
  | wouldBlock
  | timedOut
  | outOfMemory
  /-- Any other kind. -/
  | other
  deriving DecidableEq, Repr

/-- The kind of a Linux error number. -/
def ErrorKind.ofErrno (errno : Int) : ErrorKind :=
  if errno = 4 then .interrupted
  else if errno = 11 then .wouldBlock
  else if errno = 12 then .outOfMemory
  else if errno = 103 then .connectionAborted
  else if errno = 104 then .connectionReset
  else if errno = 110 then .timedOut
  else if errno = 111 then .connectionRefused
  else .other

/-- A failed accept: its kind, and the error number if the system gave one. -/
structure AcceptError where
  kind : ErrorKind
  errno : Option Int
  deriving DecidableEq, Repr

namespace AcceptError

/-- A failure that is known by its kind only. -/
def ofKind (kind : ErrorKind) : AcceptError := ⟨kind, none⟩

/-- A failure that the system reports. -/
def ofErrno (errno : Int) : AcceptError := ⟨.ofErrno errno, some errno⟩

end AcceptError

/-- What a failed accept means to the loop. -/
inductive AcceptClass
  /-- Only the connection that was waiting is affected. -/
  | connection
  /-- Descriptors, buffers or memory have run out. -/
  | exhausted
  /-- The listening socket is broken. -/
  | fatal
  deriving DecidableEq, Repr

/-- The error numbers for lack of memory, of files in the system or in the process, and of
buffers. -/
def exhaustionErrnos : List Int := [12, 23, 24, 105]

/-- Classifies a failed accept. -/
def AcceptError.classify (e : AcceptError) : AcceptClass :=
  match e.kind with
  | .connectionAborted | .connectionReset | .connectionRefused | .interrupted | .wouldBlock
  | .timedOut => .connection
  | .outOfMemory => .exhausted
  | .other => if e.errno.any exhaustionErrnos.contains then .exhausted else .fatal

/-- What an accept loop does about a failure. -/
inductive AcceptRetry
  | goOn
  /-- Pauses before it accepts again; `retry` is the back-off behind this pause. -/
  | pause (length : Duration) (retry : Backoff)
  | giveUp
  /-- The pause is out of range. -/
  | overflow (cause : Overflow)

/-- What is done about a failure, by its class. `retry` is the back-off so far, and `drawn` is the
jitter of a pause. -/
def AcceptError.retry (e : AcceptError) (retry : Backoff) (drawn : Duration) : AcceptRetry :=
  match e.classify with
  | .connection => .goOn
  | .exhausted =>
    match retry.next drawn with
    | .error cause => .overflow cause
    | .ok (length, retry) => .pause length retry
  | .fatal => .giveUp

/-! ## The loop -/

/-- What one accept comes to. -/
inductive AcceptOutcome
  | connection
  | failed (error : AcceptError)
  deriving DecidableEq, Repr

/-- What the loop does with an outcome. -/
inductive AcceptAction
  /-- Hands the connection to a task of its own, registered under an id. -/
  | handOver (id : Nat)
  /-- Lets the connection go, since nothing is registered any more. -/
  | letGo
  | skip (error : AcceptError)
  /-- Begins a pause before it accepts again. -/
  | pause (error : AcceptError) (length : Duration)
  | giveUp (error : AcceptError)
  deriving DecidableEq

/-- The course of an accept loop. -/
structure AcceptRun where
  /-- What was done, with the times, in order. -/
  trace : List (Nat × AcceptAction)
  /-- When and how the loop ended; nothing if it is still waiting. -/
  ended : Option (Nat × Except AcceptError Unit)

/-- Whether a loop that is to be closed at a certain time is closed by `time`. -/
def closedBy (closing : Option Nat) (time : Nat) : Bool := closing.any (· ≤ time)

namespace AcceptRun

/-- Does nothing until the loop is closed. -/
def waiting (closing : Option Nat) : AcceptRun := ⟨[], closing.map fun time => (time, .ok ())⟩

/-- An action in front of the others. -/
def cons (time : Nat) (action : AcceptAction) (run : AcceptRun) : AcceptRun :=
  { run with trace := (time, action) :: run.trace }

end AcceptRun

/-- Runs the loop from the time `now`. The outcomes that are to come have the time they take in
front of them. `drawn` gives the jitter of each pause, and `paused` is the number of pauses so
far. -/
def acceptFrom (closing : Option Nat) (drawn : Nat → Duration) (registry : Registry)
    (retry : Backoff) (now paused : Nat) : List (Nat × AcceptOutcome) → AcceptRun
  | [] => .waiting closing
  | (wait, outcome) :: rest =>
    let now := now + wait
    if closedBy closing now then .waiting closing
    else
      match outcome with
      | .connection =>
        let (id, registry) := registry.register
        (acceptFrom closing drawn registry retry.reset now paused rest).cons now
          (id.elim .letGo .handOver)
      | .failed e =>
        if registry.shuttingDown then ⟨[], some (now, .ok ())⟩
        else
          match e.retry retry (drawn paused) with
          | .goOn => (acceptFrom closing drawn registry retry now paused rest).cons now (.skip e)
          | .giveUp => ⟨[(now, .giveUp e)], some (now, .error e)⟩
          | .overflow _ => ⟨[], none⟩
          | .pause length retry =>
            let resumed := now + length.nanos
            let run :=
              if closedBy closing resumed then .waiting closing
              else acceptFrom closing drawn registry retry resumed (paused + 1) rest
            run.cons now (.pause e length)

/-- Runs an accept loop from time zero. A server that is shutting down accepts nothing. -/
def acceptLoop (registry : Registry) (closing : Option Nat) (drawn : Nat → Duration)
    (outcomes : List (Nat × AcceptOutcome)) : AcceptRun :=
  match registry.registerListener with
  | (none, _) => ⟨[], some (0, .ok ())⟩
  | (some _, registry) => acceptFrom closing drawn registry .acceptRetry 0 0 outcomes

end CacheServer.Native
