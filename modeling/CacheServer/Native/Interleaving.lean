import CacheServer.Native.Registry

/-!
# Concurrent calls on the registry

The registry is behind a lock, but the flag that announces a shutdown is set without it. So the
calls on a server do not take effect at once: each is a program of single actions, and the actions
of different calls interleave. This module runs them.

A state (`Schedule`) has the registry, the holder of the lock and the calls that were begun. An
event begins a call or lets one take its next action; an event that is not possible, such as
taking a lock that is held, changes nothing. So every list of events is a run.
-/

namespace CacheServer.Native

/-- The calls on a server. -/
inductive Call
  | register
  /-- The start of an accept loop. -/
  | listen
  /-- The end of a connection. -/
  | drop (id : Nat)
  | close
  | shutdown
  deriving DecidableEq, Repr

/-- The actions that calls are made of. -/
inductive Action
  | lock
  | unlock
  /-- Notes whether a shutdown has been announced. -/
  | readFlag
  /-- Enters a connection, unless the flag was read as set. -/
  | insert
  /-- Enters a listener, unless the flag was read as set. -/
  | insertListener
  | remove (id : Nat)
  | announceShutdown
  | drainListeners
  | drainConnections
  deriving DecidableEq, Repr

/-- The actions of a call, in order. -/
def Call.program : Call → List Action
  | register => [.lock, .readFlag, .insert, .unlock]
  | listen => [.lock, .readFlag, .insertListener, .unlock]
  | drop id => [.lock, .remove id, .unlock]
  | close =>
    [.announceShutdown, .lock, .drainListeners, .unlock, .lock, .drainConnections, .unlock]
  | shutdown => [.announceShutdown, .lock, .drainListeners, .unlock]

/-- A call that was begun. -/
structure Task where
  call : Call
  /-- The actions that are still to come. -/
  todo : List Action
  /-- Whether it has read the flag as set. -/
  refused : Bool
  deriving DecidableEq, Repr

/-- A call in front of its first action. -/
def Task.start (call : Call) : Task := ⟨call, call.program, false⟩

/-- The state of a run. -/
structure Schedule where
  registry : Registry
  /-- The task that holds the lock. -/
  holder : Option Nat
  /-- The calls, in the order in which they were begun. -/
  tasks : List Task

/-- What can happen next. -/
inductive Event
  | begin (call : Call)
  /-- The task with this number takes its next action. -/
  | run (task : Nat)
  deriving DecidableEq, Repr

namespace Schedule

/-- A new server with no calls on it. -/
def initial : Schedule := ⟨.initial, none, []⟩

/-- Whether a call can be begun: a connection ends only while a registration with its id is held
that is not being given up. -/
def admits (s : Schedule) : Call → Bool
  | .drop id => (s.tasks.countP fun t => t.todo.contains (.remove id)) < s.registry.held.count id
  | _ => true

/-- What an action does to the registry, for a task that has or has not read the flag as set. -/
def effect (refused : Bool) (r : Registry) : Action → Registry
  | .lock | .unlock | .readFlag => r
  | .insert => if refused then r else r.insert
  | .insertListener => if refused then r else r.insertListener
  | .remove id => r.remove id
  | .announceShutdown => r.announceShutdown
  | .drainListeners => r.drainListeners
  | .drainConnections => r.drainConnections

/-- The holder of the lock after an action of task `i`, or nothing if the action must wait. -/
def holderAfter? (holder : Option Nat) (i : Nat) : Action → Option (Option Nat)
  | .lock => if holder.isNone then some (some i) else none
  | .unlock => some none
  | _ => some holder

/-- Lets the task with number `i` take its next action. -/
def advance (s : Schedule) (i : Nat) : Schedule :=
  match s.tasks[i]? with
  | some ⟨call, action :: todo, refused⟩ =>
    match holderAfter? s.holder i action with
    | none => s
    | some holder =>
      let saw := if action = .readFlag then s.registry.shuttingDown else refused
      ⟨effect refused s.registry action, holder, s.tasks.set i ⟨call, todo, saw⟩⟩
  | _ => s

/-- What one event does. -/
def step (s : Schedule) : Event → Schedule
  | .begin call => if s.admits call then { s with tasks := s.tasks ++ [.start call] } else s
  | .run i => s.advance i

/-- A run from the initial state. -/
def after (events : List Event) : Schedule := events.foldl step initial

end Schedule

end CacheServer.Native
