import CacheServer.Metrics.Basic

/-!
# The registry of the native server

Every connection is registered before it is served, and its registration is given up when it ends,
whatever the cause. The registry also knows the listeners. Each connection and each listener has a
token that can be cancelled, which ends it.

`close` ends everything at once; `beginShutdown` closes the listeners and leaves the connections
to end by themselves. After either nothing more is registered. Both are made of the steps that the
server takes one lock at a time: `announceShutdown`, `drainListeners`, `drainConnections`.

A connection is known by its id, the next value of a counter of 64 bits. The counter wraps around,
so ids are handed out in order, and again only after all the others; a connection that is entered
under an id takes the place of an earlier one with this id. The ids of listeners only tell their
tokens apart.
-/

namespace CacheServer.Native

/-- The state that connections, listeners and the server share. -/
structure Registry where
  shuttingDown : Bool
  /-- The registered connections. -/
  connections : List Nat
  /-- The id of the next connection. -/
  nextConnection : UInt64
  /-- The registrations that were handed out and are not given up, by the ids of their
  connections. -/
  held : List Nat
  /-- The connections whose token was cancelled. -/
  cancelled : List Nat
  /-- The registered listeners. -/
  listeners : List Nat
  nextListener : Nat
  /-- The listeners whose token was cancelled. -/
  closedListeners : List Nat
  metrics : Metrics

namespace Registry

/-- The registry of a new server. -/
def initial : Registry := ⟨false, [], 0, [], [], [], 0, [], .initial⟩

/-! ## Single steps -/

/-- From here on nothing is registered. -/
def announceShutdown (r : Registry) : Registry := { r with shuttingDown := true }

/-- Takes out all listeners and cancels them. -/
def drainListeners (r : Registry) : Registry :=
  { r with listeners := [], closedListeners := r.listeners ++ r.closedListeners }

/-- Takes out all connections and cancels them. -/
def drainConnections (r : Registry) : Registry :=
  { r with connections := [], cancelled := r.connections ++ r.cancelled }

/-- The id under which the next connection is entered. -/
def nextId (r : Registry) : Nat := r.nextConnection.toNat

/-- Enters a connection under the next id, hands out its registration and counts it. -/
def insert (r : Registry) : Registry :=
  { r with
    connections := r.nextId :: r.connections.filter (· != r.nextId)
    held := r.nextId :: r.held
    nextConnection := r.nextConnection + 1
    metrics := r.metrics.openConnection }

/-- Enters a listener under the next id. -/
def insertListener (r : Registry) : Registry :=
  { r with
    listeners := r.nextListener :: r.listeners
    nextListener := r.nextListener + 1 }

/-- Gives up the registration of a connection. -/
def remove (r : Registry) (id : Nat) : Registry :=
  { r with
    connections := r.connections.filter (· != id)
    held := r.held.erase id
    metrics := r.metrics.closeConnection }

/-! ## Calls -/

/-- Registers a connection, unless the server is shutting down. -/
def register (r : Registry) : Option Nat × Registry :=
  if r.shuttingDown then (none, r) else (some r.nextId, r.insert)

/-- Registers a listener, unless the server is shutting down. -/
def registerListener (r : Registry) : Option Nat × Registry :=
  if r.shuttingDown then (none, r) else (some r.nextListener, r.insertListener)

/-- Ends a connection: its registration is given up, if it is still held. -/
def drop (r : Registry) (id : Nat) : Bool × Registry :=
  if r.held.contains id then (true, r.remove id) else (false, r)

/-- Whether the token of a connection is cancelled, as long as the registration is held. -/
def isCancelled? (r : Registry) (id : Nat) : Option Bool :=
  if r.held.contains id then some (r.cancelled.contains id) else none

/-- Ends the listeners and all connections. -/
def close (r : Registry) : Registry := r.announceShutdown.drainListeners.drainConnections

/-- Ends the listeners. -/
def beginShutdown (r : Registry) : Registry := r.announceShutdown.drainListeners

/-- The number of registered connections. -/
def connectionCount (r : Registry) : Nat := r.connections.length

end Registry

end CacheServer.Native
