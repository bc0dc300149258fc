import CacheServer.Native.Command
import CacheServer.Native.Registry

/-!
# The server

What a running server keeps: the store, and the registry with the counters. Commands work on the
store and the counters together, as a cache.
-/

namespace CacheServer

/-- The state of a server. -/
structure Server where
  store : Store
  registry : Native.Registry

namespace Server

/-- A new server with nothing stored. -/
def initial : Server := ⟨.empty, .initial⟩

/-- The store and the counters. -/
def cache (s : Server) : Cache := ⟨s.store, s.registry.metrics⟩

/-- Takes over a store and counters. -/
def withCache (s : Server) (c : Cache) : Server :=
  ⟨c.store, { s.registry with metrics := c.metrics }⟩

/-- Registers a connection, unless the server is shutting down. -/
def register (s : Server) : Option Nat × Server :=
  let (id, registry) := s.registry.register
  (id, { s with registry })

/-- Ends a connection. -/
def drop (s : Server) (id : Nat) : Server := { s with registry := (s.registry.drop id).2 }

/-- Ends the listeners and all connections. -/
def close (s : Server) : Server := { s with registry := s.registry.close }

/-- Ends the listeners. -/
def beginShutdown (s : Server) : Server := { s with registry := s.registry.beginShutdown }

/-- Sweeps the store, and counts what is removed. -/
def sweep (s : Server) (now : Instant) : Server :=
  let (count, store) := s.store.removeExpired now
  ⟨store, { s.registry with metrics := s.registry.metrics.countExpired count }⟩

end Server

end CacheServer
