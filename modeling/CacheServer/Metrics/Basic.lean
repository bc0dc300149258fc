import CacheServer.Metrics.Latency
import CacheServer.Verb

/-!
# Metrics

What the server counts about itself. Counters are 64-bit words and wrap around; the number of open
connections is a gauge that goes up and down.
-/

namespace CacheServer

/-- The counters of a server, shared by its interfaces. -/
structure Metrics where
  /-- How often each verb was commanded, in catalogue order. -/
  commands : Vector UInt64 8
  getHits : UInt64
  getMisses : UInt64
  activeConnections : Int64
  totalConnections : UInt64
  bytesRead : UInt64
  bytesWritten : UInt64
  protocolErrors : UInt64
  invalidCommands : UInt64
  expiredRemoved : UInt64
  latency : Latency

namespace Metrics

/-- All counters at zero. -/
def initial : Metrics :=
  ⟨Vector.replicate 8 0, 0, 0, 0, 0, 0, 0, 0, 0, 0, .empty⟩

/-- The number of commands with a verb. -/
def commandCount (m : Metrics) (v : Verb) : UInt64 := m.commands[v.index]

/-- Counts `n` more commands with a verb. -/
def addCommands (m : Metrics) (v : Verb) (n : UInt64) : Metrics :=
  { m with commands := m.commands.set v.index (m.commandCount v + n) }

/-- Counts one command. -/
def countCommand (m : Metrics) (v : Verb) : Metrics := m.addCommands v 1

/-- Counts one `GET` that reached the store, by whether it found a value. -/
def countGet (m : Metrics) (found : Bool) : Metrics :=
  if found then { m with getHits := m.getHits + 1 }
  else { m with getMisses := m.getMisses + 1 }

/-- Counts one message that could not be read. -/
def countProtocolError (m : Metrics) : Metrics :=
  { m with protocolErrors := m.protocolErrors + 1 }

/-- Counts one message with an unknown verb. -/
def countInvalidCommand (m : Metrics) : Metrics :=
  { m with invalidCommands := m.invalidCommands + 1 }

/-- Adds the time, in seconds, that a command took. -/
def observeLatency (m : Metrics) (seconds : Float) : Metrics :=
  { m with latency := m.latency.observe seconds }

/-- Counts bytes that came in. -/
def countRead (m : Metrics) (n : Nat) : Metrics :=
  { m with bytesRead := m.bytesRead + UInt64.ofNat n }

/-- Counts bytes that go out. -/
def countWritten (m : Metrics) (n : Nat) : Metrics :=
  { m with bytesWritten := m.bytesWritten + UInt64.ofNat n }

/-- Counts entries that a sweep has removed. -/
def countExpired (m : Metrics) (n : Nat) : Metrics :=
  { m with expiredRemoved := m.expiredRemoved + UInt64.ofNat n }

/-- Counts a connection that has been registered. -/
def openConnection (m : Metrics) : Metrics :=
  { m with
    totalConnections := m.totalConnections + 1
    activeConnections := m.activeConnections + 1 }

/-- Counts a registered connection that has ended. -/
def closeConnection (m : Metrics) : Metrics :=
  { m with activeConnections := m.activeConnections - 1 }

/-- Counting one verb leaves the counts of the others. -/
theorem commandCount_countCommand (m : Metrics) (v w : Verb) :
    (m.countCommand v).commandCount w =
      if w = v then m.commandCount w + 1 else m.commandCount w := by
  have same : (v.index : Nat) = w.index ↔ w = v := by cases v <;> cases w <;> decide
  simp only [commandCount, countCommand, addCommands, Fin.getElem_fin, Vector.getElem_set, same]
  split
  · next h => subst h; rfl
  · rfl

end Metrics

end CacheServer
