import CacheServer.Config.Basic
import CacheServer.Text.Case
import CacheServer.Text.Numeral

/-!
# Settings from the environment

Without a file the settings come from variables. A variable that is not set, or holds something
that cannot be read as its setting, leaves the default; only the flags are never unreadable, since
whatever is not on is off.
-/

namespace CacheServer.Config

/-- The meaning of a flag. -/
def readFlag (value : String) : Bool :=
  Text.equalFold value.toList "true".toList || value == "1"

/-- The verbosity that a variable names, in letters of either case. -/
def readVerbosity? (value : String) : Option Verbosity :=
  Verbosity.ofName? (String.ofList (Text.lower value.toList))

/-- Reads a port. -/
def readPort? (value : String) : Option UInt16 :=
  (Text.readUnsigned? (Nat.pow 2 16) value.toList).map UInt16.ofNat

/-- Reads a number of milliseconds. -/
def readMillis? (value : String) : Option UInt64 :=
  (Text.readUnsigned? (Nat.pow 2 64) value.toList).map UInt64.ofNat

/-- The settings that variables give. -/
def ofEnvironment (lookup : String → Option String) : Config :=
  let c := standard
  { c with
    verbosity := ((lookup "RCS_VERBOSITY").bind readVerbosity?).getD c.verbosity
    native :=
      { c.native with
        port := ((lookup "RCS_NATIVE_PORT").bind readPort?).getD c.native.port
        activate := ((lookup "RCS_NATIVE_ACTIVATE").map readFlag).getD c.native.activate }
    http :=
      { c.http with
        port := ((lookup "RCS_HTTP_PORT").bind readPort?).getD c.http.port
        activate := ((lookup "RCS_HTTP_ACTIVATE").map readFlag).getD c.http.activate }
    sweepIntervalMs :=
      ((lookup "RCS_SWEEP_INTERVAL_MS").bind readMillis?).getD c.sweepIntervalMs }

end CacheServer.Config
