import CacheServer.Error
import CacheServer.Time

/-!
# Settings

The settings of a server with their defaults, and what makes settings unusable: no interface at
all, messages of no size, or encryption without the name of a certificate or of a key.
-/

namespace CacheServer

/-- How much the server tells about its work. -/
inductive Verbosity
  | prod
  | dev
  | none
  deriving DecidableEq, Repr

namespace Verbosity

/-- The name of a verbosity in settings. -/
def name : Verbosity → String
  | prod => "prod"
  | dev => "dev"
  | none => "none"

/-- The verbosity with a name. -/
def ofName? (name : String) : Option Verbosity :=
  [prod, dev, none].find? (·.name == name)

/-- The level of the messages that are shown. -/
def filter : Verbosity → String
  | prod => "info"
  | dev => "debug"
  | none => "off"

end Verbosity

/-- The settings of an interface. -/
structure Interface where
  activate : Bool
  port : UInt16
  /-- Whether only this host can connect. -/
  onLocalhost : Bool
  tls : Bool
  certFile : String
  keyFile : String
  deriving DecidableEq

namespace Interface

/-- The settings of an interface of which nothing is set but whether it is active and its port. -/
def standard (activate : Bool) (port : UInt16) : Interface :=
  ⟨activate, port, true, false, "cert.pem", "key.pem"⟩

/-- The address that an interface listens on. -/
def listenAddress (i : Interface) : String :=
  (if i.onLocalhost then "127.0.0.1" else "0.0.0.0") ++ ":" ++ Nat.repr i.port.toNat

/-- Whether an interface is to be encrypted and lacks the name of a file for it. -/
def lacksFiles (i : Interface) : Bool :=
  i.activate && i.tls && (i.certFile == "" || i.keyFile == "")

end Interface

/-- The settings of a server. -/
structure Config where
  verbosity : Verbosity
  /-- The number of threads; zero leaves it to the system. -/
  workerThreads : UInt64
  native : Interface
  /-- The largest message of the native protocol, in bytes. -/
  maxMessageSize : UInt64
  http : Interface
  /-- The time between sweeps in milliseconds; zero stands for no sweeps. -/
  sweepIntervalMs : UInt64
  deriving DecidableEq

namespace Config

/-- The settings when nothing is set. -/
def standard : Config :=
  ⟨.prod, 0, .standard true 6121, 1048576, .standard false 6120, 0⟩

/-- The time between sweeps, if there are any. -/
def sweepInterval (c : Config) : Option Duration :=
  if c.sweepIntervalMs = 0 then none else some (.ofMillis c.sweepIntervalMs)

/-- Whether both interfaces are to listen on one port, which only one of them can do, wherever
connections may come from. Port zero stands for any free port. -/
def sharesPort (c : Config) : Bool :=
  c.native.activate && c.http.activate && c.native.port == c.http.port && c.native.port != 0

/-- Refuses settings with which no server can be run. -/
def validate (c : Config) : Except Failure Unit :=
  if !c.native.activate && !c.http.activate then
    .error (.config "All interfaces are deactivated")
  else if c.maxMessageSize = 0 then
    .error (.config "native.max_message_size must be greater than 0")
  else if c.native.lacksFiles then
    .error (.config "native.tls requires both cert_file and key_file")
  else if c.http.lacksFiles then
    .error (.config "http.tls requires both cert_file and key_file")
  else .ok ()

end Config

end CacheServer
