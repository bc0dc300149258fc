import CacheServer.Config.Environment
import CacheServer.Config.File
import CacheServer.Native.Listen

/-!
# The command

The server is started with the name of a file of settings, or without one, and then the settings
come from the environment. It ends with an error if the settings are unusable or the credentials of
the gateway cannot be loaded. If the native interface cannot be started, or both interfaces are to
listen on one port, the whole server is shut down again. Otherwise it runs until it is told to
stop.
-/

namespace CacheServer

/-- What the command finds around it. -/
structure Host where
  /-- The contents of a file, unless there is no such file. -/
  file : String → Option Bytes
  /-- The value of a variable, if it is set and is text. -/
  environment : String → Option String

namespace Host

/-- A file that is needed. -/
def named (host : Host) (name : String) : Tls.File := ⟨name, host.file name⟩

end Host

/-- How the command starts. -/
inductive Launch
  /-- It ends before any interface is up. -/
  | refused (e : Failure)
  /-- An interface has failed, and the others were stopped. -/
  | failed
  /-- It runs. -/
  | serving (config : Config)
  deriving DecidableEq

namespace Launch

/-- The settings, from a file or from the environment. -/
def settings (host : Host) (path : Option String) : Except Failure Config :=
  match path with
  | some name => Config.ofFile (host.file name)
  | none => .ok (Config.ofEnvironment host.environment)

/-- The credentials of an interface; there are none if it is not active or not encrypted. -/
def credentials (host : Host) (i : Interface) : Except Failure (Option Tls.Credentials) :=
  if i.activate && i.tls then
    (Tls.load (host.named i.certFile) (host.named i.keyFile)).map some
  else .ok none

/-- Starts the command. -/
def start (host : Host) (path : Option String) : Launch :=
  match settings host path with
  | .error e => refused e
  | .ok config =>
    match config.validate with
    | .error e => refused e
    | .ok _ =>
      match credentials host config.http with
      | .error e => refused e
      | .ok _ =>
        match credentials host config.native with
        | .error _ => failed
        | .ok _ => if config.sharesPort then failed else serving config

/-- The exit code of the command. A server that runs ends when it is told to stop. -/
def exitCode : Launch → UInt8
  | refused _ | failed => 1
  | serving _ => 0

/-- What the command reports as its error. -/
def report : Launch → String
  | refused e => "Error: " ++ e.message
  | failed => "Error: an interface failed"
  | serving _ => ""

end Launch

end CacheServer
