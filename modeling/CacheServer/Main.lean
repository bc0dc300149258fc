import CacheServer.Launch
import CacheServer.Native.Shutdown
import CacheServer.Service
import CacheServer.Store.Sweeper
import Std.Async
import Std.Sync

/-!
# The program

The command as a program: it reads its settings, listens on the interfaces that are active, and
serves until it is told to stop or one of them ends. Everything it decides is decided by the
library: what to do about an accept (`Service.accept`), about bytes from a client (`Service.arrive`,
`Service.request`), about open connections (`Native.Registry.poll`) and when to sweep (`Ticker`).
What is here reads files, variables and the clock, waits, and moves bytes between sockets and the
library. Encrypted interfaces are not served by this program.
-/

namespace CacheServer.Program

open Std.Async

/-! ## What the program finds around it -/

/-- The contents of a file, if it can be read. -/
def readFile? (name : String) : IO (Option Bytes) :=
  try
    return some (← IO.FS.readBinFile name).data.toList
  catch _ => return none

/-- The variables that settings come from. -/
def variableNames : List String :=
  ["RCS_VERBOSITY", "RCS_NATIVE_PORT", "RCS_NATIVE_ACTIVATE", "RCS_HTTP_PORT", "RCS_HTTP_ACTIVATE",
    "RCS_SWEEP_INTERVAL_MS"]

/-- The names of the files that settings mention. -/
def credentialNames (settings : Except Failure Config) : List String :=
  match settings with
  | .ok c => [c.native.certFile, c.native.keyFile, c.http.certFile, c.http.keyFile]
  | .error _ => []

/-- Reads what the command needs: the file of settings, the variables, and the files that the
settings mention. -/
def readHost (path : Option String) : IO Host := do
  let values ← variableNames.filterMapM fun name => do
    return (← IO.getEnv name).map fun value => (name, value)
  let settingsFile ← path.toList.mapM fun name => do return (name, ← readFile? name)
  let first : Host := ⟨fun name => (settingsFile.lookup name).join, fun name => values.lookup name⟩
  let names := credentialNames (Launch.settings first path)
  let files ← names.mapM fun name => do return (name, ← readFile? name)
  return ⟨fun name => ((settingsFile ++ files).lookup name).join,
    fun name => values.lookup name⟩

/-- The reading of the clock. -/
def now : IO Instant := return ⟨← IO.monoNanosNow⟩

/-- A jitter for a pause. -/
def draw (b : Backoff) : IO Duration := do
  let n ← IO.rand 0 b.base.tenth.nanos
  return (Duration.ofNanos? n).getD .zero

/-- The reading for a command that arrived at an instant and is executed now. -/
def readingSince (arrived : Instant) : IO Reading := do
  let begun ← now
  return ⟨begun, (begun.nanos - arrived.nanos).toFloat / nanosPerSecond.toFloat⟩

/-- Waits for some nanoseconds, or until a stop is asked for; says whether the time is over. -/
def pause (nanos : Nat) (stop : Std.CancellationToken) : Async Bool := do
  let timer ← Selector.sleep (.ofNat (nanos / 1000000 + 1))
  Selectable.one #[
    .case timer fun _ => return true,
    .case stop.selector fun _ => return false]

/-! ## The state -/

/-- The state that all tasks share. -/
abbrev Shared := Std.Mutex Service

/-- Changes the state, given the instant at which this is asked for. -/
def updateSince {α : Type} (shared : Shared) (arrived : Instant)
    (f : Reading → Service → α × Service) : IO α :=
  shared.atomically do
    let (result, service) := f (← readingSince arrived) (← get)
    set service
    return result

/-- Changes the state. -/
def update {α : Type} (shared : Shared) (f : Instant → Service → α × Service) : IO α := do
  updateSince shared (← now) fun reading => f reading.now

/-- Lets events happen. -/
def happen (shared : Shared) (events : List ServiceEvent) : IO Unit :=
  update shared fun _ service => ((), service.after events)

/-- Looks at the state. -/
def observe {α : Type} (shared : Shared) (f : Service → α) : IO α :=
  update shared fun _ service => (f service, service)

/-! ## Connections -/

/-- What comes next from a client. -/
inductive Received
  | bytes (bs : Bytes)
  /-- The client has finished. -/
  | finished
  /-- A stop was asked for. -/
  | stopped

/-- Waits for what comes next from a client. -/
def receive (client : TCP.Socket.Client) (size : Nat) (stop : Std.CancellationToken) :
    Async Received :=
  Selectable.one #[
    .case (client.recvSelector (UInt64.ofNat size)) fun received =>
      return match received with
        | some bytes => .bytes bytes.data.toList
        | none => .finished,
    .case stop.selector fun _ => return .stopped]

/-- Serves messages of the native protocol until the connection ends. -/
partial def serveMessages (shared : Shared) (limit : Native.MessageLimit)
    (stop : Std.CancellationToken) (id : Nat) (client : TCP.Socket.Client) : Async Unit := do
  match ← receive client limit.size stop with
  | .finished | .stopped => return
  | .bytes message =>
    let (replies, shutDown) ← updateSince shared (← now) fun reading service =>
      service.arrive id limit reading message
    client.send replies.flatten.toByteArray
    if shutDown then client.shutdown else serveMessages shared limit stop id client

/-- Serves a registered connection, and gives its registration up. -/
def serveNative (shared : Shared) (limit : Native.MessageLimit) (stop : Std.CancellationToken)
    (id : Nat) (client : TCP.Socket.Client) : Async Unit := do
  try
    serveMessages shared limit stop id client
  catch _ => pure ()
  happen shared [.hangUp id]

/-- Reads until a request is complete, the stream ends, or a stop is asked for. -/
partial def gather (client : TCP.Socket.Client) (stop : Std.CancellationToken) (before : Bytes) :
    Async Http.Input := do
  match Http.readRequest ⟨before, .hang⟩ with
  | .error .timedOut =>
    match ← receive client 65536 stop with
    | .finished => return ⟨before, .eof⟩
    | .stopped => return ⟨before, .hang⟩
    | .bytes more => gather client stop (before ++ more)
  | _ => return ⟨before, .hang⟩

/-- Serves one request over HTTP, for which there are five seconds. -/
def serveHttp (shared : Shared) (id : Nat) (client : TCP.Socket.Client) : Async Unit := do
  let overdue ← Std.CancellationToken.new
  background do
    sleep (.ofNat 5000)
    overdue.cancel
  let input ← try gather client overdue [] catch _ => pure ⟨[], .reset⟩
  let sent ← update shared fun time service => service.request id time input
  try
    if let some reply := sent.bind (·.reply) then
      client.send reply.toByteArray
      client.shutdown
  catch _ => return

/-! ## Listeners -/

/-- The error number that the system gave for an error. -/
def errno? : IO.Error → Option Int
  | .otherError code _ | .resourceBusy code _ | .resourceVanished code _
  | .unsupportedOperation code _ | .hardwareFault code _ | .unsatisfiedConstraints code _
  | .illegalOperation code _ | .protocolError code _ | .timeExpired code _
  | .alreadyExists _ code _ | .interrupted _ code _ | .noFileOrDirectory _ code _
  | .invalidArgument _ code _ | .permissionDenied _ code _ | .resourceExhausted _ code _
  | .inappropriateType _ code _ | .noSuchThing _ code _ => some code.toNat
  | .unexpectedEof | .userError _ => none

/-- The failed accept that an error stands for. -/
def acceptError (e : IO.Error) : Native.AcceptError :=
  ((errno? e).map Native.AcceptError.ofErrno).getD (.ofKind .other)

/-- A jitter for the next pause of an accept loop. -/
def drawFor (shared : Shared) (side : Side) : IO Duration := do
  match ← observe shared (·.loop side) with
  | .accepting retry => draw retry
  | .ended _ | .crashed _ => return .zero

/-- Runs the accept loop of an interface; each connection is served in a task of its own. -/
partial def acceptAll (shared : Shared) (side : Side) (listener : TCP.Socket.Server)
    (stop : Std.CancellationToken) (serve : Nat → TCP.Socket.Client → Async Unit) : Async Unit := do
  let next : Except IO.Error (Option TCP.Socket.Client) ←
    try
      let accepted ← Selectable.one #[
        .case listener.acceptSelector fun client => return some client,
        .case stop.selector fun _ => return none]
      pure (.ok accepted)
    catch e => pure (.error e)
  match next with
  | .ok none => happen shared [.notice side]
  | .ok (some client) =>
    if let some (.handOver id) ←
        update shared fun _ service => service.accept side .connection .zero then
      background (serve id client)
    acceptAll shared side listener stop serve
  | .error e =>
    let drawn ← drawFor shared side
    match ← update shared fun _ service => service.accept side (.failed (acceptError e)) drawn with
    | some (.pause _ length) =>
      if ← pause length.nanos stop then acceptAll shared side listener stop serve
      else happen shared [.notice side]
    | some (.skip _) => acceptAll shared side listener stop serve
    | _ => return

/-- Listens at the address of an interface. -/
def listenAt (i : Interface) : IO TCP.Socket.Server := do
  let .ok address := Native.Address.parse i.listenAddress
    | throw (IO.userError IoError.invalidSocketAddress.message)
  let some host := Std.Net.IPv4Addr.ofString address.host
    | throw (IO.userError IoError.invalidSocketAddress.message)
  let listener ← TCP.Socket.Server.mk
  listener.bind (.v4 ⟨host, address.port⟩)
  listener.listen 128
  return listener

/-! ## The whole -/

/-- Sweeps the store at every tick until a stop is asked for. -/
partial def sweepAll (shared : Shared) (interval : Nat) (stop : Std.CancellationToken)
    (ticker : Ticker) : Async Unit := do
  if ← pause (ticker.next - (← now).nanos) stop then
    let taken ← now
    update shared fun time service => ((), (service.step (.sweep time)).2)
    sweepAll shared interval stop (ticker.tick interval taken.nanos)

/-- Waits for the native connections to end, or for the deadline; says whether they have ended. -/
partial def drain (shared : Shared) (deadline : Std.CancellationToken) (backoff : Backoff) :
    Async Bool := do
  let drawn ← draw backoff
  match ← observe shared (·.server.registry.poll backoff drawn) with
  | .drained => return true
  | .overflow _ => return false
  | .waits _ length backoff =>
    if ← pause length.nanos deadline then drain shared deadline backoff else return false

/-- Waits until the gateway has served what it has accepted. -/
partial def awaitRequests (shared : Shared) : Async Unit := do
  unless ← observe shared (·.inFlight.isEmpty) do
    sleep (.ofNat 5)
    awaitRequests shared

/-- Waits for the signal to stop, or for an interface to end. -/
def awaitEnd (interfaceEnded : Std.CancellationToken) : Async Unit := do
  let interrupt ← Signal.Waiter.mk .sigint false
  let terminate ← Signal.Waiter.mk .sigterm false
  Selectable.one #[
    .case interrupt.selector fun _ => return,
    .case terminate.selector fun _ => return,
    .case interfaceEnded.selector fun _ => return]

/-- Runs the interfaces until it is told to stop or one of them ends, and says whether one has
failed. -/
def serve (config : Config) : Async Bool := do
  let shared ← Std.Mutex.new (Service.start config.native.activate config.http.activate)
  let stop ← Std.CancellationToken.new
  let ends ← Std.CancellationToken.new
  let interfaceEnded ← Std.CancellationToken.new
  let sweeping ← Std.CancellationToken.new
  if let some interval := config.sweepInterval then
    let begun := (← now).nanos
    let ticker := (Ticker.start begun).tick interval.nanos begun
    background (sweepAll shared interval.nanos sweeping ticker)
  if config.native.activate then
    let listener ← listenAt config.native
    let limit := Native.MessageLimit.ofNat config.maxMessageSize.toNat
    background do
      acceptAll shared .native listener stop (serveNative shared limit ends)
      interfaceEnded.cancel
  if config.http.activate then
    let listener ← listenAt config.http
    background do
      acceptAll shared .http listener stop (serveHttp shared)
      awaitRequests shared
      interfaceEnded.cancel
  awaitEnd interfaceEnded
  happen shared [.stopGateway, .beginShutdown]
  stop.cancel
  let deadline ← Std.CancellationToken.new
  background do
    sleep (.ofNat 5000)
    deadline.cancel
  unless ← drain shared deadline .shutdownPoll do
    happen shared [.close]
    ends.cancel
  sweeping.cancel
  awaitRequests shared
  observe shared (·.hasFailed)

/-- Whether settings ask for an encrypted interface. -/
def wantsEncryption (c : Config) : Bool :=
  (c.native.activate && c.native.tls) || (c.http.activate && c.http.tls)

/-- Reports how the command has ended. -/
def finish (launched : Launch) : IO UInt32 := do
  if launched.report ≠ "" then IO.eprintln launched.report
  return launched.exitCode.toUInt32

/-- The command with its arguments. -/
def run (args : List String) : IO UInt32 := do
  let path := args.head?
  let launched := Launch.start (← readHost path) path
  match launched with
  | .serving config =>
    if wantsEncryption config then finish .failed
    else
      try
        finish (if ← (serve config).block then .failed else launched)
      catch _ => finish .failed
  | _ => finish launched

end CacheServer.Program

/-- The command. -/
def main (args : List String) : IO UInt32 := CacheServer.Program.run args
