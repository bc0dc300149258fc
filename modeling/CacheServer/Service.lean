import CacheServer.Http.Exchange
import CacheServer.Native.Accept
import CacheServer.Native.Connection
import CacheServer.Server

/-!
# The service

The native server and the gateway at work on one cache. Each has an accept loop, which hands every
connection over to a task of its own; a connection of the gateway carries one request. What happens
to them comes from outside, one event after the other (`ServiceEvent`), and `Service.step` is what
the service does about it.

To stop an interface its token is cancelled, and the accept loop ends when it notices this. A
connection may be accepted before it does: the native server lets it go, since nothing is registered
any more, and the gateway serves it. Connections end by themselves: a native one that was cancelled
is registered until it ends, and the gateway is done when the requests it has accepted are.
-/

namespace CacheServer

/-- The two interfaces. -/
inductive Side
  | native
  | http
  deriving DecidableEq, Repr

/-- Where an accept loop stands. -/
inductive AcceptState
  /-- It accepts. `retry` is the back-off of its next pause. -/
  | accepting (retry : Backoff)
  | ended (result : Except Native.AcceptError Unit)
  /-- The length of a pause was out of range. -/
  | crashed (cause : Overflow)

namespace AcceptState

/-- The loop of an interface at its beginning, which has nothing to do if this is not active. -/
def start (active : Bool) : AcceptState :=
  if active then .accepting .acceptRetry else .ended (.ok ())

/-- Whether a loop accepts connections. -/
def isAccepting : AcceptState → Bool
  | accepting _ => true
  | ended _ | crashed _ => false

/-- Whether a loop has ended with an error. -/
def hasFailed : AcceptState → Bool
  | accepting _ | ended (.ok _) => false
  | ended (.error _) | crashed _ => true

end AcceptState

/-- What happens to the service. -/
inductive ServiceEvent
  /-- An accept of an interface comes to an outcome. `drawn` is the jitter of a pause behind it. -/
  | accept (side : Side) (outcome : Native.AcceptOutcome) (drawn : Duration)
  /-- An accept loop looks at its token. -/
  | notice (side : Side)
  /-- Bytes arrive on a native connection. -/
  | arrive (id : Nat) (limit : Native.MessageLimit) (reading : Reading) (data : Bytes)
  /-- A native connection ends. -/
  | hangUp (id : Nat)
  /-- All that a client of the gateway sends has arrived. -/
  | request (id : Nat) (now : Instant) (input : Http.Input)
  | sweep (now : Instant)
  /-- The native server is closed. -/
  | close
  /-- The native server begins to shut down. -/
  | beginShutdown
  | stopGateway

/-- The state of the service. -/
structure Service where
  server : Server
  /-- The id of the native listener, if there is one. -/
  listener : Option Nat
  native : AcceptState
  http : AcceptState
  /-- Whether the token of the gateway is cancelled. -/
  gatewayStopped : Bool
  /-- The connections that the gateway has accepted and has not served. -/
  inFlight : List Nat
  /-- The number of connections that the gateway has accepted. -/
  requests : Nat

namespace Service

/-- The active interfaces begin to accept, and nothing is stored. -/
def start (native http : Bool) : Service :=
  let registry := Native.Registry.initial
  let (listener, registry) := if native then registry.registerListener else (none, registry)
  ⟨⟨.empty, registry⟩, listener, .start native, .start http, false, [], 0⟩

/-! ## Accept loops -/

/-- The accept loop of an interface. -/
def loop (s : Service) : Side → AcceptState
  | .native => s.native
  | .http => s.http

/-- Changes the accept loop of an interface. -/
def setLoop (s : Service) (side : Side) (state : AcceptState) : Service :=
  match side with
  | .native => { s with native := state }
  | .http => { s with http := state }

/-- Whether the token of an accept loop is cancelled. -/
def isStopped (s : Service) : Side → Bool
  | .native => s.listener.any s.server.registry.closedListeners.contains
  | .http => s.gatewayStopped

/-- Whether a failed accept means no more than that the interface is being stopped. Only the native
server looks. -/
def excuses (s : Service) : Side → Bool
  | .native => s.server.registry.shuttingDown
  | .http => false

/-- Gives an accepted connection an id. The native server gives none while it shuts down. -/
def takeIn (s : Service) : Side → Option Nat × Service
  | .native =>
    let (id, server) := s.server.register
    (id, { s with server })
  | .http =>
    (some s.requests,
      { s with inFlight := s.requests :: s.inFlight, requests := s.requests + 1 })

/-- What an accept loop does with an outcome; nothing if it has ended or only ends. -/
def accept (s : Service) (side : Side) (outcome : Native.AcceptOutcome) (drawn : Duration) :
    Option Native.AcceptAction × Service :=
  match s.loop side with
  | .ended _ | .crashed _ => (none, s)
  | .accepting retry =>
    match outcome with
    | .connection =>
      let (id, s) := s.takeIn side
      (some (id.elim .letGo .handOver), s.setLoop side (.accepting retry.reset))
    | .failed e =>
      if s.excuses side then (none, s.setLoop side (.ended (.ok ())))
      else
        match e.retry retry drawn with
        | .goOn => (some (.skip e), s)
        | .pause length retry => (some (.pause e length), s.setLoop side (.accepting retry))
        | .giveUp => (some (.giveUp e), s.setLoop side (.ended (.error e)))
        | .overflow cause => (none, s.setLoop side (.crashed cause))

/-- Ends an accept loop that is to stop. -/
def notice (s : Service) (side : Side) : Service :=
  match s.loop side with
  | .accepting _ => if s.isStopped side then s.setLoop side (.ended (.ok ())) else s
  | .ended _ | .crashed _ => s

/-! ## Connections -/

/-- Takes over a server. -/
def withServer (s : Service) (server : Server) : Service := { s with server }

/-- The replies to bytes that arrive on a native connection, and whether the server has shut the
stream down, which ends the connection. -/
def arrive (s : Service) (id : Nat) (limit : Native.MessageLimit) (reading : Reading)
    (data : Bytes) : (List Bytes × Bool) × Service :=
  if s.server.registry.held.contains id then
    let served := Native.serve limit (fun _ => reading) none ⟨[data], .hang⟩ s.server.cache
    let server := s.server.withCache served.cache
    ((served.replies, served.shutDown),
      s.withServer (if served.shutDown then server.drop id else server))
  else (([], false), s)

/-- What is sent to a client of the gateway, unless it has been served already. -/
def request (s : Service) (id : Nat) (now : Instant) (input : Http.Input) :
    Option Http.Sent × Service :=
  if s.inFlight.contains id then
    let (cache, sent) := Http.serve s.server.cache now false input
    (some sent,
      { s with server := s.server.withCache cache, inFlight := s.inFlight.filter (· != id) })
  else (none, s)

/-! ## Events -/

/-- What an event does, with what is sent to clients meanwhile. -/
def step (s : Service) : ServiceEvent → Bytes × Service
  | .accept side outcome drawn => ([], (s.accept side outcome drawn).2)
  | .notice side => ([], s.notice side)
  | .arrive id limit reading data =>
    let ((replies, _), s) := s.arrive id limit reading data
    (replies.flatten, s)
  | .hangUp id => ([], s.withServer (s.server.drop id))
  | .request id now input =>
    let (sent, s) := s.request id now input
    ((sent.bind (·.reply)).getD [], s)
  | .sweep now => ([], s.withServer (s.server.sweep now))
  | .close => ([], s.withServer s.server.close)
  | .beginShutdown => ([], s.withServer s.server.beginShutdown)
  | .stopGateway => ([], { s with gatewayStopped := true })

/-- The service after events. -/
def after (s : Service) (events : List ServiceEvent) : Service :=
  events.foldl (fun s event => (s.step event).2) s

/-- What is sent to clients during events. -/
def sent (s : Service) : List ServiceEvent → Bytes
  | [] => []
  | event :: rest => (s.step event).1 ++ (s.step event).2.sent rest

/-- Whether an interface has failed. -/
def hasFailed (s : Service) : Bool := s.native.hasFailed || s.http.hasFailed

end Service

end CacheServer
