import CacheServer.Native.Shutdown
import CacheServer.Service

/-!
# Scenarios with clients

Clients of both interfaces, one step after the other. Native clients stay connected from step to
step; a client of the gateway sends one request and reads the answer. Every step is translated into
events of the service (`Loopback.events`), and comes to what is sent during these. Encryption makes
no difference to what is exchanged, so it does not appear.

All clients reach the service over the network of the host. If there is none, or the interface no
longer accepts, a scenario ends at the first step with a client (`Refusal`).
-/

namespace CacheServer

/-- One step of a scenario. -/
inductive LoopbackStep
  | connect
  | send (client : Nat) (message : Bytes)
  /-- The client finishes and reads to the end. -/
  | finish (client : Nat)
  /-- The client leaves. -/
  | leave (client : Nat)
  /-- One request over HTTP; the client finishes behind it or waits. -/
  | request (data : Bytes) (finished : Bool)
  /-- A client without encryption at an encrypted interface. -/
  | intrude (side : Side)
  | close
  /-- A graceful end, with a deadline that is over or with none. -/
  | shutdown (expired : Bool)
  /-- The gateway stops while a request is still on its way. -/
  | stopGateway (first rest : Bytes)
  /-- A client comes while the process has no descriptors left, and is served when it has. -/
  | starve (side : Side) (data : Bytes)
  /-- A client comes while the process has no descriptors left, and the interface stops. -/
  | starveAndStop (side : Side)
  | breakSocket (side : Side)
  deriving DecidableEq, Repr

/-- What a step comes to. -/
inductive LoopbackAnswer
  | nothing
  | done
  | replies (bytes : Bytes)
  | result (r : Except Failure Unit)
  /-- A stopped gateway waits for the request, refuses others, and answers it. -/
  | drained (reply : Bytes)
  /-- Nothing is accepted while there are no descriptors; then the replies come. -/
  | starved (reply : Bytes)
  /-- Nothing is accepted while there are no descriptors, and the interface ends. -/
  | starvedAndStopped

/-- Why a client cannot connect. -/
inductive Refusal
  | unreachable
  | refused
  deriving DecidableEq, Repr

/-- The interface that a step needs to accept. -/
def LoopbackStep.needs? : LoopbackStep → Option Side
  | connect => some .native
  | request .. | stopGateway .. => some .http
  | intrude side | starve side _ | starveAndStop side => some side
  | send .. | finish _ | leave _ | close | shutdown _ | breakSocket _ => none

/-- An accept that fails because the process has no descriptors left. -/
def noDescriptors : Native.AcceptError := .ofErrno 24

/-- An accept that fails because the listening socket is broken. -/
def brokenSocket : Native.AcceptError := .ofErrno 22

/-- A scenario under way. -/
structure Loopback where
  service : Service
  /-- The connections of the native clients, in the order in which they came. -/
  clients : List Nat

namespace Loopback

/-- Both interfaces accept, and nothing is stored. -/
def initial : Loopback := ⟨.start true true, []⟩

/-- The server behind the interfaces. -/
def server (s : Loopback) : Server := s.service.server

/-! ## Events -/

/-- A client comes. -/
def entering (side : Side) : ServiceEvent := .accept side .connection .zero

/-- An accept fails. -/
def failing (side : Side) (e : Native.AcceptError) : ServiceEvent := .accept side (.failed e) .zero

/-- Bytes arrive from a native client. -/
def arriving (id : Nat) (reading : Reading) (data : Bytes) : ServiceEvent :=
  .arrive id .standard reading data

/-- A client comes, sends something and finishes. -/
def visiting (s : Loopback) (reading : Reading) (data : Bytes) : Side → List ServiceEvent
  | .native =>
    let id := s.server.registry.nextId
    [entering .native, arriving id reading data, .hangUp id]
  | .http => [entering .http, .request s.service.requests reading.now ⟨data, .eof⟩]

/-- An interface stops. The connections that were cancelled end. -/
def stopping (s : Loopback) : Side → List ServiceEvent
  | .native => [.close, .notice .native] ++ s.server.registry.connections.map .hangUp
  | .http => [.stopGateway, .notice .http]

/-- The events of a step. -/
def events (s : Loopback) (reading : Reading) : LoopbackStep → List ServiceEvent
  | .connect => [entering .native]
  | .send client message => [arriving (s.clients.getD client 0) reading message]
  | .finish client | .leave client => [.hangUp (s.clients.getD client 0)]
  | .request data finished =>
    [entering .http,
      .request s.service.requests reading.now ⟨data, if finished then .eof else .hang⟩]
  | .intrude .native => [entering .native, .hangUp s.server.registry.nextId]
  | .intrude .http => [entering .http, .request s.service.requests reading.now ⟨[], .reset⟩]
  | .close => s.stopping .native
  | .shutdown _ => [.beginShutdown, .notice .native]
  | .stopGateway first rest =>
    entering .http :: s.stopping .http ++
      [.request s.service.requests reading.now ⟨first ++ rest, .hang⟩]
  | .starve side data => failing side noDescriptors :: s.visiting reading data side
  | .starveAndStop side => failing side noDescriptors :: s.stopping side
  | .breakSocket side => [failing side brokenSocket]

/-! ## Steps -/

/-- Whether a client can connect to an interface. -/
def reach (reachable : Bool) (s : Loopback) (side : Side) : Except Refusal Unit :=
  if !reachable then .error .unreachable
  else if (s.service.loop side).isAccepting then .ok ()
  else .error .refused

/-- How a graceful end goes at once; a wait that does not end has no result. -/
def shutdownResult (s : Loopback) (expired : Bool) : Option (Except Failure Unit) :=
  let run : Native.ServerRun := ⟨s.server.registry, 0, []⟩
  (run.shutdown Native.exactly (if expired then some 0 else none) fun _ => .zero).1

/-- What a step comes to, given what is sent during it. -/
def answer (s : Loopback) (sent : Bytes) : LoopbackStep → LoopbackAnswer
  | .send .. | .request .. | .finish _ => .replies sent
  | .connect | .leave _ | .intrude _ | .breakSocket _ => .done
  | .close => .nothing
  | .shutdown expired => (s.shutdownResult expired).elim .nothing .result
  | .stopGateway .. => .drained sent
  | .starve .. => .starved sent
  | .starveAndStop _ => .starvedAndStopped

/-- What one step does, if the client can connect. -/
def perform (reading : Reading) (s : Loopback) (step : LoopbackStep) : Loopback × LoopbackAnswer :=
  let events := s.events reading step
  let came := if step = .connect then [s.server.registry.nextId] else []
  (⟨s.service.after events, s.clients ++ came⟩, s.answer (s.service.sent events) step)

/-- What one step does. -/
def step (reachable : Bool) (reading : Reading) (s : Loopback) (step : LoopbackStep) :
    Except Refusal (Loopback × LoopbackAnswer) :=
  match step.needs? with
  | some side => (s.reach reachable side).map fun _ => s.perform reading step
  | none => .ok (s.perform reading step)

/-- Stops an interface. -/
def stop (s : Loopback) (side : Side) : Loopback :=
  { s with service := s.service.after (s.stopping side) }

/-- What the accept loop of an interface has reported, once everything has been stopped. No loop of
a scenario fails but for a broken socket. -/
def result (s : Loopback) (side : Side) : Except Failure Unit :=
  if (s.service.loop side).hasFailed then .error (.io .invalidArgument) else .ok ()

end Loopback

end CacheServer
