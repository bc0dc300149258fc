import CacheServer.Proofs.Native.Registry
import CacheServer.Proofs.Service.Loops

/-!
# The registry of the service

Commands and requests have nothing to do with the counters of connections. So what the service does
to the registry over a run is calls, one after the other, and counters that have nothing to do with
connections (`exists_registry_after`). What is true of all such calls is true of the service: its
registry is sound (`sound_registry_after`), and once the native server is shutting down nothing is
registered any more (`connections_after_sublist`).
-/

namespace CacheServer

open Native (AcceptAction AcceptOutcome Call MessageLimit Registry)

/-! ## The counters of connections -/

namespace Metrics

/-- The counters that have to do with connections. -/
def connections (m : Metrics) : UInt64 × Int64 := (m.totalConnections, m.activeConnections)

/-- To look for a value is nothing to do with connections. -/
@[simp] theorem connections_countGet (m : Metrics) (found : Bool) :
    (m.countGet found).connections = m.connections := by
  cases found <;> rfl

end Metrics

namespace Native

/-- No command has to do with connections. -/
theorem connections_perform (cache : Cache) (now : Instant) (v : Verb)
    (request : Protocol.Request) :
    (perform cache now v request).1.metrics.connections = cache.metrics.connections := by
  cases v with
  | set => simp only [perform]; fun_cases performSet cache request <;> rfl
  | get =>
    simp only [perform]
    fun_cases performGet cache now request with
    | case1 | case2 => rfl
    | case3 | case4 => exact Metrics.connections_countGet _ _
  | delete => simp only [perform]; fun_cases performDelete cache now request <;> rfl
  | purge | length | keys | ping | close => rfl

/-- No message has to do with connections. -/
theorem connections_execute (cache : Cache) (reading : Reading) (message : Bytes) :
    (execute cache reading message).1.metrics.connections = cache.metrics.connections := by
  fun_cases execute cache reading message with
  | case1 | case2 => rfl
  | case3 request _ v _ counted after response hperform =>
    have hafter := connections_perform counted reading.now v request
    rw [hperform] at hafter
    exact hafter

/-- An exchange counts no connection. -/
theorem connections_of_exchange_eq {cache after : Cache} {reading : Reading}
    {buffer : Protocol.ReplyBuffer} {message : Bytes} {rest : Bytes × Protocol.ReplyBuffer × Flow}
    (h : exchange cache reading buffer message = (after, rest)) :
    after.metrics.connections = cache.metrics.connections := by
  have hafter : (exchange cache reading buffer message).1.metrics.connections = _ :=
    connections_execute { cache with metrics := cache.metrics.countRead message.length } reading
      message
  rw [h] at hafter
  exact hafter

/-- To serve a connection leaves the counters of connections. -/
theorem connections_serveFrom (limit : MessageLimit) (clock : Nat → Reading) (failing : Option Nat)
    (ending : StreamEnd) (cache : Cache) (buffer : Protocol.ReplyBuffer) (written : Nat)
    (replies chunks : List Bytes) :
    let served := serveFrom limit clock failing ending cache buffer written replies chunks
    served.cache.metrics.connections = cache.metrics.connections := by
  fun_induction serveFrom limit clock failing ending cache buffer written replies chunks with
  | case1 => rfl
  | case2 | case3 => exact connections_of_exchange_eq ‹exchange _ _ _ _ = _›
  | case4 =>
    rename_i ih
    exact ih.trans (connections_of_exchange_eq ‹exchange _ _ _ _ = _›)

end Native

namespace Http

/-- No request has to do with connections. -/
theorem connections_perform (cache : Cache) (now : Instant) (body : Bytes) (route : Route) :
    (perform cache now body route).1.metrics.connections = cache.metrics.connections := by
  cases route with
  | set key => simp only [perform]; fun_cases performSet cache key body <;> rfl
  | get key =>
    simp only [perform]
    fun_cases performGet cache now key with
    | case1 => rfl
    | case2 => exact Metrics.connections_countGet _ _
  | delete key => simp only [perform]; fun_cases performDelete cache now key <;> rfl
  | purge | length | keys | ping | metrics => rfl

/-- Serving a connection does not count it again. -/
theorem connections_serve (cache : Cache) (now : Instant) (failing : Bool) (input : Input) :
    (serve cache now failing input).1.metrics.connections = cache.metrics.connections := by
  have hcount : ∀ route, (count cache route).metrics.connections = cache.metrics.connections := by
    intro route
    unfold count
    split <;> rfl
  have hanswer : ∀ request,
      (answer cache now request).1.metrics.connections = cache.metrics.connections := by
    intro request
    fun_cases answer cache now request with
    | case1 | case3 => rfl
    | case2 route => exact (connections_perform _ now request.body route).trans (hcount route)
  fun_cases serve cache now failing input with
  | case1 => rfl
  | case2 request _ after reply hrespond =>
    have hafter : (respond cache now request).1.metrics.connections =
        cache.metrics.connections := by
      cases request with
      | none => exact rfl
      | some request => exact hanswer request
    rw [hrespond] at hafter
    exact hafter

end Http

/-! ## The registry -/

namespace Native.Registry

/-- Two registries that differ in nothing but counters that have nothing to do with connections. -/
structure Agrees (r r' : Registry) : Prop where
  eq : r' = { r with metrics := r'.metrics }
  connections : r'.metrics.connections = r.metrics.connections

variable {r r' r'' : Registry}

/-- A registry agrees with itself. -/
theorem Agrees.refl (r : Registry) : Agrees r r := ⟨rfl, rfl⟩

/-- Counters that have nothing to do with connections may change. -/
theorem Agrees.withMetrics (h : Agrees r r') {m : Metrics}
    (hm : m.connections = r'.metrics.connections) : Agrees r { r' with metrics := m } :=
  ⟨by rw [h.eq], hm.trans h.connections⟩

/-- Calls on registries that agree hand out the same id and lead to registries that agree. -/
theorem Agrees.perform (h : Agrees r r') (call : Call) :
    (r'.perform call).1 = (r.perform call).1 ∧ Agrees (r.perform call).2 (r'.perform call).2 := by
  obtain ⟨heq, hm⟩ := h
  generalize r'.metrics = m at heq hm
  subst heq
  have htotal : m.totalConnections = r.metrics.totalConnections := congrArg Prod.fst hm
  have hactive : m.activeConnections = r.metrics.activeConnections := congrArg Prod.snd hm
  cases call with
  | register =>
    simp only [Registry.perform, register]
    split
    · exact ⟨rfl, rfl, hm⟩
    · exact ⟨rfl, rfl, congrArg₂ Prod.mk (congrArg (· + 1) htotal) (congrArg (· + 1) hactive)⟩
  | listen =>
    simp only [Registry.perform, registerListener]
    split <;> exact ⟨trivial, rfl, hm⟩
  | drop id =>
    simp only [Registry.perform, drop]
    split
    · exact ⟨trivial, rfl, congrArg₂ Prod.mk htotal (congrArg (· - 1) hactive)⟩
    · exact ⟨trivial, rfl, hm⟩
  | close | shutdown => exact ⟨rfl, rfl, hm⟩

/-- Registries that agree still do after the same calls. -/
theorem Agrees.after (h : Agrees r r') (calls : List Call) :
    Agrees (r.after calls) (r'.after calls) := by
  induction calls generalizing r r' with
  | nil => exact h
  | cons call rest ih => exact ih (h.perform call).2

/-- Agreement can be chained. -/
theorem Agrees.trans (h : Agrees r r') (h' : Agrees r' r'') : Agrees r r'' where
  eq := by rw [h'.eq, h.eq]
  connections := h'.connections.trans h.connections

/-- A registry that agrees with a sound one is sound. -/
theorem Agrees.sound (h : Agrees r r') (hr : r.Sound) : r'.Sound := by
  have htotal := congrArg Prod.fst h.connections
  have hactive := congrArg Prod.snd h.connections
  rw [h.eq]
  exact ⟨hr.registered, htotal.trans hr.total, hactive.trans hr.active, hr.quiet⟩

end Native.Registry

namespace Service

variable {s s' : Service} {side : Side} {outcome : AcceptOutcome} {action : Option AcceptAction}
  {drawn : Duration}

/-! ## The service -/

/-- What an accept loop does to the registry is a sequence of its calls. -/
theorem Accepts.exists_registry (h : s.Accepts side drawn outcome action s') :
    ∃ calls, s'.server.registry = s.server.registry.after calls := by
  cases h with
  | admitted =>
    rw [server_setLoop]
    cases side with
    | native => exact ⟨[.register], rfl⟩
    | http => exact ⟨[], rfl⟩
  | idle | skipped => exact ⟨[], rfl⟩
  | excused | paused | gaveUp | crashed => exact ⟨[], by rw [server_setLoop]; rfl⟩

/-- What an event does to the registry is calls, and counters that have nothing to do with
connections. -/
theorem exists_registry_step (s : Service) (event : ServiceEvent) :
    ∃ calls, Registry.Agrees (s.server.registry.after calls) (s.step event).2.server.registry := by
  cases event with
  | accept side outcome drawn =>
    obtain ⟨calls, hcalls⟩ := (s.accepts_accept side outcome drawn).exists_registry
    exact ⟨calls, hcalls ▸ .refl _⟩
  | notice side =>
    show ∃ calls, Registry.Agrees _ (s.notice side).server.registry
    fun_cases notice s side with
    | case1 => exact ⟨[], by rw [server_setLoop]; exact .refl _⟩
    | case2 | case3 | case4 => exact ⟨[], .refl _⟩
  | arrive id limit reading data =>
    show ∃ calls, Registry.Agrees _ (s.arrive id limit reading data).2.server.registry
    fun_cases arrive s id limit reading data with
    | case1 hheld served server =>
      have hserved : s.server.registry.Agrees server.registry :=
        (Registry.Agrees.refl _).withMetrics
          (Native.connections_serveFrom limit (fun _ => reading) none .hang _ .empty 0 [] [data])
      cases hshut : served.shutDown with
      | true => exact ⟨[.drop id], (hserved.perform (.drop id)).2⟩
      | false => exact ⟨[], hserved⟩
    | case2 => exact ⟨[], .refl _⟩
  | hangUp id => exact ⟨[.drop id], .refl _⟩
  | request id now input =>
    show ∃ calls, Registry.Agrees _ (s.request id now input).2.server.registry
    fun_cases request s id now input with
    | case1 hflight cache sent hserve =>
      have hcache := Http.connections_serve s.server.cache now false input
      rw [hserve] at hcache
      exact ⟨[], (Registry.Agrees.refl _).withMetrics hcache⟩
    | case2 => exact ⟨[], .refl _⟩
  | sweep now => exact ⟨[], rfl, rfl⟩
  | close => exact ⟨[.close], .refl _⟩
  | beginShutdown => exact ⟨[.shutdown], .refl _⟩
  | stopGateway => exact ⟨[], .refl _⟩

/-- What the service does to the registry over a run is calls. -/
theorem exists_registry_after (s : Service) (events : List ServiceEvent) : ∃ calls,
    Registry.Agrees (s.server.registry.after calls) (s.after events).server.registry := by
  induction events generalizing s with
  | nil => exact ⟨[], .refl _⟩
  | cons event rest ih =>
    obtain ⟨calls, hcalls⟩ := s.exists_registry_step event
    obtain ⟨more, hmore⟩ := ih (s.step event).2
    refine ⟨calls ++ more, ?_⟩
    rw [Registry.after_append]
    exact (hcalls.after more).trans hmore

/-- The registry of a service is sound at any time. -/
theorem sound_registry_after (native http : Bool) (events : List ServiceEvent) :
    ((start native http).after events).server.registry.Sound := by
  have hstart : (start native http).server.registry.Sound := by
    cases native with
    | true => exact Registry.sound_after [.listen]
    | false => exact Registry.sound_initial
  obtain ⟨calls, hcalls⟩ := (start native http).exists_registry_after events
  exact hcalls.sound (hstart.after calls)

/-- Once the native server is shutting down, no connection is registered any more. -/
theorem connections_after_sublist (h : s.server.registry.shuttingDown = true)
    (events : List ServiceEvent) :
    (s.after events).server.registry.connections.Sublist s.server.registry.connections := by
  obtain ⟨calls, hcalls⟩ := s.exists_registry_after events
  rw [hcalls.eq]
  exact Registry.connections_after_sublist h calls

end Service

end CacheServer
