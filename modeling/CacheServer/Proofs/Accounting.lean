import CacheServer.Proofs.Frame
import CacheServer.Proofs.Http.Gateway

/-!
# What is counted

Counters are words of 64 bits, so what they show is a number of steps modulo 2^64. Which steps these
are is said from the bytes of a step and the store that it meets (`Step.Raises`), and one step
raises a counter by one or leaves it (`Step.tally_apply`). A run adds up what its steps do
(`Cache.tally_after`), which gives every counter after a run on fresh metrics (`metrics_after`).
-/

namespace CacheServer

open Protocol

/-- The counters that messages and requests raise. -/
inductive Counter
  | command (v : Verb)
  | protocolErrors
  | invalidCommands
  /-- The samples of the latency. -/
  | latencies
  | hits
  | misses
  deriving DecidableEq

/-- The counters of which a message raises one: that of its verb, or that of its error. -/
def Counter.outcomes : List Counter :=
  .protocolErrors :: .invalidCommands :: Verb.all.map .command

namespace Metrics

/-- What a counter shows. -/
def tally (m : Metrics) : Counter → UInt64
  | .command v => m.commandCount v
  | .protocolErrors => m.protocolErrors
  | .invalidCommands => m.invalidCommands
  | .latencies => m.latency.count
  | .hits => m.getHits
  | .misses => m.getMisses

/-- All counters of a new server are at zero. -/
theorem tally_initial (c : Counter) : initial.tally c = 0 := by
  cases c with
  | command v => simp [tally, commandCount, initial]
  | protocolErrors | invalidCommands | latencies | hits | misses => rfl

/-- A command raises the counter of its verb by one, and no other. -/
theorem tally_countCommand (m : Metrics) (v : Verb) (c : Counter) :
    (m.countCommand v).tally c = m.tally c + if c = .command v then 1 else 0 := by
  cases c with
  | command w =>
    simp only [tally, commandCount_countCommand, Counter.command.injEq]
    split <;> simp
  | protocolErrors | invalidCommands | latencies | hits | misses =>
    simp [tally, countCommand, addCommands]

/-- A message that cannot be read raises one counter. -/
theorem tally_countProtocolError (m : Metrics) (c : Counter) :
    m.countProtocolError.tally c = m.tally c + if c = .protocolErrors then 1 else 0 := by
  cases c <;> simp [tally, countProtocolError, commandCount]

/-- A message with an unknown verb raises one counter. -/
theorem tally_countInvalidCommand (m : Metrics) (c : Counter) :
    m.countInvalidCommand.tally c = m.tally c + if c = .invalidCommands then 1 else 0 := by
  cases c <;> simp [tally, countInvalidCommand, commandCount]

/-- A latency that is observed raises the number of latencies. -/
theorem tally_observeLatency (m : Metrics) (seconds : Float) (c : Counter) :
    (m.observeLatency seconds).tally c = m.tally c + if c = .latencies then 1 else 0 := by
  cases c <;> simp [tally, observeLatency, Latency.observe, commandCount]

/-- A value that is looked for raises the hits or the misses, and nothing else. -/
theorem tally_countGet (m : Metrics) (found : Bool) (c : Counter) :
    (m.countGet found).tally c =
      m.tally c + if c = (if found then .hits else .misses) then 1 else 0 := by
  cases found <;> cases c <;> simp [tally, countGet, commandCount]

end Metrics

/-! ## Which steps count -/

/-- The messages that read a key from the store, with the key. -/
inductive Native.Fetches (message : Bytes) : String → Prop
  | get {key : String} {value : Option Bytes} :
      Request.parse message = .ok ⟨some .get, some key, value⟩ → key ≠ "" →
      (∀ v ∈ value, v = []) → Fetches message key

/-- The requests that read a key from the store, with the key. -/
inductive Http.Fetches (request : Http.Request) : String → Prop
  | get {key : String} : Route.Serves (Route.path request.target) (.get key) →
      request.method = "GET" → key ≠ "" → Fetches request key

/-- A request that is not taken for a route, and one for the metrics, is not counted. -/
theorem Http.metrics_of_not_counted {cache : Cache} {now : Instant} {r : Http.Request}
    (h : (answer cache now r).2.status ∈ [404, 405] ∨
      Route.Serves (Route.path r.target) .metrics) :
    (answer cache now r).1.metrics = cache.metrics := by
  by_cases htaken : Taken r
  · obtain ⟨route, hpath, hmethod⟩ := htaken
    have hmetrics := h.resolve_left fun hstatus =>
      status_answer_iff.1 hstatus ⟨route, hpath, hmethod⟩
    obtain rfl := hpath.unique hmetrics
    rw [answer_of_serves cache now hpath hmethod]
    rfl
  · rw [(answer_of_not_taken htaken).1]

namespace Step

/-- The instant at which a step runs. -/
def now : Step → Instant
  | message reading _ => reading.now
  | request now _ => now

def IsMessage : Step → Prop
  | message _ _ => True
  | request _ _ => False

/-- Whether a step is a message that cannot be read. -/
def IsUnreadable : Step → Prop
  | message _ bytes => ∃ e, Request.parse bytes = .error e
  | request _ _ => False

/-- Whether a step is a message with a verb outside the catalogue. -/
def HasUnknownVerb : Step → Prop
  | message _ bytes => ∃ r, Request.parse bytes = .ok r ∧ r.verb = none
  | request _ _ => False

/-- Whether a step reads a key from the store. -/
def Fetches (step : Step) (key : String) : Prop :=
  match step with
  | message _ bytes => Native.Fetches bytes key
  | request _ r => Http.Fetches r key

/-- Whether a step that meets a cache raises a counter. -/
def Raises (cache : Cache) (step : Step) : Counter → Prop
  | .command v => step.Names v
  | .protocolErrors => step.IsUnreadable
  | .invalidCommands => step.HasUnknownVerb
  | .latencies => step.IsMessage ∧ ¬ step.IsUnreadable ∧ ¬ step.HasUnknownVerb
  | .hits => ∃ key, step.Fetches key ∧ cache.store.get step.now key ≠ none
  | .misses => ∃ key, step.Fetches key ∧ cache.store.get step.now key = none

/-- The key that a step reads from the store, if it does. -/
def fetched? : Step → Option String
  | message _ bytes =>
    match Request.parse bytes with
    | .ok r => if r.verb = some .get ∧ r.givenValue = none then r.givenKey else none
    | .error _ => none
  | request _ r =>
    match Http.Route.ofTarget? r.target with
    | some (.get key) => if r.method = "GET" ∧ key ≠ "" then some key else none
    | _ => none

/-- The key that a step fetches, if it fetches one. -/
theorem fetched?_eq_some_iff {step : Step} {key : String} :
    step.fetched? = some key ↔ step.Fetches key := by
  constructor
  · fun_cases fetched? step with
    | case1 reading bytes r hparse hr =>
      intro hkey
      obtain ⟨hkey, hne⟩ := Request.givenKey_eq_some_iff.1 hkey
      obtain ⟨verb, rkey, value⟩ := r
      obtain ⟨rfl, hvalue⟩ := hr
      obtain rfl := hkey
      exact .get hparse hne (Request.givenValue_eq_none_iff.1 hvalue)
    | case4 now r k htarget hr =>
      rintro ⟨⟩
      exact .get (Http.Route.ofTarget?_eq_some_iff.1 htarget) hr.1 hr.2
    | _ => exact nofun
  · intro h
    cases step with
    | message reading bytes =>
      cases h with
      | get hparse hne hvalue =>
        simp only [fetched?, hparse, Request.givenValue_none hvalue, Request.givenKey_some hne,
          and_self, if_true]
    | request now r =>
      cases h with
      | get hpath hmethod hne =>
        simp only [fetched?, Http.Route.ofTarget?_eq_some_iff.2 hpath]
        exact if_pos ⟨hmethod, hne⟩

/-- What fetches a key names `GET`. -/
theorem names_of_fetches {step : Step} {key : String} (h : step.Fetches key) : step.Names .get := by
  cases step with
  | message reading bytes => cases h with | get hparse => exact ⟨_, hparse, rfl⟩
  | request now r => cases h with | get hpath hmethod => exact ⟨_, hpath, hmethod, rfl⟩

instance (step : Step) (v : Verb) : Decidable (step.Names v) :=
  match step with
  | message _ bytes =>
    match hparse : Request.parse bytes with
    | .ok r => decidable_of_iff (r.verb = some v) (by simp [Names, hparse])
    | .error _ => isFalse (by simp [Names, hparse])
  | request _ r =>
    decidable_of_iff (∃ route ∈ Http.Route.ofTarget? r.target,
      r.method = route.method ∧ route.verb? = some v)
      (by simp [Names, Http.Route.ofTarget?_eq_some_iff])

instance : DecidablePred IsMessage := fun step =>
  match step with
  | message _ _ => isTrue trivial
  | request _ _ => isFalse not_false

instance : DecidablePred IsUnreadable := fun step =>
  match step with
  | message _ bytes =>
    match hparse : Request.parse bytes with
    | .ok r => isFalse (by simp [IsUnreadable, hparse])
    | .error e => isTrue ⟨e, hparse⟩
  | request _ _ => isFalse not_false

instance : DecidablePred HasUnknownVerb := fun step =>
  match step with
  | message _ bytes =>
    match hparse : Request.parse bytes with
    | .ok r => decidable_of_iff (r.verb = none) (by simp [HasUnknownVerb, hparse])
    | .error e => isFalse (by simp [HasUnknownVerb, hparse])
  | request _ _ => isFalse not_false

instance (step : Step) : Decidable (∃ key, step.Fetches key) :=
  decidable_of_iff (step.fetched?.isSome = true)
    (by simp [Option.isSome_iff_exists, fetched?_eq_some_iff])

instance (step : Step) (p : String → Prop) [DecidablePred p] :
    Decidable (∃ key, step.Fetches key ∧ p key) :=
  decidable_of_iff (∃ key ∈ step.fetched?, p key) (by simp [fetched?_eq_some_iff])

instance (cache : Cache) (step : Step) : DecidablePred (step.Raises cache) := fun c =>
  match c with
  | .command v => inferInstanceAs (Decidable (step.Names v))
  | .protocolErrors => inferInstanceAs (Decidable step.IsUnreadable)
  | .invalidCommands => inferInstanceAs (Decidable step.HasUnknownVerb)
  | .latencies => inferInstanceAs (Decidable (_ ∧ _))
  | .hits => inferInstanceAs (Decidable (∃ _, _ ∧ _))
  | .misses => inferInstanceAs (Decidable (∃ _, _ ∧ _))

/-! ## What a step adds -/

/-- Counts what a step reads from the store, if it does, as found or not. -/
def countFetch (cache : Cache) (step : Step) (m : Metrics) : Metrics :=
  match step.fetched? with
  | some key => m.countGet (cache.store.get step.now key).isSome
  | none => m

/-- What is counted for a fetch is a hit or a miss, as the store has it. -/
theorem tally_countFetch (cache : Cache) (step : Step) (m : Metrics) (c : Counter) :
    (step.countFetch cache m).tally c =
      m.tally c + if (c = .hits ∨ c = .misses) ∧ step.Raises cache c then 1 else 0 := by
  unfold countFetch
  split
  · next key hkey =>
    rw [Metrics.tally_countGet]
    cases hget : cache.store.get step.now key <;> cases c <;>
      simp [Raises, ← fetched?_eq_some_iff, hkey, hget]
  · next hnone => cases c <;> simp [Raises, ← fetched?_eq_some_iff, hnone]

/-- A command counts nothing but what it looks for. -/
theorem metrics_perform (cache : Cache) (now : Instant) (v : Verb) (r : Request) :
    (Native.perform cache now v r).1.metrics =
      match if v = .get ∧ r.givenValue = none then r.givenKey else none with
      | some key => cache.metrics.countGet (cache.store.get now key).isSome
      | none => cache.metrics := by
  cases v with
  | get =>
    simp only [Native.perform, true_and]
    fun_cases Native.performGet cache now r with
    | case1 hkey => simp [hkey]
    | case2 key hkey hvalue =>
      rw [if_neg (Option.isSome_iff_ne_none.1 hvalue)]
    | case3 key hkey hvalue found counted value hfound =>
      rw [if_pos (Option.not_isSome_iff_eq_none.1 hvalue), hkey]
    | case4 key hkey hvalue found counted hfound =>
      rw [if_pos (Option.not_isSome_iff_eq_none.1 hvalue), hkey]
  | set =>
    simp only [Native.perform]
    fun_cases Native.performSet cache r <;> rfl
  | delete =>
    simp only [Native.perform]
    fun_cases Native.performDelete cache now r <;> rfl
  | purge | length | keys | ping | close => rfl

/-- What a message with a known verb counts: the command, what it looks for and the time it took. -/
theorem metrics_execute (cache : Cache) (reading : Reading) {bytes : Bytes} {r : Request} {v : Verb}
    (hparse : Request.parse bytes = .ok r) (hv : r.verb = some v) :
    (Native.execute cache reading bytes).1.metrics =
      ((message reading bytes).countFetch cache (cache.metrics.countCommand v)).observeLatency
        reading.took := by
  have hfetched : (message reading bytes).fetched? =
      if v = .get ∧ r.givenValue = none then r.givenKey else none := by
    simp only [fetched?, hparse, hv, Option.some.injEq]
  simp only [Native.execute, hparse, hv, metrics_perform, countFetch, hfetched]
  rfl

/-- What a request that is taken counts: the command and what it looks for. -/
theorem metrics_answer (cache : Cache) (now : Instant) {r : Http.Request} {route : Http.Route}
    (hpath : Http.Route.Serves (Http.Route.path r.target) route)
    (hmethod : r.method = route.method) :
    (Http.answer cache now r).1.metrics =
      (request now r).countFetch cache (Http.count cache route).metrics := by
  rw [Http.answer_of_serves cache now hpath hmethod]
  simp only [countFetch, fetched?, Http.Route.ofTarget?_eq_some_iff.2 hpath]
  cases route with
  | get key =>
    simp only [Http.perform]
    fun_cases Http.performGet (Http.count cache (.get key)) now key with
    | case1 hkey => rw [if_neg fun h => h.2 hkey]
    | case2 hkey => rw [if_pos ⟨hmethod, hkey⟩]; rfl
  | set key =>
    simp only [Http.perform]
    fun_cases Http.performSet (Http.count cache (.set key)) key r.body <;> rfl
  | delete key =>
    simp only [Http.perform]
    fun_cases Http.performDelete (Http.count cache (.delete key)) now key <;> rfl
  | purge | length | keys | ping | metrics => rfl

/-- A step that does not name `GET` fetches nothing. -/
theorem not_fetches {step : Step} (h : ¬ step.Names .get) (key : String) : ¬ step.Fetches key :=
  fun hfetches => h (names_of_fetches hfetches)

/-- A message raises the counter of its error, or that of its verb, the latency and what its fetch
counts for. -/
theorem tally_execute (cache : Cache) (reading : Reading) (bytes : Bytes) (c : Counter) :
    (Native.execute cache reading bytes).1.metrics.tally c =
      cache.metrics.tally c + if (message reading bytes).Raises cache c then 1 else 0 := by
  cases hparse : Request.parse bytes with
  | error e =>
    have hmetrics : (Native.execute cache reading bytes).1.metrics =
        cache.metrics.countProtocolError := by simp only [Native.execute, hparse]
    have hfetches : ∀ key, ¬ (message reading bytes).Fetches key :=
      not_fetches (by simp [Names, hparse])
    rw [hmetrics, Metrics.tally_countProtocolError]
    cases c <;> simp [Raises, Names, IsUnreadable, HasUnknownVerb, hparse, hfetches]
  | ok r =>
    cases hverb : r.verb with
    | none =>
      have hmetrics : (Native.execute cache reading bytes).1.metrics =
          cache.metrics.countInvalidCommand := by simp only [Native.execute, hparse, hverb]
      have hfetches : ∀ key, ¬ (message reading bytes).Fetches key :=
        not_fetches (by simp [Names, hparse, hverb])
      rw [hmetrics, Metrics.tally_countInvalidCommand]
      cases c <;> simp [Raises, Names, IsUnreadable, HasUnknownVerb, hparse, hverb, hfetches]
    | some v =>
      rw [metrics_execute cache reading hparse hverb, Metrics.tally_observeLatency,
        tally_countFetch, Metrics.tally_countCommand]
      cases c <;>
        simp [Raises, Names, IsMessage, IsUnreadable, HasUnknownVerb, hparse, hverb, eq_comm]

/-- A route raises the counter of its command, if it is one. -/
theorem tally_count (cache : Cache) (route : Http.Route) (c : Counter) :
    (Http.count cache route).metrics.tally c =
      cache.metrics.tally c + if route.verb?.map .command = some c then 1 else 0 := by
  unfold Http.count
  cases hverb : route.verb? with
  | none => simp
  | some v => simp [Metrics.tally_countCommand, eq_comm]

/-- A request raises the counter of the verb that it names and what its fetch counts for. -/
theorem tally_answer (cache : Cache) (now : Instant) (r : Http.Request) (c : Counter) :
    (Http.answer cache now r).1.metrics.tally c =
      cache.metrics.tally c + if (request now r).Raises cache c then 1 else 0 := by
  by_cases htaken : Http.Taken r
  · obtain ⟨route, hpath, hmethod⟩ := htaken
    have hnames : ∀ v, (request now r).Names v ↔ route.verb? = some v := by
      refine fun v => ⟨?_, fun hverb => ⟨route, hpath, hmethod, hverb⟩⟩
      rintro ⟨route', hpath', -, hverb⟩
      rwa [hpath.unique hpath']
    rw [metrics_answer cache now hpath hmethod, tally_countFetch, tally_count]
    cases c with
    | command v => simp [Raises, hnames]
    | protocolErrors | invalidCommands | latencies =>
      simp [Raises, IsMessage, IsUnreadable, HasUnknownVerb]
    | hits | misses => simp
  · have hnames : ∀ v, ¬ (request now r).Names v := by
      rintro v ⟨route, hpath, hmethod, -⟩
      exact htaken ⟨route, hpath, hmethod⟩
    rw [(Http.answer_of_not_taken htaken).1]
    cases c <;>
      simp [Raises, hnames, IsMessage, IsUnreadable, HasUnknownVerb, not_fetches (hnames .get)]

/-- A step raises a counter by one or leaves it. -/
theorem tally_apply (cache : Cache) (step : Step) (c : Counter) :
    (step.apply cache).metrics.tally c =
      cache.metrics.tally c + if step.Raises cache c then 1 else 0 := by
  cases step with
  | message reading bytes => exact tally_execute cache reading bytes c
  | request now r => exact tally_answer cache now r c

/-- A message raises exactly one of the counters of outcomes. -/
theorem exists_outcome (cache : Cache) (reading : Reading) (bytes : Bytes) :
    ∃ c ∈ Counter.outcomes, ∀ c' ∈ Counter.outcomes,
      (message reading bytes).Raises cache c' ↔ c' = c := by
  have houtcome : ∀ c ∈ Counter.outcomes,
      c = .protocolErrors ∨ c = .invalidCommands ∨ ∃ v, c = .command v := by
    simp only [Counter.outcomes, List.mem_cons, List.mem_map]
    rintro c (h | h | ⟨v, -, h⟩)
    exacts [.inl h, .inr (.inl h), .inr (.inr ⟨v, h.symm⟩)]
  cases hparse : Request.parse bytes with
  | error e =>
    refine ⟨.protocolErrors, by simp [Counter.outcomes], fun c' hc' => ?_⟩
    obtain rfl | rfl | ⟨v, rfl⟩ := houtcome c' hc' <;>
      simp [Raises, Names, IsUnreadable, HasUnknownVerb, hparse]
  | ok r =>
    cases hverb : r.verb with
    | none =>
      refine ⟨.invalidCommands, by simp [Counter.outcomes], fun c' hc' => ?_⟩
      obtain rfl | rfl | ⟨v, rfl⟩ := houtcome c' hc' <;>
        simp [Raises, Names, IsUnreadable, HasUnknownVerb, hparse, hverb]
    | some w =>
      refine ⟨.command w, by simp [Counter.outcomes, Verb.mem_all], fun c' hc' => ?_⟩
      obtain rfl | rfl | ⟨v, rfl⟩ := houtcome c' hc' <;>
        simp [Raises, Names, IsUnreadable, HasUnknownVerb, hparse, hverb, eq_comm]

/-- Whether a step is answered by what is found under a key. -/
def AnswersWith (cache : Cache) (step : Step) (key : String) (found : Option Bytes) : Prop :=
  match step with
  | message reading bytes =>
    (Native.execute cache reading bytes).2.1 = Native.getReply key found
  | request now r => (Http.answer cache now r).2 = Http.getReply key found

/-- What fetches a key is answered with what the store has under it. -/
theorem answersWith_of_fetches {step : Step} {key : String} (cache : Cache)
    (h : step.Fetches key) : step.AnswersWith cache key (cache.store.get step.now key) := by
  cases step with
  | message reading bytes =>
    cases h with
    | get hparse hkey hvalue => exact (Native.execute_get hparse hkey hvalue).2
  | request now r =>
    cases h with
    | get hpath hmethod hkey => exact (Http.answer_get hpath hmethod hkey).2

end Step

/-! ## What a run adds up -/

/-- The steps of a history, each with the cache that it meets. -/
def Cache.trace (cache : Cache) : List Step → List (Cache × Step)
  | [] => []
  | step :: rest => (cache, step) :: (step.apply cache).trace rest

/-- A trace has the steps of the history in order. -/
theorem Cache.trace_map_snd (cache : Cache) (history : List Step) :
    (cache.trace history).map Prod.snd = history := by
  induction history generalizing cache with
  | nil => rfl
  | cons step rest ih => rw [trace, List.map_cons, ih]

/-- Counting steps by what they are, the caches that they meet do not matter. -/
theorem Cache.countP_trace (cache : Cache) (history : List Step) (p : Step → Bool) :
    (cache.trace history).countP (fun e => p e.2) = history.countP p := by
  rw [← cache.trace_map_snd history, List.countP_map, trace_map_snd]
  rfl

/-- After a history, a counter shows so many more steps as have raised it. -/
theorem Cache.tally_after (cache : Cache) (history : List Step) (c : Counter) :
    (cache.after history).metrics.tally c = cache.metrics.tally c +
      UInt64.ofNat ((cache.trace history).countP fun e => e.2.Raises e.1 c) := by
  induction history generalizing cache with
  | nil => exact (UInt64.add_zero _).symm
  | cons step rest ih =>
    show ((step.apply cache).after rest).metrics.tally c = _
    rw [ih, Step.tally_apply, trace, List.countP_cons, Nat.add_comm, UInt64.ofNat_add,
      UInt64.add_assoc]
    by_cases h : step.Raises cache c <;> simp [h]

/-- The hits and the misses of a run are the steps that fetched, whatever these found. -/
theorem Cache.countP_hits_add_countP_misses (cache : Cache) (history : List Step) :
    ((cache.trace history).countP fun e => e.2.Raises e.1 .hits) +
        ((cache.trace history).countP fun e => e.2.Raises e.1 .misses) =
      history.countP fun step => ∃ key, step.Fetches key := by
  rw [← cache.countP_trace history]
  generalize cache.trace history = entries
  induction entries with
  | nil => rfl
  | cons e rest ih =>
    have hone : (if ∃ key, e.2.Fetches key then 1 else 0) =
        (if e.2.Raises e.1 .hits then 1 else 0) + if e.2.Raises e.1 .misses then 1 else 0 := by
      cases hkey : e.2.fetched? with
      | none => simp [Step.Raises, ← Step.fetched?_eq_some_iff, hkey]
      | some key =>
        cases hget : e.1.store.get e.2.now key <;>
          simp [Step.Raises, ← Step.fetched?_eq_some_iff, hkey, hget]
    simp only [List.countP_cons, ← ih, decide_eq_true_eq, hone]
    omega

/-- After a history on fresh counters, over any store:
the protocol errors are the messages that cannot be read, the invalid commands those with an unknown
verb, and the samples of the latency all other messages; the commands of a verb are the messages and
requests that name it, the refused ones included; hits and misses are the `GET`s that fetched, the
hits those that found a live value, and each was answered by what it found. Requests that are
answered 404 or 405 and requests for the metrics count for nothing. A message raises exactly one of
the ten counters of outcomes. -/
theorem metrics_after (store : Store) (history : List Step) :
    let start : Cache := ⟨store, .initial⟩
    let counted := (start.after history).metrics
    counted.protocolErrors = .ofNat (history.countP fun step => step.IsUnreadable) ∧
    counted.invalidCommands = .ofNat (history.countP fun step => step.HasUnknownVerb) ∧
    counted.latency.count = .ofNat (history.countP fun step =>
      step.IsMessage ∧ ¬ step.IsUnreadable ∧ ¬ step.HasUnknownVerb) ∧
    (∀ v, counted.commandCount v = .ofNat (history.countP fun step => step.Names v)) ∧
    counted.getHits + counted.getMisses =
      .ofNat (history.countP fun step => ∃ key, step.Fetches key) ∧
    counted.getHits = .ofNat ((start.trace history).countP fun e =>
      ∃ key, e.2.Fetches key ∧ e.1.store.get e.2.now key ≠ none) ∧
    (∀ cache (step : Step) key, step.Fetches key →
      step.AnswersWith cache key (cache.store.get step.now key)) ∧
    (∀ (cache : Cache) now (r : Http.Request), (Http.answer cache now r).2.status ∈ [404, 405] ∨
      Http.Route.Serves (Http.Route.path r.target) .metrics →
        (Http.answer cache now r).1.metrics = cache.metrics) ∧
    ∀ (cache : Cache) reading bytes, ∃ c ∈ Counter.outcomes, ∀ c' ∈ Counter.outcomes,
      (Native.execute cache reading bytes).1.metrics.tally c' =
        cache.metrics.tally c' + if c' = c then 1 else 0 := by
  intro start counted
  have htally : ∀ c, counted.tally c =
      .ofNat ((start.trace history).countP fun e => e.2.Raises e.1 c) := fun c => by
    rw [start.tally_after history c, Metrics.tally_initial, UInt64.zero_add]
  have hsteps : ∀ (c : Counter) (p : Step → Prop) [DecidablePred p],
      (∀ cache step, Step.Raises cache step c ↔ p step) →
        counted.tally c = .ofNat (history.countP fun step => p step) := by
    intro c p _ hp
    simp only [htally, ← start.countP_trace history, hp]
  refine ⟨hsteps .protocolErrors _ fun _ _ => Iff.rfl, hsteps .invalidCommands _ fun _ _ => Iff.rfl,
    hsteps .latencies _ fun _ _ => Iff.rfl, fun v => hsteps (.command v) _ fun _ _ => Iff.rfl, ?_,
    htally .hits, fun cache step key => Step.answersWith_of_fetches cache, ?_, ?_⟩
  · rw [← start.countP_hits_add_countP_misses history, UInt64.ofNat_add]
    exact congrArg₂ (· + ·) (htally .hits) (htally .misses)
  · intro cache now r h
    exact Http.metrics_of_not_counted h
  · intro cache reading bytes
    obtain ⟨c, hc, hraises⟩ := Step.exists_outcome cache reading bytes
    refine ⟨c, hc, fun c' hc' => ?_⟩
    rw [Step.tally_execute]
    simp only [hraises c' hc']

/-- An empty message, one with an unknown verb, a refused `PUT`, a `GET` that finds a value and one
that comes too late for it. -/
theorem metrics_after_five :
    let store := Store.empty.setWithTtl ⟨0⟩ "k" [1] ⟨6, by decide⟩
    let getting := Request.encode ⟨some .get, some "k", none⟩
    let history : List Step :=
      [.message ⟨⟨1⟩, 0⟩ [], .message ⟨⟨2⟩, 0⟩ (Bytes.ofText "RCSP/1.0 TOUCH"),
        .request ⟨3⟩ ⟨"PUT", "/SET/k", []⟩, .message ⟨⟨4⟩, 0⟩ getting,
        .request ⟨9⟩ ⟨"GET", "/GET/k", []⟩]
    let counted := ((Cache.mk store .initial).after history).metrics
    counted.protocolErrors = 1 ∧ counted.invalidCommands = 1 ∧ counted.latency.count = 1 ∧
      counted.commandCount .set = 1 ∧ counted.commandCount .get = 2 ∧
      counted.getHits + counted.getMisses = 2 ∧ counted.getHits = 1 := by
  intro store getting history counted
  obtain ⟨herrors, hinvalid, hlatency, hcommands, hfetched, hhits, -⟩ := metrics_after store history
  exact ⟨herrors.trans (by decide), hinvalid.trans (by decide), hlatency.trans (by decide),
    (hcommands .set).trans (by decide), (hcommands .get).trans (by decide),
    hfetched.trans (by decide), hhits.trans (by decide)⟩

end CacheServer
