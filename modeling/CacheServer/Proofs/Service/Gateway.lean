import CacheServer.Proofs.Service.Loops

/-!
# The connections of the gateway

A connection comes to the gateway when this accepts it, and is in flight until it is served. Nothing
else happens to those in flight (`Moves`), so none is lost and none is served twice
(`mem_inFlight_after_iff`). Once the accept loop is over no other comes (`requests_after_of_over`).
-/

namespace CacheServer

open Native (AcceptAction AcceptOutcome)

namespace Service

variable {s s' : Service} {event : ServiceEvent} {events : List ServiceEvent} {side : Side}
  {outcome : AcceptOutcome} {action : Option AcceptAction} {drawn : Duration} {id : Nat}

/-- The connection that an event of a request belongs to. -/
def subject? : ServiceEvent → Option Nat
  | .request id .. => some id
  | _ => none

/-- What an event does to the connections of the gateway: one comes, one is served, or nothing. -/
inductive Moves (s : Service) : ServiceEvent → Service → Prop
  | comes {drawn : Duration} {s' : Service} : (s.loop .http).isAccepting = true →
      s'.inFlight = s.requests :: s.inFlight → s'.requests = s.requests + 1 →
      Moves s (.accept .http .connection drawn) s'
  | served {id : Nat} {now : Instant} {input : Http.Input} {s' : Service} :
      s'.inFlight = s.inFlight.filter (· != id) → s'.requests = s.requests →
      Moves s (.request id now input) s'
  | stays {event : ServiceEvent} {s' : Service} :
      subject? event = none → s'.inFlight = s.inFlight → s'.requests = s.requests →
      Moves s event s'

/-- What an accept loop does with an outcome is a move of the service. -/
theorem Accepts.moves (h : s.Accepts side drawn outcome action s') :
    s.Moves (.accept side outcome drawn) s' := by
  cases h with
  | @admitted retry haccepting =>
    cases side with
    | native => exact .stays rfl rfl rfl
    | http => exact .comes (by rw [haccepting]; rfl) rfl rfl
  | idle | skipped => exact .stays rfl rfl rfl
  | excused | paused | gaveUp | crashed =>
    exact .stays rfl (inFlight_setLoop ..) (requests_setLoop ..)

/-- Every step of a service is a move. -/
theorem moves_step (s : Service) (event : ServiceEvent) : s.Moves event (s.step event).2 := by
  cases event with
  | accept side outcome drawn => exact (s.accepts_accept side outcome drawn).moves
  | notice side =>
    show s.Moves _ (s.notice side)
    fun_cases notice s side with
    | case1 => exact .stays rfl (inFlight_setLoop ..) (requests_setLoop ..)
    | case2 | case3 | case4 => exact .stays rfl rfl rfl
  | arrive id limit reading data =>
    show s.Moves _ (s.arrive id limit reading data).2
    fun_cases arrive s id limit reading data <;> exact .stays rfl rfl rfl
  | request id now input =>
    show s.Moves _ (s.request id now input).2
    fun_cases request s id now input with
    | case1 hflight cache sent hserve => exact .served rfl rfl
    | case2 hflight =>
      have hother : ∀ other ∈ s.inFlight, (other != id) = true := fun other hmem =>
        bne_iff_ne.2 fun heq => hflight (List.contains_iff_mem.2 (heq ▸ hmem))
      exact .served (List.filter_eq_self.2 hother).symm rfl
  | hangUp | sweep | close | beginShutdown | stopGateway => exact .stays rfl rfl rfl

/-- The gateway accepts nothing more once its accept loop is over. -/
theorem requests_after_of_over (h : (s.loop .http).isAccepting = false)
    (events : List ServiceEvent) : (s.after events).requests = s.requests := by
  induction events generalizing s with
  | nil => rfl
  | cons event rest ih =>
    have hloop : ((s.step event).2.loop .http).isAccepting = false := by
      rw [loop_step_of_over h, h]
    refine (ih hloop).trans ?_
    cases s.moves_step event with
    | comes haccepting => exact nomatch h.symm.trans haccepting
    | served _ hrequests | stays _ _ hrequests => exact hrequests

/-- In flight after a step is a connection that has come with it, or was in flight and is not
served by it. -/
theorem Moves.mem_inFlight_iff (h : s.Moves event s') (hlt : ∀ id ∈ s.inFlight, id < s.requests) :
    id ∈ s'.inFlight ↔ id < s'.requests ∧
      (id < s.requests → id ∈ s.inFlight ∧ ∀ now input, event ≠ .request id now input) := by
  have hself : id ∈ s.inFlight → id < s.requests := hlt id
  cases h with
  | comes _ hinFlight hrequests =>
    rw [hinFlight, hrequests, List.mem_cons]
    simp only [ne_eq, reduceCtorEq, not_false_eq_true, implies_true, and_true]
    constructor
    · rintro (rfl | hmem)
      · exact ⟨Nat.lt_succ_self _, fun h => absurd h (Nat.lt_irrefl _)⟩
      · exact ⟨Nat.lt_succ_of_lt (hself hmem), fun _ => hmem⟩
    · rintro ⟨hid, hmem⟩
      rcases Nat.lt_succ_iff_lt_or_eq.1 hid with hid | rfl
      · exact .inr (hmem hid)
      · exact .inl rfl
  | @served other now input _ hinFlight hrequests =>
    rw [hinFlight, hrequests, List.mem_filter, bne_iff_ne]
    constructor
    · rintro ⟨hmem, hne⟩
      exact ⟨hself hmem, fun _ => ⟨hmem, fun _ _ h => hne (by cases h; rfl)⟩⟩
    · rintro ⟨hid, hmem⟩
      exact ⟨(hmem hid).1, fun heq => (hmem hid).2 now input (heq ▸ rfl)⟩
  | stays hevent hinFlight hrequests =>
    have hother : ∀ now input, event ≠ .request id now input := by
      rintro now input rfl
      exact nomatch hevent
    rw [hinFlight, hrequests]
    exact ⟨fun hmem => ⟨hself hmem, fun _ => ⟨hmem, hother⟩⟩, fun h => (h.2 h.1).1⟩

/-- A move never takes a request back. -/
theorem Moves.requests_le (h : s.Moves event s') : s.requests ≤ s'.requests := by
  cases h with
  | comes _ _ hrequests =>
    rw [hrequests]
    exact Nat.le_succ _
  | served _ hrequests | stays _ _ hrequests => exact hrequests.ge

/-- The number of requests never falls. -/
theorem requests_le_after (s : Service) (events : List ServiceEvent) :
    s.requests ≤ (s.after events).requests := by
  induction events generalizing s with
  | nil => exact Nat.le_refl _
  | cons event rest ih => exact (s.moves_step event).requests_le.trans (ih _)

/-- Every connection in flight was taken in under a number that has been counted. -/
theorem lt_requests_after (native http : Bool) (events : List ServiceEvent) :
    let s := (start native http).after events
    ∀ id ∈ s.inFlight, id < s.requests := by
  induction events using List.reverseRecOn with
  | nil => exact nofun
  | append_singleton events event ih =>
    intro s id hmem
    simp only [s, after_append] at hmem ⊢
    exact ((((start native http).after events).moves_step event).mem_inFlight_iff ih).1 hmem |>.1

/-- Whether a connection of the gateway has been served. -/
def Serves (s : Service) (events : List ServiceEvent) (id : Nat) : Prop :=
  ∃ earlier now input later, events = earlier ++ .request id now input :: later ∧
    id ∈ (s.after earlier).inFlight

/-- One event more serves a connection if it is a request on one in flight. -/
theorem serves_append_iff : s.Serves (events ++ [event]) id ↔
    s.Serves events id ∨
      id ∈ (s.after events).inFlight ∧ ∃ now input, event = .request id now input := by
  constructor
  · rintro ⟨earlier, now, input, later, hevents, hmem⟩
    rcases append_singleton_eq_append_cons hevents with ⟨rfl, hevent, rfl⟩ | ⟨front, rfl, hbefore⟩
    · exact .inr ⟨hmem, now, input, hevent.symm⟩
    · exact .inl ⟨earlier, now, input, front, hbefore, hmem⟩
  · rintro (⟨earlier, now, input, later, rfl, hmem⟩ | ⟨hmem, now, input, rfl⟩)
    · exact ⟨earlier, now, input, later ++ [event], by simp, hmem⟩
    · exact ⟨events, now, input, [], rfl, hmem⟩

/-- The connections of the gateway are numbered in the order in which they come. Each of them is in
flight until it is served, so none is lost and none is served twice. -/
theorem mem_inFlight_after_iff (native http : Bool) :
    let s := start native http
    id ∈ (s.after events).inFlight ↔ id < (s.after events).requests ∧ ¬ s.Serves events id := by
  intro s
  induction events using List.reverseRecOn generalizing id with
  | nil =>
    have hserves : ¬ s.Serves [] id := by
      rintro ⟨earlier, now, input, later, h, -⟩
      exact absurd h (by simp)
    exact iff_of_false nofun fun h => Nat.not_lt_zero id h.1
  | append_singleton events event ih =>
    -- only connections that have come are served, and they have their numbers
    have hserved : s.Serves events id → id < (s.after events).requests := by
      rintro ⟨earlier, now, input, later, rfl, hmem⟩
      rw [after_append]
      exact (lt_requests_after native http earlier id hmem).trans_le (requests_le_after _ _)
    rw [after_append, serves_append_iff]
    refine (((s.after events).moves_step event).mem_inFlight_iff
      (lt_requests_after native http events)).trans (and_congr_right fun _ => ?_)
    rw [ih]
    by_cases hid : id < (s.after events).requests
    · simp only [hid, true_and, forall_const, not_or, not_and, not_exists]
      exact and_congr_right fun hnot => ⟨fun h _ => h, fun h => h hnot⟩
    · simp [hid, mt hserved hid]

end Service

end CacheServer
