import CacheServer.Proofs.Native.Accept
import CacheServer.Service

/-!
# The accept loops of the service

What an accept loop does with an outcome is one of a few things (`Accepts`). A loop that is over
does not begin again (`loop_after_of_over`). None of them crashes (`healthy_after`), and a loop ends
with an error exactly if it has met a fatal one (`loop_after_eq_error_iff`), so this is how an
interface fails (`hasFailed_after_iff`). With the same outcomes the native accept loop does what it
does when it runs by itself (`actions_eq_trace`).
-/

namespace CacheServer

open Native (AcceptAction AcceptError AcceptOutcome Retries)

/-! ## What an accept loop does about a failure -/

namespace Native

variable {e : AcceptError} {retry next : Backoff} {drawn length : Duration}

/-- A loop pauses for want of resources, as its back-off says. -/
theorem retry_eq_pause_iff : e.retry retry drawn = .pause length next ↔
    e.classify = .exhausted ∧ retry.next drawn = .ok (length, next) := by
  fun_cases AcceptError.retry e retry drawn with
  | case1 hclass => simp [hclass]
  | case2 hclass cause hnext => simp [hnext]
  | case3 hclass length next hnext => simp [hclass, hnext]
  | case4 hclass => simp [hclass]

/-- A loop gives up when its socket is broken. -/
theorem retry_eq_giveUp_iff : e.retry retry drawn = .giveUp ↔ e.classify = .fatal := by
  fun_cases AcceptError.retry e retry drawn with
  | case1 hclass | case2 hclass | case3 hclass | case4 hclass => simp [hclass]

/-- The pauses of an accept loop are in range. -/
theorem retry_ne_overflow {k : Nat} (h : Retries k retry) (cause : Overflow) :
    e.retry retry drawn ≠ .overflow cause := by
  obtain ⟨length, next, hnext, -⟩ := h.exists_next drawn
  fun_cases AcceptError.retry e retry drawn with
  | case2 _ cause hfail => exact nomatch hfail.symm.trans hnext
  | case1 | case3 | case4 => exact AcceptRetry.noConfusion

end Native

namespace Service

variable {s s' : Service} {event : ServiceEvent} {events : List ServiceEvent}
  {side other : Side} {outcome : AcceptOutcome} {action : Option AcceptAction} {drawn : Duration}
  {e : AcceptError}

/-- Events in a row can be cut anywhere. -/
theorem after_append (s : Service) (events more : List ServiceEvent) :
    s.after (events ++ more) = (s.after events).after more :=
  List.foldl_append

/-! ## Accept loops -/

/-- The state of an accept loop is apart from the native server. -/
@[simp] theorem server_setLoop (s : Service) (side : Side) (state : AcceptState) :
    (s.setLoop side state).server = s.server := by
  cases side <;> rfl

/-- The state of an accept loop is apart from the gateway's connections. -/
@[simp] theorem inFlight_setLoop (s : Service) (side : Side) (state : AcceptState) :
    (s.setLoop side state).inFlight = s.inFlight := by
  cases side <;> rfl

/-- The state of an accept loop is apart from the number of requests. -/
@[simp] theorem requests_setLoop (s : Service) (side : Side) (state : AcceptState) :
    (s.setLoop side state).requests = s.requests := by
  cases side <;> rfl

/-- The state that is set is the state that is found. -/
@[simp] theorem loop_setLoop (s : Service) (side : Side) (state : AcceptState) :
    (s.setLoop side state).loop side = state := by
  cases side <;> rfl

/-- Setting the state of one accept loop leaves the other alone. -/
theorem loop_setLoop_of_ne (s : Service) (h : other ≠ side) (state : AcceptState) :
    (s.setLoop side state).loop other = s.loop other := by
  cases side <;> cases other <;> first | rfl | exact absurd rfl h

/-- To take a connection in leaves the accept loops alone. -/
@[simp] theorem loop_takeIn (s : Service) (side other : Side) :
    (s.takeIn side).2.loop other = s.loop other := by
  cases side <;> cases other <;> rfl

/-- The ways in which an accept can go, with what the loop does and the service after it. -/
inductive Accepts (s : Service) (side : Side) (drawn : Duration) :
    AcceptOutcome → Option AcceptAction → Service → Prop
  | idle {outcome : AcceptOutcome} :
      (s.loop side).isAccepting = false → Accepts s side drawn outcome none s
  | admitted {retry : Backoff} : s.loop side = .accepting retry →
      Accepts s side drawn .connection (some ((s.takeIn side).1.elim .letGo .handOver))
        ((s.takeIn side).2.setLoop side (.accepting retry.reset))
  | excused {retry : Backoff} {e : AcceptError} : s.loop side = .accepting retry →
      s.excuses side = true →
      Accepts s side drawn (.failed e) none (s.setLoop side (.ended (.ok ())))
  | skipped {retry : Backoff} {e : AcceptError} : s.loop side = .accepting retry →
      s.excuses side = false → e.retry retry drawn = .goOn →
      Accepts s side drawn (.failed e) (some (.skip e)) s
  | paused {retry next : Backoff} {e : AcceptError} {length : Duration} :
      s.loop side = .accepting retry → s.excuses side = false →
      e.retry retry drawn = .pause length next →
      Accepts s side drawn (.failed e) (some (.pause e length)) (s.setLoop side (.accepting next))
  | gaveUp {retry : Backoff} {e : AcceptError} : s.loop side = .accepting retry →
      s.excuses side = false → e.retry retry drawn = .giveUp →
      Accepts s side drawn (.failed e) (some (.giveUp e)) (s.setLoop side (.ended (.error e)))
  | crashed {retry : Backoff} {e : AcceptError} {cause : Overflow} :
      s.loop side = .accepting retry → s.excuses side = false →
      e.retry retry drawn = .overflow cause →
      Accepts s side drawn (.failed e) none (s.setLoop side (.crashed cause))

/-- What an accept loop does with an outcome is one of the cases of `Accepts`. -/
theorem accepts_accept (s : Service) (side : Side) (outcome : AcceptOutcome) (drawn : Duration) :
    s.Accepts side drawn outcome (s.accept side outcome drawn).1
      (s.accept side outcome drawn).2 := by
  fun_cases accept s side outcome drawn with
  | case1 _ _ hloop | case2 _ _ hloop => exact .idle (by rw [hloop]; rfl)
  | case3 retry hloop id admitted htaken =>
    have haccepts : s.Accepts side drawn .connection _ _ := .admitted hloop
    rw [htaken] at haccepts
    exact haccepts
  | case4 retry hloop e hexcused => exact .excused hloop hexcused
  | case5 retry hloop e hexcused hretry =>
    exact .skipped hloop (Bool.eq_false_iff.2 hexcused) hretry
  | case6 retry hloop e hexcused length next hretry =>
    exact .paused hloop (Bool.eq_false_iff.2 hexcused) hretry
  | case7 retry hloop e hexcused hretry =>
    exact .gaveUp hloop (Bool.eq_false_iff.2 hexcused) hretry
  | case8 retry hloop e hexcused cause hretry =>
    exact .crashed hloop (Bool.eq_false_iff.2 hexcused) hretry

/-- What one accept loop does is nothing to the other one. -/
theorem Accepts.loop_of_ne (h : s.Accepts side drawn outcome action s') (hne : other ≠ side) :
    s'.loop other = s.loop other := by
  cases h with
  | admitted => rw [loop_setLoop_of_ne _ hne, loop_takeIn]
  | excused | paused | gaveUp | crashed => exact loop_setLoop_of_ne s hne _
  | idle | skipped => rfl

/-- Only outcomes and a look at the token change an accept loop. -/
theorem loop_step_of_ne (haccept : ∀ outcome drawn, event ≠ .accept side outcome drawn)
    (hnotice : event ≠ .notice side) : (s.step event).2.loop side = s.loop side := by
  cases event with
  | accept other outcome drawn =>
    have hne : side ≠ other := fun h => haccept outcome drawn (h ▸ rfl)
    exact (s.accepts_accept other outcome drawn).loop_of_ne hne
  | notice other =>
    have hne : side ≠ other := fun h => hnotice (h ▸ rfl)
    show (s.notice other).loop side = _
    fun_cases notice s other with
    | case1 => exact loop_setLoop_of_ne s hne _
    | case2 | case3 | case4 => rfl
  | arrive id limit reading data =>
    show (s.arrive id limit reading data).2.loop side = _
    fun_cases arrive s id limit reading data <;> cases side <;> rfl
  | request id now input =>
    show (s.request id now input).2.loop side = _
    fun_cases request s id now input <;> cases side <;> rfl
  | hangUp | sweep | close | beginShutdown | stopGateway => cases side <;> rfl

/-- An accept loop that is over does not begin again. -/
theorem loop_step_of_over (h : (s.loop side).isAccepting = false) :
    (s.step event).2.loop side = s.loop side := by
  by_cases haccept : ∃ outcome drawn, event = .accept side outcome drawn
  · obtain ⟨outcome, drawn, rfl⟩ := haccept
    show (s.accept side outcome drawn).2.loop side = _
    cases hloop : s.loop side with
    | accepting => rw [hloop] at h; exact nomatch h
    | ended | crashed => simp only [accept, hloop]
  · push Not at haccept
    by_cases hnotice : event = .notice side
    · subst hnotice
      show (s.notice side).loop side = _
      cases hloop : s.loop side with
      | accepting => rw [hloop] at h; exact nomatch h
      | ended | crashed => simp only [notice, hloop]
    · exact loop_step_of_ne haccept hnotice

/-- An accept loop that is over stays as it is. -/
theorem loop_after_of_over (h : (s.loop side).isAccepting = false) (events : List ServiceEvent) :
    (s.after events).loop side = s.loop side := by
  induction events generalizing s with
  | nil => rfl
  | cons event rest ih =>
    have hstep : (s.step event).2.loop side = s.loop side := loop_step_of_over h
    exact (ih (by rw [hstep]; exact h)).trans hstep

/-- The event that makes an accept loop fail: a fatal error that it meets while it accepts and is
not being stopped. -/
def MeetsFatal (s : Service) (events : List ServiceEvent) (side : Side) (e : AcceptError) : Prop :=
  ∃ earlier drawn later, events = earlier ++ .accept side (.failed e) drawn :: later ∧
    ((s.after earlier).loop side).isAccepting = true ∧ (s.after earlier).excuses side = false ∧
    e.classify = .fatal

/-- One event more is fatal for a loop that still accepts and excuses nothing. -/
theorem meetsFatal_append_iff : s.MeetsFatal (events ++ [event]) side e ↔
    s.MeetsFatal events side e ∨
      ((s.after events).loop side).isAccepting = true ∧ (s.after events).excuses side = false ∧
        e.classify = .fatal ∧ ∃ drawn, event = .accept side (.failed e) drawn := by
  constructor
  · rintro ⟨earlier, drawn, later, hevents, hfatal⟩
    rcases append_singleton_eq_append_cons hevents with ⟨rfl, hevent, rfl⟩ | ⟨front, rfl, hbefore⟩
    · exact .inr ⟨hfatal.1, hfatal.2.1, hfatal.2.2, drawn, hevent.symm⟩
    · exact .inl ⟨earlier, drawn, front, hbefore, hfatal⟩
  · rintro (⟨earlier, drawn, later, rfl, hfatal⟩ | ⟨hloop, hexcuses, hfatal, drawn, rfl⟩)
    · exact ⟨earlier, drawn, later ++ [event], by simp, hfatal⟩
    · exact ⟨events, drawn, [], rfl, hloop, hexcuses, hfatal⟩

/-- An accept loop ends with an error only when it meets a fatal one without an excuse. -/
theorem Accepts.fatal (h : s.Accepts side drawn outcome action s')
    (hloop : (s.loop side).isAccepting = true) (hended : s'.loop side = .ended (.error e)) :
    s.excuses side = false ∧ e.classify = .fatal ∧ outcome = .failed e := by
  cases h with
  | gaveUp _ hexcuses hretry =>
    rw [loop_setLoop] at hended
    cases hended
    exact ⟨hexcuses, Native.retry_eq_giveUp_iff.1 hretry, rfl⟩
  | idle | skipped =>
    rw [hended] at hloop
    exact nomatch hloop
  | admitted | excused | paused | crashed =>
    rw [loop_setLoop] at hended
    exact nomatch hended

/-- An accept loop ends with an error at a fatal error, and at nothing else. -/
theorem loop_step_eq_error_iff : (s.step event).2.loop side = .ended (.error e) ↔
    s.loop side = .ended (.error e) ∨
      (s.loop side).isAccepting = true ∧ s.excuses side = false ∧ e.classify = .fatal ∧
        ∃ drawn, event = .accept side (.failed e) drawn := by
  cases hloop : s.loop side with
  | ended | crashed =>
    rw [loop_step_of_over (by rw [hloop]; rfl), hloop]
    simp [AcceptState.isAccepting]
  | accepting retry =>
    simp only [reduceCtorEq, false_or, AcceptState.isAccepting, true_and]
    constructor
    · intro hended
      by_cases haccept : ∃ outcome drawn, event = .accept side outcome drawn
      · obtain ⟨outcome, drawn, rfl⟩ := haccept
        obtain ⟨hexcuses, hfatal, rfl⟩ :=
          (s.accepts_accept side outcome drawn).fatal (by rw [hloop]; rfl) hended
        exact ⟨hexcuses, hfatal, drawn, rfl⟩
      · push Not at haccept
        by_cases hnotice : event = .notice side
        · subst hnotice
          have hended : (s.notice side).loop side = _ := hended
          simp only [notice, hloop] at hended
          split at hended
          · rw [loop_setLoop] at hended
            exact nomatch hended
          · exact nomatch hloop.symm.trans hended
        · rw [loop_step_of_ne haccept hnotice, hloop] at hended
          exact nomatch hended
    · rintro ⟨hexcuses, hfatal, drawn, rfl⟩
      show (s.accept side (.failed e) drawn).2.loop side = _
      simp only [accept, hloop, hexcuses, Native.retry_eq_giveUp_iff.2 hfatal, Bool.false_eq_true,
        if_false, loop_setLoop]

/-- An accept loop has ended with an error exactly if it has met a fatal one. -/
theorem loop_after_eq_error_iff (native http : Bool) :
    ((start native http).after events).loop side = .ended (.error e) ↔
      (start native http).MeetsFatal events side e := by
  induction events using List.reverseRecOn with
  | nil =>
    have hnot : ¬ (start native http).MeetsFatal [] side e := by
      rintro ⟨earlier, drawn, later, h, -⟩
      exact absurd h (by simp)
    refine iff_of_false (fun hended => ?_) hnot
    cases native <;> cases http <;> cases side <;> exact nomatch hended
  | append_singleton events event ih =>
    rw [after_append, meetsFatal_append_iff, ← ih]
    exact loop_step_eq_error_iff

/-- A loop that has not crashed and, while it accepts, is some pauses behind the last connection. -/
inductive Healthy : AcceptState → Prop
  | accepting {k : Nat} {retry : Backoff} : Retries k retry → Healthy (.accepting retry)
  | ended (result : Except AcceptError Unit) : Healthy (.ended result)

/-- An outcome leaves a healthy loop healthy. -/
theorem Accepts.healthy (h : s.Accepts side drawn outcome action s')
    (hloop : Healthy (s.loop side)) : Healthy (s'.loop side) := by
  cases h with
  | idle | skipped => exact hloop
  | @admitted retry haccepting =>
    rw [haccepting] at hloop
    cases hloop with
    | accepting hretries =>
      rw [loop_setLoop]
      exact .accepting hretries.reset
  | @paused retry next _ _ haccepting _ hretry =>
    rw [haccepting] at hloop
    cases hloop with
    | accepting hretries =>
      rw [loop_setLoop]
      exact .accepting (hretries.next (Native.retry_eq_pause_iff.1 hretry).2).1
  | excused | gaveUp =>
    rw [loop_setLoop]
    exact .ended _
  | crashed haccepting _ hretry =>
    rw [haccepting] at hloop
    cases hloop with
    | accepting hretries => exact absurd hretry (Native.retry_ne_overflow hretries _)

/-- A step leaves a healthy loop healthy. -/
theorem healthy_step (h : Healthy (s.loop side)) (event : ServiceEvent) :
    Healthy ((s.step event).2.loop side) := by
  by_cases haccept : ∃ outcome drawn, event = .accept side outcome drawn
  · obtain ⟨outcome, drawn, rfl⟩ := haccept
    exact (s.accepts_accept side outcome drawn).healthy h
  · push Not at haccept
    by_cases hnotice : event = .notice side
    · subst hnotice
      show Healthy ((s.notice side).loop side)
      fun_cases notice s side with
      | case1 =>
        rw [loop_setLoop]
        exact .ended _
      | case2 | case3 | case4 => exact h
    · rw [loop_step_of_ne haccept hnotice]
      exact h

/-- No accept loop crashes. -/
theorem healthy_after (native http : Bool) (events : List ServiceEvent) (side : Side) :
    Healthy (((start native http).after events).loop side) := by
  induction events using List.reverseRecOn with
  | nil =>
    have hstart : ∀ active, Healthy (.start active) := fun active =>
      match active with
      | true => .accepting (Backoff.grown_start _ _)
      | false => .ended _
    cases side
    · exact hstart native
    · exact hstart http
  | append_singleton events event ih =>
    rw [after_append]
    exact healthy_step ih event

/-- A healthy loop has failed exactly if it has ended with an error. -/
theorem Healthy.hasFailed_iff {state : AcceptState} (h : Healthy state) :
    state.hasFailed = true ↔ ∃ e, state = .ended (.error e) := by
  cases h with
  | accepting => simp [AcceptState.hasFailed]
  | ended result => cases result <;> simp [AcceptState.hasFailed]

/-- An interface has failed exactly if an accept loop has met a fatal error. -/
theorem hasFailed_after_iff (native http : Bool) :
    ((start native http).after events).hasFailed = true ↔
      ∃ side e, (start native http).MeetsFatal events side e := by
  have hside (side : Side) : (((start native http).after events).loop side).hasFailed = true ↔
      ∃ e, (start native http).MeetsFatal events side e := by
    simp only [(healthy_after native http events side).hasFailed_iff, loop_after_eq_error_iff]
  rw [hasFailed, Bool.or_eq_true]
  constructor
  · rintro (hfailed | hfailed)
    · exact ⟨.native, (hside .native).1 hfailed⟩
    · exact ⟨.http, (hside .http).1 hfailed⟩
  · rintro ⟨side, hfatal⟩
    cases side with
    | native => exact .inl ((hside .native).2 hfatal)
    | http => exact .inr ((hside .http).2 hfatal)

/-! ### The native accept loop -/

/-- The number of pauses behind an action, before which there were `paused`. -/
def pausedAfter (paused : Nat) : AcceptAction → Nat
  | .pause .. => paused + 1
  | .handOver _ | .letGo | .skip _ | .giveUp _ => paused

/-- Neither handing a connection over nor letting it go is a pause. -/
theorem pausedAfter_elim (paused : Nat) (id : Option Nat) :
    pausedAfter paused (id.elim .letGo .handOver) = paused := by
  cases id <;> rfl

/-- What the native accept loop does with outcomes, one after the other. `drawn` gives the jitter of
each pause, and `paused` is the number of pauses so far. -/
def actions (drawn : Nat → Duration) (paused : Nat) (s : Service) :
    List AcceptOutcome → List AcceptAction
  | [] => []
  | outcome :: rest =>
    let (action, s) := s.accept .native outcome (drawn paused)
    action.toList ++ actions drawn (action.elim paused (pausedAfter paused)) s rest

variable {jitter : Nat → Duration} {paused : Nat}

/-- A loop that is over does nothing. -/
theorem actions_of_over (h : s.native.isAccepting = false) (outcomes : List AcceptOutcome) :
    s.actions jitter paused outcomes = [] := by
  induction outcomes with
  | nil => rfl
  | cons outcome rest ih =>
    have haccept : s.accept .native outcome (jitter paused) = (none, s) := by
      cases hloop : s.native with
      | accepting => rw [hloop] at h; exact nomatch h
      | ended | crashed => simp only [accept, loop, hloop]
    simp only [actions, haccept, Option.toList_none, Option.elim_none, List.nil_append, ih]

/-- In service, the native accept loop does with outcomes what it does when it runs by itself and is
not closed. -/
theorem actions_eq_trace {retry : Backoff} (h : s.native = .accepting retry) (now : Nat)
    (outcomes : List (Nat × AcceptOutcome)) :
    s.actions jitter paused (outcomes.map (·.2)) =
      (Native.acceptFrom none jitter s.server.registry retry now paused outcomes).trace.map
        (·.2) := by
  -- both loops go on with the same back-off, and the service with the registry of the loop
  induction outcomes generalizing s retry now paused with
  | nil => rfl
  | cons first rest ih =>
    obtain ⟨wait, outcome⟩ := first
    have hopen : Native.closedBy none (now + wait) = false := rfl
    cases outcome with
    | connection =>
      simp only [List.map_cons, actions, accept, loop, h, Native.acceptFrom, hopen,
        Option.elim_some, pausedAfter_elim]
      exact congrArg (List.cons _)
        (ih (s := (s.takeIn .native).2.setLoop .native (.accepting retry.reset)) rfl _)
    | failed e =>
      simp only [List.map_cons, actions, accept, loop, h, Native.acceptFrom, hopen, excuses,
        Bool.false_eq_true]
      have hover (state : AcceptState) (hstate : state.isAccepting = false) :
          (s.setLoop .native state).actions jitter paused (rest.map (·.2)) = [] :=
        actions_of_over hstate _
      by_cases hshut : s.server.registry.shuttingDown = true
      · simp only [hshut, if_true]
        exact hover _ rfl
      · simp only [hshut, if_false]
        cases e.retry retry (jitter paused) with
        | goOn => exact congrArg (List.cons _) (ih h _)
        | pause length next =>
          exact congrArg (List.cons _) (ih (s := s.setLoop .native (.accepting next)) rfl _)
        | giveUp => exact congrArg (List.cons _) (hover _ rfl)
        | overflow cause => exact hover _ rfl

end Service

end CacheServer
