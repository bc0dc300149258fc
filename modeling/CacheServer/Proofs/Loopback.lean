import CacheServer.Loopback
import CacheServer.Proofs.Service.Gateway

/-!
# What scenarios are

A scenario is a run of the service in which every request is served within its step, and no accept
loop fails but for a broken socket (`Reached.settled`). So a broken socket is what it reports as the
failure of an interface (`Reached.result_eq_error_iff`).
-/

namespace CacheServer

namespace Service

variable {s : Service} {events : List ServiceEvent}

/-- Unless the gateway accepts a connection, no connection comes to those in flight. -/
theorem inFlight_after_subset
    (h : ∀ event ∈ events, ∀ drawn, event ≠ .accept .http .connection drawn) :
    (s.after events).inFlight ⊆ s.inFlight ∧ (s.after events).requests = s.requests := by
  induction events generalizing s with
  | nil => exact ⟨List.Subset.refl _, rfl⟩
  | cons event rest ih =>
    obtain ⟨hevent, hrest⟩ := List.forall_mem_cons.1 h
    obtain ⟨hsubset, hrequests⟩ := ih (s := (s.step event).2) hrest
    cases s.moves_step event with
    | comes => exact absurd rfl (hevent _)
    | served hinFlight hsame =>
      refine ⟨List.Subset.trans hsubset ?_, hrequests.trans hsame⟩
      rw [hinFlight]
      exact List.filter_subset_self _
    | stays _ hinFlight hsame => exact ⟨hinFlight ▸ hsubset, hrequests.trans hsame⟩

/-- A client that comes to the gateway and is served there leaves nothing in flight. -/
theorem inFlight_after_visit (before between : List ServiceEvent) (drawn : Duration)
    (now : Instant) (input : Http.Input) (h : s.inFlight = [])
    (hbefore : ∀ event ∈ before, ∀ drawn, event ≠ .accept .http .connection drawn)
    (hbetween : ∀ event ∈ between, ∀ drawn, event ≠ .accept .http .connection drawn) :
    (s.after (before ++ .accept .http .connection drawn ::
      (between ++ [.request s.requests now input]))).inFlight = [] := by
  obtain ⟨hempty, hrequests⟩ := inFlight_after_subset hbefore
  rw [h] at hempty
  have hcame : ((s.after before).step (.accept .http .connection drawn)).2.inFlight ⊆
      [s.requests] := by
    cases (s.after before).moves_step (.accept .http .connection drawn) with
    | comes _ hinFlight =>
      rw [hinFlight, hrequests, List.subset_nil.1 hempty]
      exact List.Subset.refl _
    | stays _ hinFlight =>
      rw [hinFlight]
      exact List.Subset.trans hempty (List.nil_subset _)
  have hthere := List.Subset.trans (inFlight_after_subset hbetween).1 hcame
  rw [after_append]
  show (((s.after before).step (.accept .http .connection drawn)).2.after (between ++ _)).inFlight =
    []
  rw [after_append]
  -- whatever has happened meanwhile, nobody but this client can be in flight
  generalize (((s.after before).step (.accept .http .connection drawn)).2.after between) = t
    at hthere
  cases t.moves_step (.request s.requests now input) with
  | served hinFlight =>
    refine hinFlight.trans (List.filter_eq_nil_iff.2 fun id hid => ?_)
    simpa using hthere hid
  | stays hevent => exact nomatch hevent

end Service

namespace Loopback

open Native (AcceptError)

variable {s s' : Loopback} {side : Side} {e : AcceptError} {drawn : Duration} {reading : Reading}
  {step : LoopbackStep} {answer : LoopbackAnswer} {reachable : Bool}

/-- What a scenario can come to. -/
inductive Reached : Loopback → Prop
  | initial : Reached initial
  | step {s s' : Loopback} {reachable : Bool} {reading : Reading} {step : LoopbackStep}
      {answer : LoopbackAnswer} :
      Reached s → s.step reachable reading step = .ok (s', answer) → Reached s'

/-- A step is the events that it is translated into. -/
theorem service_of_step (h : s.step reachable reading step = .ok (s', answer)) :
    s'.service = s.service.after (s.events reading step) := by
  have hperform : s.perform reading step = (s', answer) := by
    unfold Loopback.step at h
    split at h
    · next side _ =>
      cases hreach : s.reach reachable side with
      | error refusal => rw [hreach] at h; exact nomatch h
      | ok => rw [hreach] at h; exact Except.ok.inj h
    · exact Except.ok.inj h
  exact congrArg (·.1.service) hperform.symm

/-- An accept of a scenario fails for want of descriptors, or because its socket is broken. -/
theorem eq_of_mem_events (h : .accept side (.failed e) drawn ∈ s.events reading step) :
    e = noDescriptors ∨ e = brokenSocket := by
  cases step with
  | starve other data =>
    cases other <;> simp_all [events, failing, visiting, entering, arriving]
  | starveAndStop other =>
    cases other <;> simp_all [events, failing, stopping]
  | intrude other => cases other <;> simp_all [events, entering]
  | _ => simp_all [events, failing, stopping, entering, arriving]

/-- If an accept loop fails in the course of a scenario, then its socket is broken. -/
theorem eq_brokenSocket_of_loop {service : Service} {events : List ServiceEvent}
    (hevents : ∀ side e drawn, .accept side (.failed e) drawn ∈ events →
      e = noDescriptors ∨ e = brokenSocket)
    (h : ∀ side e, service.loop side = .ended (.error e) → e = brokenSocket) (side : Side)
    (e : AcceptError) (hended : (service.after events).loop side = .ended (.error e)) :
    e = brokenSocket := by
  induction events generalizing service with
  | nil => exact h side e hended
  | cons event rest ih =>
    refine ih (fun side e drawn hmem => hevents side e drawn (List.mem_cons_of_mem _ hmem))
      (fun side e hstep => ?_) hended
    rcases Service.loop_step_eq_error_iff.1 hstep with hold | ⟨-, -, hfatal, drawn, rfl⟩
    · exact h side e hold
    · rcases hevents side e drawn List.mem_cons_self with rfl | rfl
      · exact absurd hfatal (by decide)
      · rfl

/-- What holds between the steps of a scenario. -/
structure Settled (s : Loopback) : Prop where
  run : ∃ events, s.service = (Service.start true true).after events
  inFlight : s.service.inFlight = []
  broken : ∀ side e, s.service.loop side = .ended (.error e) → e = brokenSocket

/-- Nothing has happened in a scenario at its beginning. -/
theorem settled_initial : Settled initial where
  run := ⟨[], rfl⟩
  inFlight := rfl
  broken side e h := by cases side <;> exact nomatch h

/-- Whoever comes to the gateway in a step is served in it. -/
theorem inFlight_after_events (h : s.service.inFlight = []) (reading : Reading)
    (step : LoopbackStep) : (s.service.after (s.events reading step)).inFlight = [] := by
  have hnone {events : List ServiceEvent}
      (hevents : ∀ event ∈ events, ∀ drawn, event ≠ .accept .http .connection drawn) :
      (s.service.after events).inFlight = [] :=
    List.subset_nil.1 (h ▸ (Service.inFlight_after_subset hevents).1)
  cases step with
  | request => exact Service.inFlight_after_visit [] [] _ _ _ h nofun nofun
  | stopGateway =>
    exact Service.inFlight_after_visit [] (s.stopping .http) _ _ _ h nofun (by simp [stopping])
  | intrude side =>
    cases side with
    | native => exact hnone (by simp [events, entering])
    | http => exact Service.inFlight_after_visit [] [] _ _ _ h nofun nofun
  | starve side data =>
    cases side with
    | native => exact hnone (by simp [events, failing, visiting, entering, arriving])
    | http =>
      exact Service.inFlight_after_visit [failing .http noDescriptors] [] _ _ _ h
        (by simp [failing]) nofun
  | starveAndStop side => exact hnone (by cases side <;> simp [events, failing, stopping])
  | connect | send | finish | leave | close | shutdown | breakSocket =>
    exact hnone (by simp [events, failing, stopping, entering, arriving])

/-- Between its steps a scenario is a run of the service with no request in flight, and if an accept
loop has failed, then its socket is broken. -/
theorem Reached.settled (h : Reached s) : Settled s := by
  induction h with
  | initial => exact settled_initial
  | @step s s' reachable reading step answer _ hstep ih =>
    obtain ⟨⟨events, hrun⟩, hinFlight, hbroken⟩ := ih
    have hservice := service_of_step hstep
    refine ⟨⟨events ++ s.events reading step, ?_⟩, ?_, fun side e hended => ?_⟩
    · rw [hservice, hrun, Service.after_append]
    · rw [hservice]
      exact inFlight_after_events hinFlight reading step
    · rw [hservice] at hended
      exact eq_brokenSocket_of_loop (fun _ _ _ => eq_of_mem_events) hbroken side e hended

/-- What a scenario reports as a failure of an interface is that its socket is broken. -/
theorem Reached.result_eq_error_iff (h : Reached s) (side : Side) :
    s.result side = .error (.io .invalidArgument) ↔
      s.service.loop side = .ended (.error brokenSocket) := by
  obtain ⟨⟨events, hrun⟩, -, hbroken⟩ := h.settled
  have hhealthy : Service.Healthy (s.service.loop side) := by
    rw [hrun]
    exact Service.healthy_after true true events side
  have hresult : s.result side = .error (.io .invalidArgument) ↔
      (s.service.loop side).hasFailed = true := by
    unfold result
    split <;> simp_all only [reduceCtorEq, iff_self]
  rw [hresult, hhealthy.hasFailed_iff]
  constructor
  · rintro ⟨e, he⟩
    rw [he, hbroken side e he]
  · exact fun he => ⟨_, he⟩

end Loopback

end CacheServer
