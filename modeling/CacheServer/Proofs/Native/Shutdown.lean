import CacheServer.Native.Shutdown
import CacheServer.Proofs.Backoff
import CacheServer.Proofs.Native.Registry

/-!
# How a graceful shutdown goes

What a wait for connections comes to depends on the times of its polls (`pollTime`) and on how many
connections there are then; `Outcome` says how. The back-off keeps two polls apart by its first
pause at least and, with exact timers, by its longest one at most: the wait gets past any time, and
it is over one longest pause behind the end of the last connection.

The shutdown begins before the wait, and from then on the registry only changes when connections
end. So each poll finds the listeners cancelled and the connections that are left (`Found`). The
count that an interrupted shutdown reports is what the last poll has found: it is never too small,
but it may be too large, since connections can end between that poll and the deadline.
-/

namespace CacheServer.Native

/-! ## The times of the polls -/

section
variable {timer : Nat → Nat} {drawn : Nat → Duration} {b : Backoff} {round now k : Nat}

/-- The time of a poll, by its number, from the poll at the time `now` on. -/
def pollTime (timer : Nat → Nat) (drawn : Nat → Duration) : (round now : Nat) → Backoff → Nat → Nat
  | _, now, _, 0 => now
  | round, now, backoff, k + 1 =>
    match backoff.next (drawn round) with
    | .error _ => now
    | .ok (pause, backoff) =>
      pollTime timer drawn (round + 1) (timer (now + pause.nanos)) backoff k

/-- Behind the first pause the polls come as if they began there. -/
theorem pollTime_of_next {pause : Duration} {b' : Backoff}
    (h : b.next (drawn round) = .ok (pause, b')) (k : Nat) :
    pollTime timer drawn round now b (k + 1) =
      pollTime timer drawn (round + 1) (timer (now + pause.nanos)) b' k := by
  rw [pollTime, h]

/-- Between two polls there is a pause. -/
theorem exists_pollTime_succ (h : b.Ready) (timer : Nat → Nat) (drawn : Nat → Duration)
    (round now k : Nat) : ∃ pause, b.initial.nanos ≤ pause ∧ pause ≤ b.longest ∧
      pollTime timer drawn round now b (k + 1) =
        timer (pollTime timer drawn round now b k + pause) := by
  induction k generalizing round now b with
  | zero =>
    obtain ⟨pause, base, hnext, hleast, hmost, -⟩ := h.exists_next (drawn round)
    exact ⟨pause.nanos, hleast, hmost, pollTime_of_next hnext 0⟩
  | succ k ih =>
    obtain ⟨pause, base, hnext, -, -, hready⟩ := h.exists_next (drawn round)
    rw [pollTime_of_next hnext, pollTime_of_next hnext]
    exact ih hready (round + 1) (timer (now + pause.nanos))

/-- A timer that does not go off before the time it was set for. -/
def NeverEarly (timer : Nat → Nat) : Prop := ∀ time, time ≤ timer time

/-- An exact timer is never early. -/
theorem neverEarly_exactly : NeverEarly exactly := fun _ => Nat.le_refl _

/-- A timer with ticks is never early. -/
theorem neverEarly_inTicks {tick : Nat} (h : 0 < tick) : NeverEarly (inTicks tick) := by
  intro time
  have hmod : (time + tick - 1) % tick < tick := Nat.mod_lt _ h
  have hdiv := Nat.div_add_mod (time + tick - 1) tick
  rw [inTicks, Nat.mul_comm]
  omega

/-- No two polls are closer than the first pause. -/
theorem pollTime_add_le (h : b.Ready) (htimer : NeverEarly timer) (k : Nat) :
    pollTime timer drawn round now b k + b.initial.nanos ≤
      pollTime timer drawn round now b (k + 1) := by
  obtain ⟨pause, hleast, -, heq⟩ := exists_pollTime_succ h timer drawn round now k
  rw [heq]
  exact Nat.le_trans (Nat.add_le_add_left hleast _) (htimer _)

/-- With exact timers no two polls are further apart than the longest pause. -/
theorem pollTime_le_add (h : b.Ready) (k : Nat) : pollTime exactly drawn round now b (k + 1) ≤
    pollTime exactly drawn round now b k + b.longest := by
  obtain ⟨pause, -, hmost, heq⟩ := exists_pollTime_succ h exactly drawn round now k
  rw [heq]
  exact Nat.add_le_add_left hmost _

/-- Polls come no sooner than if all pauses were the first one. -/
theorem add_mul_le_pollTime (h : b.Ready) (htimer : NeverEarly timer) (k : Nat) :
    now + k * b.initial.nanos ≤ pollTime timer drawn round now b k := by
  induction k with
  | zero => simp [pollTime]
  | succ k ih =>
    calc now + (k + 1) * b.initial.nanos
        = now + k * b.initial.nanos + b.initial.nanos := by rw [Nat.succ_mul, Nat.add_assoc]
      _ ≤ pollTime timer drawn round now b k + b.initial.nanos := Nat.add_le_add_right ih _
      _ ≤ pollTime timer drawn round now b (k + 1) := pollTime_add_le h htimer k

end

/-! ## How a wait ends -/

/-- How a wait for connections ends. -/
inductive Waited
  /-- A poll at the time `time` has found no connection. -/
  | drained (time : Nat)
  /-- The deadline came; the poll before it has found connections. -/
  | interrupted (time remaining : Nat)

/-- What a wait reports. -/
def Waited.result : Waited → Except Failure Unit
  | drained _ => .ok ()
  | interrupted _ remaining => .error (.shutdownInterrupted remaining)

/-- When a wait ends. -/
def Waited.time : Waited → Nat
  | drained time => time
  | interrupted time _ => time

section
variable {count : Nat → Nat} {deadline : Option Nat} {time : Nat → Nat} {polls k : Nat}
  {waited : Option Waited}

/-- A poll that has found connections, and behind which the deadline does not come before the
next one. -/
def Passes (count : Nat → Nat) (deadline : Option Nat) (time : Nat → Nat) (k : Nat) : Prop :=
  count (time k) ≠ 0 ∧ ∀ d ∈ deadline, time (k + 1) < d

/-- The ways in which a wait of so many polls can end that are made at `time 0`, `time 1`, …. -/
inductive Outcome (count : Nat → Nat) (deadline : Option Nat) (time : Nat → Nat) (polls : Nat) :
    Option Waited → Prop
  | drained (k : Nat) : (∀ j < k, Passes count deadline time j) → count (time k) = 0 →
      Outcome count deadline time polls (some (.drained (time k)))
  | interrupted (k d : Nat) : (∀ j < k, Passes count deadline time j) → count (time k) ≠ 0 →
      d ∈ deadline → d ≤ time (k + 1) →
      Outcome count deadline time polls (some (.interrupted (max d (time k)) (count (time k))))
  | undecided : (∀ j < polls, Passes count deadline time j) →
      Outcome count deadline time polls none

/-- If the first poll and all others pass, then all polls do. -/
theorem Passes.cons (h : Passes count deadline time 0)
    (hrest : ∀ j < k, Passes count deadline (fun j => time (j + 1)) j) :
    ∀ j < k + 1, Passes count deadline time j
  | 0, _ => h
  | j + 1, hj => hrest j (Nat.lt_of_succ_lt_succ hj)

/-- A poll that passes leaves the outcome to the polls behind it. -/
theorem Outcome.cons (h : Passes count deadline time 0)
    (hrest : Outcome count deadline (fun k => time (k + 1)) polls waited) :
    Outcome count deadline time (polls + 1) waited := by
  cases hrest with
  | drained k hbefore hcount => exact .drained (k + 1) (h.cons hbefore) hcount
  | interrupted k d hbefore hcount hd hle =>
    exact .interrupted (k + 1) d (h.cons hbefore) hcount hd hle
  | undecided hall => exact .undecided (h.cons hall)

/-- With a deadline that is over, the first poll decides. -/
theorem Outcome.eq_of_over {d : Nat} (h : Outcome count deadline time polls waited)
    (hpolls : 0 < polls) (hd : d ∈ deadline) (hover : d ≤ time 0) (hmono : time 0 ≤ time 1) :
    waited = some (if count (time 0) = 0 then .drained (time 0)
      else .interrupted (time 0) (count (time 0))) := by
  have hstop : ¬ Passes count deadline time 0 := fun hpasses =>
    Nat.not_lt.2 (Nat.le_trans hover hmono) (hpasses.2 d hd)
  have hfirst {k : Nat} (hbefore : ∀ j < k, Passes count deadline time j) : k = 0 :=
    Nat.eq_zero_of_not_pos fun hk => hstop (hbefore 0 hk)
  cases h with
  | drained k hbefore hcount =>
    obtain rfl := hfirst hbefore
    rw [if_pos hcount]
  | interrupted k d' hbefore hcount hd' =>
    obtain rfl := hfirst hbefore
    cases Option.mem_unique hd hd'
    rw [if_neg hcount, Nat.max_eq_right hover]
  | undecided hall => exact absurd (hall 0 hpolls) hstop

/-- A wait whose connections have all ended by a time ends one pause behind it, if the deadline
leaves it that long. -/
theorem Outcome.drained_of_ended {last longest : Nat} {w : Waited}
    (h : Outcome count deadline time polls (some w)) (hstep : ∀ k, time (k + 1) ≤ time k + longest)
    (hended : ∀ t, last ≤ t → count t = 0) (hdeadline : ∀ d ∈ deadline, last + longest ≤ d) :
    ∃ t, w = .drained t ∧ t ≤ max (time 0) (last + longest) := by
  have hnext {k : Nat} (hcount : count (time k) ≠ 0) : time (k + 1) < last + longest :=
    Nat.lt_of_le_of_lt (hstep k) (Nat.add_lt_add_right (Nat.not_le.1 (mt (hended _) hcount)) _)
  cases h with
  | drained k hbefore =>
    refine ⟨time k, rfl, ?_⟩
    cases k with
    | zero => exact Nat.le_max_left _ _
    | succ k =>
      have hlt := hnext (hbefore k (Nat.lt_succ_self k)).1
      exact Nat.le_trans (Nat.le_of_lt hlt) (Nat.le_max_right _ _)
  | interrupted k d hbefore hcount hd hle =>
    exact absurd (Nat.le_trans (hdeadline d hd) hle) (Nat.not_le.2 (hnext hcount))

end

/-! ## What a shutdown finds -/

/-- The largest of some numbers is above each of them. -/
theorem le_foldl_max {start x : Nat} {list : List Nat} (h : x ≤ start ∨ x ∈ list) :
    x ≤ list.foldl max start := by
  induction list generalizing start with
  | nil => exact h.resolve_right List.not_mem_nil
  | cons y rest ih =>
    refine ih ?_
    rcases h with hstart | hmem
    · exact .inl (Nat.le_trans hstart (Nat.le_max_left _ _))
    · rcases List.mem_cons.1 hmem with rfl | hrest
      · exact .inl (Nat.le_max_right _ _)
      · exact .inr hrest

namespace ServerRun

/-- The registered connections that have not ended by a time. -/
def openAt (run : ServerRun) (time : Nat) : List Nat :=
  run.registry.connections.filter fun id => !run.endedBy time id

/-- The number of registered connections at a time. -/
def countAt (run : ServerRun) (time : Nat) : Nat := (run.openAt time).length

/-- Whether a shutdown without a deadline would wait for ever. -/
def Endless (run : ServerRun) : Prop :=
  ∃ id ∈ run.registry.connections, ∀ time, run.endedBy time id = false

/-- The times of the polls of a shutdown. -/
def pollAt (run : ServerRun) (timer : Nat → Nat) (drawn : Nat → Duration) : Nat → Nat :=
  pollTime timer drawn 0 run.now .shutdownPoll

variable {run s : ServerRun} {timer : Nat → Nat} {deadline : Option Nat} {drawn : Nat → Duration}
  {id time later : Nat}

/-! ### The connections -/

/-- A connection has ended by a time if one of its ends is not later. -/
theorem endedBy_iff : run.endedBy time id = true ↔ ∃ t ≤ time, (id, t) ∈ run.endings := by
  simp only [endedBy, List.any_eq_true, Bool.and_eq_true, beq_iff_eq, decide_eq_true_eq]
  constructor
  · rintro ⟨⟨_, t⟩, hmem, rfl, hle⟩
    exact ⟨t, hle, hmem⟩
  · rintro ⟨t, hle, hmem⟩
    exact ⟨(id, t), hmem, rfl, hle⟩

/-- What has ended remains so. -/
theorem endedBy_mono (h : run.endedBy time id = true) (hle : time ≤ later) :
    run.endedBy later id = true := by
  obtain ⟨t, ht, hmem⟩ := endedBy_iff.1 h
  exact endedBy_iff.2 ⟨t, Nat.le_trans ht hle, hmem⟩

/-- Open at a time is a connection that was registered and has not ended. -/
theorem mem_openAt_iff : id ∈ run.openAt time ↔
    id ∈ run.registry.connections ∧ run.endedBy time id = false := by
  simp [openAt]

/-- Connections that are open later are open before. -/
theorem openAt_sublist (hle : time ≤ later) : (run.openAt later).Sublist (run.openAt time) :=
  List.monotone_filter_right _ fun id hopen => by
    rw [Bool.not_eq_true'] at hopen ⊢
    exact Bool.eq_false_iff.2 fun hended => nomatch hopen.symm.trans (endedBy_mono hended hle)

/-- What is open later is what is open before and does not end in between. -/
theorem filter_openAt (hle : time ≤ later) :
    (run.openAt time).filter (fun id => !run.endedBy later id) = run.openAt later := by
  rw [openAt, List.filter_filter]
  refine List.filter_congr fun id _ => ?_
  cases hlater : run.endedBy later id with
  | true => rfl
  | false =>
    have hearlier : run.endedBy time id = false :=
      Bool.eq_false_iff.2 fun hended => nomatch hlater.symm.trans (endedBy_mono hended hle)
    rw [hearlier]
    rfl

/-- Nothing is open when all connections have ended. -/
theorem countAt_eq_zero_iff :
    run.countAt time = 0 ↔ ∀ id ∈ run.registry.connections, run.endedBy time id = true := by
  simp [countAt, openAt]

/-- As many connections are open at two times if and only if none has ended between them. -/
theorem countAt_eq_iff (hle : time ≤ later) : run.countAt later = run.countAt time ↔
    ∀ id ∈ run.registry.connections, run.endedBy later id = true → run.endedBy time id = true := by
  constructor
  · intro hlength id hid hlater
    by_contra hopen
    have hmem : id ∈ run.openAt time := mem_openAt_iff.2 ⟨hid, Bool.eq_false_iff.2 hopen⟩
    rw [← (openAt_sublist hle).eq_of_length hlength] at hmem
    exact nomatch hlater.symm.trans (mem_openAt_iff.1 hmem).2
  · intro hnone
    refine congrArg List.length (List.filter_congr fun id hid => congrArg _ ?_)
    exact Bool.eq_iff_iff.2 ⟨hnone id hid, fun h => endedBy_mono h hle⟩

/-- A connection that does not end stays open. -/
theorem countAt_ne_zero_of_endless (h : run.Endless) : run.countAt time ≠ 0 := by
  obtain ⟨id, hid, hnever⟩ := h
  intro hcount
  exact nomatch (hnever time).symm.trans (countAt_eq_zero_iff.1 hcount id hid)

/-- When time goes on, the connections that end leave the registry, their registrations are given
up and the counters change. -/
theorem exists_advanceTo (h : s.registry.connections ⊆ s.registry.held) (time : Nat) :
    ∃ held metrics, (s.advanceTo time).registry =
      { s.registry with connections := s.openAt time, held, metrics } ∧ s.openAt time ⊆ held := by
  obtain ⟨held, metrics, hdrops, hkept⟩ :=
    Registry.exists_foldl_drop h (s.registry.held.filter (s.endedBy time))
  have hleft : s.registry.connections.filter (· ∉ s.registry.held.filter (s.endedBy time)) =
      s.openAt time :=
    List.filter_congr fun id hid => by simp [h hid]
  rw [hleft] at hdrops hkept
  exact ⟨held, metrics, hdrops, hkept⟩

/-- A run in which a shutdown of `run` has begun: the server is shutting down and the listeners are
cancelled; besides, only connections that have ended have left the registry. -/
structure Found (run found : ServerRun) : Prop where
  endings : found.endings = run.endings
  registered : found.registry.connections ⊆ found.registry.held
  registry : ∃ held metrics, found.registry =
    { run.registry.beginShutdown with connections := run.openAt found.now, held, metrics }

/-- A poll finds the connections that are open at its time. -/
theorem Found.connections (h : Found run s) : s.registry.connections = run.openAt s.now := by
  obtain ⟨held, metrics, heq⟩ := h.registry
  rw [heq]

/-- A poll finds as many connections as are open at its time. -/
theorem Found.connectionCount (h : Found run s) : s.registry.connectionCount = run.countAt s.now :=
  congrArg List.length h.connections

/-- The shutdown begins with the flag and the listeners. -/
theorem found_beginShutdown (h : run.registry.Sound) :
    Found run (run.beginShutdown.advanceTo run.now) := by
  obtain ⟨held, metrics, heq, hkept⟩ :=
    exists_advanceTo (s := run.beginShutdown) h.registered run.now
  refine ⟨rfl, ?_, held, metrics, heq⟩
  rw [heq]
  exact hkept

/-- Later the same holds. -/
theorem Found.advanceTo (h : Found run s) (hle : s.now ≤ time) : Found run (s.advanceTo time) := by
  obtain ⟨held, metrics, heq, hkept⟩ := exists_advanceTo h.registered time
  have hopen : s.openAt time = run.openAt time := by
    have hended (id : Nat) : s.endedBy time id = run.endedBy time id := by
      rw [endedBy, h.endings, endedBy]
    rw [openAt, h.connections]
    simp only [hended]
    exact filter_openAt hle
  rw [hopen] at heq hkept
  obtain ⟨_, _, hregistry⟩ := h.registry
  refine ⟨h.endings, ?_, held, metrics, ?_⟩
  · rw [heq]
    exact hkept
  · rw [heq, hregistry]
    rfl

/-! ### The wait -/

section
variable {b b' : Backoff} {pause : Duration} {round : Nat} {wait : Wait} {waited : Option Waited}
  {pollTimes : Nat → Nat}

/-- A poll that finds nothing ends the wait. -/
theorem waitFrom_drained (hcount : s.registry.connectionCount = 0) (polls : Nat) :
    waitFrom timer deadline drawn (polls + 1) round s b = ⟨[s], some (.ok ()), s⟩ := by
  simp only [waitFrom, Registry.poll, if_pos hcount]

/-- A deadline before the next poll ends the wait, with what the last poll has found. -/
theorem waitFrom_interrupted {d : Nat} (hcount : s.registry.connectionCount ≠ 0)
    (hnext : b.next (drawn round) = .ok (pause, b')) (hd : d ≤ timer (s.now + pause.nanos))
    (polls : Nat) : waitFrom timer (some d) drawn (polls + 1) round s b =
      ⟨[s], some (.error (.shutdownInterrupted s.registry.connectionCount)),
        s.advanceTo (max d s.now)⟩ := by
  simp only [waitFrom, Registry.poll, if_neg hcount, hnext, Option.filter, decide_eq_true hd,
    if_true]

/-- A wait goes on with the next poll if this comes before the deadline. -/
theorem waitFrom_passes (hcount : s.registry.connectionCount ≠ 0)
    (hnext : b.next (drawn round) = .ok (pause, b'))
    (hlater : ∀ d ∈ deadline, timer (s.now + pause.nanos) < d) (polls : Nat) :
    waitFrom timer deadline drawn (polls + 1) round s b =
      (waitFrom timer deadline drawn polls (round + 1)
        (s.advanceTo (timer (s.now + pause.nanos))) b').cons s := by
  have hfilter : deadline.filter (· ≤ timer (s.now + pause.nanos)) = none := by
    simpa [Option.filter_eq_none_iff] using hlater
  simp only [waitFrom, Registry.poll, if_neg hcount, hnext, hfilter]

/-- The first poll comes at once. -/
theorem exists_polls_eq_cons (h : b.Ready) (polls : Nat) : ∃ later,
    (waitFrom timer deadline drawn (polls + 1) round s b).polls = s :: later := by
  obtain ⟨pause, base, hnext, -⟩ := h.exists_next (drawn round)
  by_cases hcount : s.registry.connectionCount = 0
  · exact ⟨[], by rw [waitFrom_drained hcount]⟩
  · simp only [waitFrom, Registry.poll, if_neg hcount, hnext]
    split
    · exact ⟨_, rfl⟩
    · exact ⟨_, rfl⟩

/-- How a wait for the connections of a run goes. -/
structure Went (run : ServerRun) (deadline : Option Nat) (pollTimes : Nat → Nat) (polls : Nat)
    (wait : Wait) (waited : Option Waited) : Prop where
  outcome : Outcome run.countAt deadline pollTimes polls waited
  result : wait.result = waited.map Waited.result
  time_eq : ∀ w ∈ waited, wait.ended.now = w.time
  times : wait.polls.map (·.now) = (List.range wait.polls.length).map pollTimes
  found : ∀ found ∈ wait.polls, Found run found
  ended : Found run wait.ended
  /-- An interruption reports what the last poll has found. -/
  last : ∀ failure, wait.result = some (.error failure) → ∃ last,
    wait.polls.getLast? = some last ∧ last.now ≤ wait.ended.now ∧
      0 < last.registry.connectionCount ∧
      failure = .shutdownInterrupted last.registry.connectionCount

/-- A poll that passes goes in front of the rest of the wait. -/
theorem Went.cons {polls : Nat} (hs : Found run s) (hnow : pollTimes 0 = s.now)
    (hpasses : Passes run.countAt deadline pollTimes 0)
    (h : Went run deadline (fun k => pollTimes (k + 1)) polls wait waited) :
    Went run deadline pollTimes (polls + 1) (wait.cons s) waited where
  outcome := h.outcome.cons hpasses
  result := h.result
  time_eq := h.time_eq
  times := by
    show s.now :: wait.polls.map (·.now) = (List.range (wait.polls.length + 1)).map pollTimes
    rw [h.times, List.range_succ_eq_map, List.map_cons, List.map_map, hnow]
    rfl
  found := List.forall_mem_cons.2 ⟨hs, h.found⟩
  ended := h.ended
  last failure hfailure := by
    obtain ⟨last, hlast, hreported⟩ := h.last failure hfailure
    refine ⟨last, ?_, hreported⟩
    show (s :: wait.polls).getLast? = some last
    rw [List.getLast?_cons, hlast]
    rfl

/-- Every wait goes as `Went` says, poll by poll. -/
theorem exists_went (h : b.Ready) (htimer : NeverEarly timer) (hs : Found run s)
    (deadline : Option Nat) (drawn : Nat → Duration) (polls round : Nat) : ∃ waited,
    Went run deadline (pollTime timer drawn round s.now b) polls
      (waitFrom timer deadline drawn polls round s b) waited := by
  -- the run that a poll finds is the one from which the rest of the wait begins
  induction polls generalizing round s b with
  | zero => exact ⟨none, .undecided nofun, rfl, nofun, rfl, nofun, hs, nofun⟩
  | succ polls ih =>
    obtain ⟨pause, base, hnext, -, -, hready⟩ := h.exists_next (drawn round)
    have hnow : s.now ≤ timer (s.now + pause.nanos) :=
      Nat.le_trans (Nat.le_add_right _ _) (htimer _)
    by_cases hcount : s.registry.connectionCount = 0
    · rw [waitFrom_drained hcount]
      exact ⟨some (.drained s.now), .drained 0 nofun (hs.connectionCount ▸ hcount), rfl,
        fun w hw => Option.mem_some.1 hw ▸ rfl, rfl, List.forall_mem_singleton.2 hs, hs, nofun⟩
    · have hopen : run.countAt s.now ≠ 0 := hs.connectionCount ▸ hcount
      by_cases hlater : ∀ d ∈ deadline, timer (s.now + pause.nanos) < d
      · rw [waitFrom_passes hcount hnext hlater]
        obtain ⟨waited, hwent⟩ := ih hready (hs.advanceTo hnow) (round + 1)
        refine ⟨waited, .cons hs rfl ⟨hopen, ?_⟩ ?_⟩
        · rwa [pollTime_of_next hnext]
        · simp only [pollTime_of_next hnext]
          exact hwent
      · obtain ⟨d, rfl, hle⟩ : ∃ d, deadline = some d ∧ d ≤ timer (s.now + pause.nanos) := by
          simpa using hlater
        rw [waitFrom_interrupted hcount hnext hle]
        refine ⟨some (.interrupted (max d s.now) (run.countAt s.now)),
          .interrupted 0 d nofun hopen rfl ?_, by rw [hs.connectionCount]; rfl,
          fun w hw => Option.mem_some.1 hw ▸ rfl, rfl, List.forall_mem_singleton.2 hs,
          hs.advanceTo (Nat.le_max_right _ _), ?_⟩
        · rwa [pollTime_of_next hnext]
        · rintro failure ⟨⟩
          exact ⟨s, rfl, Nat.le_max_right _ _, Nat.pos_of_ne_zero hcount, rfl⟩

/-- A wait that succeeds has found the registry empty. -/
theorem Went.drained {polls : Nat} (h : Went run deadline pollTimes polls wait waited)
    (hok : wait.result = some (.ok ())) : wait.ended.registry.connections = [] := by
  rw [h.result] at hok
  cases h.outcome with
  | drained k _ hcount =>
    rw [h.ended.connections, h.time_eq _ rfl]
    exact List.length_eq_zero_iff.1 hcount
  | interrupted | undecided => exact nomatch hok

/-- A wait that is interrupted ends at its deadline or behind it. -/
theorem Went.exists_deadline {polls : Nat} {failure : Failure}
    (h : Went run deadline pollTimes polls wait waited)
    (herror : wait.result = some (.error failure)) : ∃ d ∈ deadline, d ≤ wait.ended.now := by
  rw [h.result] at herror
  cases h.outcome with
  | drained | undecided => exact nomatch herror
  | interrupted k d _ _ hd =>
    rw [h.time_eq _ rfl]
    exact ⟨d, hd, Nat.le_max_left _ _⟩

/-- With a deadline that is over, a wait ends at its first poll, by what this finds. -/
theorem Went.of_over {polls d : Nat} (h : Went run deadline pollTimes polls wait waited)
    (hpolls : 0 < polls) (hd : d ∈ deadline) (hover : d ≤ pollTimes 0)
    (hmono : pollTimes 0 ≤ pollTimes 1) :
    wait.ended.now = pollTimes 0 ∧
      wait.result = some (if wait.ended.registry.connections = [] then .ok ()
        else .error (.shutdownInterrupted wait.ended.registry.connectionCount)) := by
  have hfirst := h.outcome.eq_of_over hpolls hd hover hmono
  have hnow : wait.ended.now = pollTimes 0 := by
    rw [h.time_eq _ hfirst]
    split <;> rfl
  have hcount : wait.ended.registry.connectionCount = run.countAt (pollTimes 0) := by
    rw [h.ended.connectionCount, hnow]
  have hempty : wait.ended.registry.connections = [] ↔ run.countAt (pollTimes 0) = 0 := by
    rw [← hcount]
    exact List.length_eq_zero_iff.symm
  refine ⟨hnow, ?_⟩
  rw [h.result, hfirst, hcount]
  simp only [hempty]
  split <;> rfl

end

/-- Polls come one after the other. -/
theorem pollAt_mono (run : ServerRun) (htimer : NeverEarly timer) (drawn : Nat → Duration)
    (k : Nat) : run.pollAt timer drawn k ≤ run.pollAt timer drawn (k + 1) :=
  Nat.le_of_add_right_le (pollTime_add_le Backoff.ready_shutdownPoll htimer k)

/-- A shutdown is a wait behind its beginning. -/
theorem exists_went_shutdown (hsound : run.registry.Sound) (htimer : NeverEarly timer)
    (deadline : Option Nat) (drawn : Nat → Duration) : ∃ waited,
    Went run deadline (run.pollAt timer drawn) (run.enoughPolls deadline)
      (run.shutdownWait timer deadline drawn) waited :=
  exists_went Backoff.ready_shutdownPoll htimer (found_beginShutdown hsound) deadline drawn _ 0

/-- The last of the polls is behind the deadline and all the times at which connections end. -/
theorem exists_last_poll (run : ServerRun) (htimer : NeverEarly timer) (deadline : Option Nat)
    (drawn : Nat → Duration) : ∃ last, run.enoughPolls deadline = last + 1 ∧
      (∀ d ∈ deadline, d < run.pollAt timer drawn last) ∧
      ∀ e ∈ run.endings, e.2 < run.pollAt timer drawn last := by
  let horizon := (run.endings.map (·.2)).foldl max (deadline.getD run.now)
  let last := (horizon - run.now) / Backoff.shutdownPoll.initial.nanos + 1
  have hinitial : Backoff.shutdownPoll.initial.nanos = 1000000 := rfl
  have hlast : run.now + last * Backoff.shutdownPoll.initial.nanos ≤ run.pollAt timer drawn last :=
    add_mul_le_pollTime Backoff.ready_shutdownPoll htimer last
  have hhorizon : horizon < run.pollAt timer drawn last := by
    simp only [last, hinitial] at hlast ⊢
    omega
  refine ⟨last, rfl, fun d hd => ?_, fun e he => ?_⟩
  · refine Nat.lt_of_le_of_lt (le_foldl_max (.inl ?_)) hhorizon
    cases hd
    exact Nat.le_refl _
  · exact Nat.lt_of_le_of_lt (le_foldl_max (.inr (List.mem_map_of_mem he))) hhorizon

/-- A wait is over after enough polls, unless there is no deadline and a connection never ends. -/
theorem outcome_eq_none_iff {waited : Option Waited} (htimer : NeverEarly timer)
    (hwaited : Outcome run.countAt deadline (run.pollAt timer drawn) (run.enoughPolls deadline)
      waited) :
    waited = none ↔ deadline = none ∧ run.Endless := by
  constructor
  · rintro rfl
    obtain ⟨last, hpolls, hdeadline, hendings⟩ := run.exists_last_poll htimer deadline drawn
    cases hwaited with
    | undecided hall =>
      obtain ⟨hcount, hlater⟩ := hall last (hpolls ▸ Nat.lt_succ_self last)
      refine ⟨Option.eq_none_iff_forall_not_mem.2 fun d hd => ?_, ?_⟩
      · exact Nat.lt_asymm (hlater d hd)
          (Nat.lt_of_lt_of_le (hdeadline d hd) (run.pollAt_mono htimer drawn last))
      · rw [Ne, countAt_eq_zero_iff] at hcount
        obtain ⟨id, hid, hopen⟩ : ∃ id ∈ run.registry.connections,
            run.endedBy (run.pollAt timer drawn last) id = false := by simpa using hcount
        refine ⟨id, hid, fun time => Bool.eq_false_iff.2 fun htime => ?_⟩
        obtain ⟨t, -, hmem⟩ := endedBy_iff.1 htime
        exact nomatch hopen.symm.trans (endedBy_iff.2 ⟨t, Nat.le_of_lt (hendings _ hmem), hmem⟩)
  · rintro ⟨rfl, hendless⟩
    cases hwaited with
    | drained k _ hcount => exact absurd hcount (countAt_ne_zero_of_endless hendless)
    | interrupted k d _ _ hd => exact nomatch hd
    | undecided => rfl

/-- A wait whose connections all end, and whose deadline leaves it one longest pause more, ends by
then with no connection left. -/
theorem drained_of_all_end {waited : Option Waited} {last : Nat}
    (hwaited : Outcome run.countAt deadline (run.pollAt exactly drawn) (run.enoughPolls deadline)
      waited)
    (hnow : run.now ≤ last) (hlast : ∀ id ∈ run.registry.connections, run.endedBy last id = true)
    (hdeadline : ∀ d ∈ deadline, last + Backoff.shutdownPoll.longest ≤ d) :
    ∃ t ≤ last + Backoff.shutdownPoll.longest, waited = some (.drained t) := by
  have hsome : waited ≠ none := fun h => by
    obtain ⟨-, id, hid, hnever⟩ := (outcome_eq_none_iff neverEarly_exactly hwaited).1 h
    exact nomatch (hnever last).symm.trans (hlast id hid)
  obtain ⟨w, rfl⟩ := Option.ne_none_iff_exists'.1 hsome
  obtain ⟨t, rfl, ht⟩ := hwaited.drained_of_ended
    (fun k => pollTime_le_add Backoff.ready_shutdownPoll k)
    (fun t ht => countAt_eq_zero_iff.2 fun id hid => endedBy_mono (hlast id hid) ht) hdeadline
  exact ⟨t, Nat.le_trans ht (Nat.max_le.2 ⟨Nat.le_add_right_of_le hnow, Nat.le_refl _⟩), rfl⟩

/-! ## What a shutdown comes to -/

/-- A graceful shutdown with exact timers, after any calls on a new server, whenever the connections
end and whatever the jitter. The first poll comes at once, and the others at the times of the
back-off. Every poll finds, as the end does, that the server is shutting down, that all listeners
are cancelled and no connection is that was not before, and that none has left the registry that
has not ended. The shutdown succeeds only when it finds the registry empty. It is interrupted only
when the deadline has come, behind a poll that has found connections, and reports how many the last
poll has found. With a deadline that is over at the call, it succeeds if and only if the registry is
empty then. If all connections end within a span of time and the deadline leaves 550 ms more, it
succeeds by then. It always returns, unless there is no deadline and a connection never ends. -/
theorem shutdown_outcome (calls : List Call) (now : Nat) (endings : List (Nat × Nat))
    (deadline : Option Nat) (drawn : Nat → Duration) :
    let run : ServerRun := ⟨Registry.initial.after calls, now, endings⟩
    let polls := (run.shutdownWait exactly deadline drawn).polls
    let result := (run.shutdown exactly deadline drawn).1
    let ended := (run.shutdown exactly deadline drawn).2
    let slack := (Duration.ofMillis 550).nanos
    (∃ first later, polls = first :: later ∧ first.now = now) ∧
    polls.map (·.now) = (List.range polls.length).map (run.pollAt exactly drawn) ∧
    (∀ found, found ∈ polls ∨ found = ended →
      found.registry.shuttingDown = true ∧ found.registry.listeners = [] ∧
      found.registry.closedListeners = run.registry.listeners ++ run.registry.closedListeners ∧
      found.registry.cancelled = run.registry.cancelled ∧
      found.registry.connections = run.openAt found.now) ∧
    (result = some (.ok ()) → ended.registry.connections = []) ∧
    (∀ failure, result = some (.error failure) → (∃ d ∈ deadline, d ≤ ended.now) ∧
      ∃ last, polls.getLast? = some last ∧ last.now ≤ ended.now ∧
        0 < last.registry.connectionCount ∧
        failure = .shutdownInterrupted last.registry.connectionCount) ∧
    (∀ d ∈ deadline, d ≤ now → ended.now = now ∧
      result = some (if ended.registry.connections = [] then .ok ()
        else .error (.shutdownInterrupted ended.registry.connectionCount))) ∧
    (∀ span, (∀ id ∈ run.registry.connections, run.endedBy (now + span) id = true) →
      (∀ d ∈ deadline, now + span + slack ≤ d) →
      result = some (.ok ()) ∧ ended.now ≤ now + span + slack) ∧
    (result = none ↔ deadline = none ∧ run.Endless) := by
  intro run polls result ended slack
  have hsound : run.registry.Sound := Registry.sound_after calls
  obtain ⟨waited, hwent⟩ := exists_went_shutdown hsound neverEarly_exactly deadline drawn
  have hresult : result = waited.map Waited.result := hwent.result
  have hnone : result = none ↔ waited = none := by rw [hresult, Option.map_eq_none_iff]
  have hmono := run.pollAt_mono neverEarly_exactly drawn 0
  refine ⟨?_, hwent.times, fun found hfound => ?_, hwent.drained,
    fun failure herror => ⟨hwent.exists_deadline herror, hwent.last failure herror⟩,
    fun d hd hover => hwent.of_over (Nat.succ_pos _) hd hover hmono,
    fun span hspan hdeadline => ?_,
    hnone.trans (outcome_eq_none_iff neverEarly_exactly hwent.outcome)⟩
  · obtain ⟨later, hpolls⟩ := exists_polls_eq_cons Backoff.ready_shutdownPoll _
    exact ⟨_, later, hpolls, rfl⟩
  · have hfound : Found run found := hfound.elim (hwent.found found) (· ▸ hwent.ended)
    obtain ⟨held, metrics, heq⟩ := hfound.registry
    rw [heq]
    exact ⟨rfl, rfl, rfl, rfl, rfl⟩
  · obtain ⟨t, ht, rfl⟩ :=
      drained_of_all_end hwent.outcome (Nat.le_add_right now span) hspan hdeadline
    have htime : ended.now = t := hwent.time_eq _ rfl
    exact ⟨hresult, htime ▸ ht⟩

/-- Two connections end during the wait, which then ends before the deadline. -/
theorem shutdown_outcome_two :
    let run : ServerRun :=
      ⟨Registry.initial.after [.register, .register], 0, [(0, 3000000), (1, 20000000)]⟩
    let result := (run.shutdown exactly (some 600000000) fun _ => .zero).1
    let ended := (run.shutdown exactly (some 600000000) fun _ => .zero).2
    (∀ id ∈ run.registry.connections, run.endedBy (0 + 20000000) id = true) ∧
      result = some (.ok ()) ∧ ended.now ≤ 0 + 20000000 + (Duration.ofMillis 550).nanos ∧
      ended.registry.connections = [] := by
  obtain ⟨-, -, -, hempty, -, -, hdrains, -⟩ := shutdown_outcome [.register, .register] 0
    [(0, 3000000), (1, 20000000)] (some 600000000) fun _ => .zero
  have hlater : 0 + 20000000 + (Duration.ofMillis 550).nanos ≤ 600000000 := by decide
  obtain ⟨hresult, htime⟩ :=
    hdrains 20000000 (by decide) fun d hd => Option.mem_some.1 hd ▸ hlater
  exact ⟨by decide, hresult, htime, hempty hresult⟩

/-- What an interrupted shutdown reports: how many connections the poll before it has found. There
is one at least, and as many are registered when the shutdown returns if none has ended since that
poll; else there are fewer. -/
theorem remaining_of_interrupted (calls : List Call) (now : Nat) (endings : List (Nat × Nat))
    {timer : Nat → Nat} (htimer : NeverEarly timer) (deadline : Option Nat)
    (drawn : Nat → Duration) (remaining : Nat)
    (h : (ServerRun.shutdown ⟨Registry.initial.after calls, now, endings⟩ timer deadline drawn).1 =
      some (.error (.shutdownInterrupted remaining))) :
    let run : ServerRun := ⟨Registry.initial.after calls, now, endings⟩
    let ended := (run.shutdown timer deadline drawn).2
    0 < remaining ∧ ended.registry.connectionCount ≤ remaining ∧
    ∃ k, let polled := run.pollAt timer drawn k
      polled ≤ ended.now ∧ ended.now ≤ run.pollAt timer drawn (k + 1) ∧
      remaining = run.countAt polled ∧
      (ended.registry.connectionCount = remaining ↔ ∀ id ∈ run.registry.connections,
        run.endedBy ended.now id = true → run.endedBy polled id = true) := by
  intro run ended
  have hsound : run.registry.Sound := Registry.sound_after calls
  obtain ⟨waited, hwent⟩ := exists_went_shutdown hsound htimer deadline drawn
  have hwaited := hwent.outcome
  have hresult : _ = waited.map Waited.result := hwent.result
  have hended : Found run ended := hwent.ended
  have htime : ∀ w ∈ waited, ended.now = w.time := hwent.time_eq
  change (run.shutdown timer deadline drawn).1 = _ at hresult
  rw [h] at hresult
  cases hwaited with
  | drained | undecided => exact nomatch hresult
  | interrupted k d _ hcount hd hle =>
    cases hresult
    have hnow : ended.now = max d (run.pollAt timer drawn k) := htime _ rfl
    have hpolled : run.pollAt timer drawn k ≤ ended.now := hnow ▸ Nat.le_max_right _ _
    have hnext : ended.now ≤ run.pollAt timer drawn (k + 1) :=
      hnow ▸ Nat.max_le.2 ⟨hle, run.pollAt_mono htimer drawn k⟩
    rw [hended.connectionCount]
    exact ⟨Nat.pos_of_ne_zero hcount, (openAt_sublist hpolled).length_le, k, hpolled, hnext, rfl,
      countAt_eq_iff hpolled⟩

/-- One of three connections ends long before the deadline, and timers go off with a tick. -/
theorem remaining_of_interrupted_three :
    let run : ServerRun :=
      ⟨Registry.initial.after [.register, .register, .register], 0, [(0, 5000000)]⟩
    let outcome := run.shutdown (inTicks 1000000) (some 60000000) fun _ => .zero
    outcome.1 = some (.error (.shutdownInterrupted 2)) ∧
      outcome.2.registry.connectionCount ≤ 2 ∧
      ∃ k, 2 = run.countAt (run.pollAt (inTicks 1000000) (fun _ => .zero) k) := by
  have htimer : NeverEarly (inTicks 1000000) := neverEarly_inTicks (by decide)
  obtain ⟨-, hle, k, -, -, hcount, -⟩ := remaining_of_interrupted
    [.register, .register, .register] 0 [(0, 5000000)] htimer (some 60000000) (fun _ => .zero) 2
    (by decide +kernel)
  exact ⟨by decide +kernel, hle, k, hcount⟩

/-- A connection that ends between the last poll and the deadline is still reported. -/
theorem remaining_counts_ended :
    let run : ServerRun := ⟨Registry.initial.after [.register, .register], 0, [(0, 50000000)]⟩
    let outcome := run.shutdown exactly (some 60000000) fun _ => .zero
    outcome.1 = some (.error (.shutdownInterrupted 2)) ∧
      outcome.2.registry.connectionCount = 1 := by
  decide +kernel

end ServerRun

end CacheServer.Native
