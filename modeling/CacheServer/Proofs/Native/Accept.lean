import CacheServer.Native.Accept
import CacheServer.Proofs.Backoff
import CacheServer.Proofs.Native.Registry
import Mathlib.Algebra.GroupWithZero.Nat
import Mathlib.Data.List.Forall2

/-!
# How an accept loop goes

A loop that is never closed takes up every outcome up to the first fatal one and does with it what
its class asks for. `Course` has one rule for each outcome; from it follow the actions in order
(`Course.answers`) and the time, the pause and the id of each of them (`Course.fits`).

Closing a loop does not change what it does before, and there is nothing behind
(`trace_acceptFrom`). So the whole of a loop is known from the one that is never closed
(`acceptLoop_outcome`).
-/

namespace CacheServer.Native

open Backoff (Grown grownBase)

/-! ## What a loop is to do -/

/-- Whether an outcome ends the loop. -/
def AcceptOutcome.isFatal : AcceptOutcome → Bool
  | connection => false
  | failed e => e.classify = .fatal

/-- A failure ends the loop if it is fatal. -/
@[simp] theorem AcceptOutcome.isFatal_failed (e : AcceptError) :
    (failed e).isFatal = decide (e.classify = .fatal) := rfl

/-- The outcomes before the first one that ends the loop, and that one. -/
def upToFatal (outcomes : List (Nat × AcceptOutcome)) : List (Nat × AcceptOutcome) :=
  outcomes.takeWhile (!·.2.isFatal) ++ (outcomes.find? (·.2.isFatal)).toList

namespace AcceptAction

/-- The action that an outcome calls for. -/
inductive Answers : AcceptOutcome → AcceptAction → Prop
  | handOver (id : Nat) : Answers .connection (.handOver id)
  | skip {e : AcceptError} : e.classify = .connection → Answers (.failed e) (.skip e)
  | pause {e : AcceptError} (length : Duration) : e.classify = .exhausted →
      Answers (.failed e) (.pause e length)
  | giveUp {e : AcceptError} : e.classify = .fatal → Answers (.failed e) (.giveUp e)

/-- How long nothing is accepted because of an action. -/
def nanos : AcceptAction → Nat
  | pause _ length => length.nanos
  | _ => 0

/-- Whether an action hands a connection over. -/
def isHandOver : AcceptAction → Bool
  | handOver _ => true
  | _ => false

/-- The number of pauses since the last connection, behind an action before which there were `k`. -/
def pausesAfter (k : Nat) : AcceptAction → Nat
  | handOver _ => 0
  | pause .. => k + 1
  | _ => k

end AcceptAction

/-- The number of pauses since the last connection, behind actions before which there were `k`. -/
def pausesFrom (k : Nat) (before : List (Nat × AcceptAction)) : Nat :=
  before.foldl (fun k entry => entry.2.pausesAfter k) k

/-- What holds of an action, given what was done before it since the time `now`. At that time there
were `k` pauses since the last connection, and `next` was the next id. -/
structure Fits (k now next : Nat) (outcomes : List (Nat × AcceptOutcome))
    (before : List (Nat × AcceptAction)) (time : Nat) (action : AcceptAction) : Prop where
  time_eq : time =
    now + ((outcomes.take (before.length + 1)).map (·.1)).sum + (before.map (·.2.nanos)).sum
  pause_between : ∀ e length, action = .pause e length →
    let base := Nat.min (5000000 * Nat.pow 2 (pausesFrom k before)) 1000000000
    base ≤ length.nanos ∧ 10 * length.nanos ≤ 11 * base
  id_eq : ∀ id, action = .handOver id →
    id = (next + before.countP (·.2.isHandOver)) % UInt64.size

/-- What a loop that is never closed does from the time `now` on, `k` pauses behind the last
connection and with `next` as the next id. -/
inductive Course : (k now next : Nat) → List (Nat × AcceptOutcome) → List (Nat × AcceptAction) →
    Prop
  | waits {k now next : Nat} : Course k now next [] []
  | handsOver {k now next wait : Nat} {rest : List (Nat × AcceptOutcome)}
      {trace : List (Nat × AcceptAction)} :
      Course 0 (now + wait) (next + 1) rest trace →
      Course k now next ((wait, .connection) :: rest)
        ((now + wait, .handOver (next % UInt64.size)) :: trace)
  | skips {k now next wait : Nat} {e : AcceptError} {rest : List (Nat × AcceptOutcome)}
      {trace : List (Nat × AcceptAction)} :
      e.classify = .connection → Course k (now + wait) next rest trace →
      Course k now next ((wait, .failed e) :: rest) ((now + wait, .skip e) :: trace)
  | pauses {k now next wait : Nat} {e : AcceptError} {length : Duration}
      {rest : List (Nat × AcceptOutcome)} {trace : List (Nat × AcceptAction)} :
      e.classify = .exhausted →
      Nat.min (5000000 * Nat.pow 2 k) 1000000000 ≤ length.nanos →
      10 * length.nanos ≤ 11 * Nat.min (5000000 * Nat.pow 2 k) 1000000000 →
      Course (k + 1) (now + wait + length.nanos) next rest trace →
      Course k now next ((wait, .failed e) :: rest) ((now + wait, .pause e length) :: trace)
  | givesUp {k now next wait : Nat} {e : AcceptError} {rest : List (Nat × AcceptOutcome)} :
      e.classify = .fatal →
      Course k now next ((wait, .failed e) :: rest) [(now + wait, .giveUp e)]

/-! ## What follows from a course -/

section
variable {k now next wait : Nat} {outcomes rest : List (Nat × AcceptOutcome)}
  {trace before after : List (Nat × AcceptAction)} {outcome : AcceptOutcome}

/-- An outcome that does not end the loop is followed by the others. -/
theorem upToFatal_cons_of_not (h : outcome.isFatal = false) :
    upToFatal ((wait, outcome) :: rest) = (wait, outcome) :: upToFatal rest := by
  simp [upToFatal, h]

/-- An outcome that ends the loop is the last one. -/
theorem upToFatal_cons_of_isFatal (h : outcome.isFatal = true) :
    upToFatal ((wait, outcome) :: rest) = [(wait, outcome)] := by
  simp [upToFatal, h]

/-- The outcomes up to the first fatal one are answered, each by one action and in order. -/
theorem Course.answers (h : Course k now next outcomes trace) :
    List.Forall₂ (fun outcome entry => AcceptAction.Answers outcome.2 entry.2)
      (upToFatal outcomes) trace := by
  induction h with
  | waits => exact .nil
  | handsOver _ ih =>
    rw [upToFatal_cons_of_not rfl]
    exact .cons (.handOver _) ih
  | skips hclass _ ih =>
    rw [upToFatal_cons_of_not (by simp [hclass])]
    exact .cons (.skip hclass) ih
  | pauses hclass _ _ _ ih =>
    rw [upToFatal_cons_of_not (by simp [hclass])]
    exact .cons (.pause _ hclass) ih
  | givesUp hclass =>
    rw [upToFatal_cons_of_isFatal (by simp [hclass])]
    exact .cons (.giveUp hclass) .nil

/-- The first action comes with the first outcome. -/
theorem fits_first {action : AcceptAction}
    (hpause : ∀ e length, action = .pause e length →
      Nat.min (5000000 * Nat.pow 2 k) 1000000000 ≤ length.nanos ∧
        10 * length.nanos ≤ 11 * Nat.min (5000000 * Nat.pow 2 k) 1000000000)
    (hid : ∀ id, action = .handOver id → id = next % UInt64.size) :
    Fits k now next ((wait, outcome) :: rest) [] (now + wait) action where
  time_eq := by simp
  pause_between := hpause
  id_eq := hid

/-- What fits behind an action fits with the action in front. -/
theorem Fits.cons {first action : AcceptAction} {time : Nat}
    (h : Fits (first.pausesAfter k) (now + wait + first.nanos)
      (next + if first.isHandOver then 1 else 0) rest before time action) :
    Fits k now next ((wait, outcome) :: rest) ((now + wait, first) :: before) time action where
  time_eq := by
    rw [h.time_eq]
    simp only [List.length_cons, List.take_succ_cons, List.map_cons, List.sum_cons]
    omega
  pause_between := h.pause_between
  id_eq id hid := by
    have hcount : next + (if first.isHandOver then 1 else 0) + before.countP (·.2.isHandOver) =
        next + ((now + wait, first) :: before).countP (·.2.isHandOver) := by
      rw [List.countP_cons]
      dsimp only
      omega
    rw [h.id_eq id hid, hcount]

/-- Every action of a course is in its place. -/
theorem Course.fits {time : Nat} {action : AcceptAction} (h : Course k now next outcomes trace)
    (htrace : trace = before ++ (time, action) :: after) :
    Fits k now next outcomes before time action := by
  induction h generalizing before with
  | waits => simp at htrace
  | handsOver _ ih =>
    rcases List.cons_eq_append_iff.1 htrace with ⟨rfl, hhead⟩ | ⟨before, rfl, htail⟩
    · obtain ⟨⟨rfl, rfl⟩, -⟩ := by simpa using hhead
      exact fits_first nofun fun id hid => (AcceptAction.handOver.inj hid).symm
    · exact .cons (ih htail)
  | skips _ _ ih =>
    rcases List.cons_eq_append_iff.1 htrace with ⟨rfl, hhead⟩ | ⟨before, rfl, htail⟩
    · obtain ⟨⟨rfl, rfl⟩, -⟩ := by simpa using hhead
      exact fits_first nofun nofun
    · exact .cons (ih htail)
  | pauses _ hleast hmost _ ih =>
    rcases List.cons_eq_append_iff.1 htrace with ⟨rfl, hhead⟩ | ⟨before, rfl, htail⟩
    · obtain ⟨⟨rfl, rfl⟩, -⟩ := by simpa using hhead
      refine fits_first (fun e length hpause => ?_) nofun
      obtain ⟨-, rfl⟩ := AcceptAction.pause.inj hpause
      exact ⟨hleast, hmost⟩
    · exact .cons (ih htail)
  | givesUp _ =>
    rcases List.cons_eq_append_iff.1 htrace with ⟨rfl, hhead⟩ | ⟨before, rfl, htail⟩
    · obtain ⟨⟨rfl, rfl⟩, -⟩ := by simpa using hhead
      exact fits_first nofun nofun
    · simp at htail

/-- When and at what a loop is to give up that does what `trace` says from the time `now` on: at
the first fatal outcome, when all outcomes up to it have been waited for and all pauses are over. -/
def Faults (now : Nat) (outcomes : List (Nat × AcceptOutcome)) (trace : List (Nat × AcceptAction))
    (time : Nat) (e : AcceptError) : Prop :=
  (∃ wait, outcomes.find? (·.2.isFatal) = some (wait, .failed e)) ∧
    time = now + ((upToFatal outcomes).map (·.1)).sum + (trace.map (·.2.nanos)).sum

/-- An outcome that is not fatal only moves the time on. -/
theorem faults_cons_iff {time head : Nat} {action : AcceptAction} {e : AcceptError}
    (h : outcome.isFatal = false) :
    Faults now ((wait, outcome) :: rest) ((head, action) :: trace) time e ↔
      Faults (now + wait + action.nanos) rest trace time e := by
  rw [Faults, Faults, upToFatal_cons_of_not h, List.find?_cons_of_neg (by simp [h])]
  refine and_congr_right fun _ => ?_
  simp only [List.map_cons, List.sum_cons]
  omega

/-- The loop gives up at the first fatal outcome, at the time at which this is taken up. -/
theorem Course.mem_giveUp_iff {time : Nat} {e : AcceptError}
    (h : Course k now next outcomes trace) :
    (time, .giveUp e) ∈ trace ↔ Faults now outcomes trace time e := by
  induction h with
  | waits => simp [Faults]
  | handsOver _ ih =>
    rw [List.mem_cons, or_iff_right (by simp), ih, faults_cons_iff rfl]
    rfl
  | skips hclass _ ih =>
    rw [List.mem_cons, or_iff_right (by simp), ih,
      faults_cons_iff (by simp [hclass])]
    rfl
  | pauses hclass _ _ _ ih =>
    rw [List.mem_cons, or_iff_right (by simp), ih,
      faults_cons_iff (by simp [hclass])]
    rfl
  | givesUp hclass =>
    rw [Faults, upToFatal_cons_of_isFatal (by simp [hclass]),
      List.find?_cons_of_pos (by simp [hclass])]
    simp [AcceptAction.nanos, and_comm, eq_comm]

/-- Nothing is done before the first outcome. -/
theorem Course.le_time (h : Course k now next ((wait, outcome) :: rest) trace)
    {entry : Nat × AcceptAction} (hentry : entry ∈ trace) : now + wait ≤ entry.1 := by
  obtain ⟨before, after, htrace⟩ := List.append_of_mem hentry
  rw [(h.fits htrace).time_eq, List.take_succ_cons, List.map_cons, List.sum_cons]
  omega

end

/-! ## What the loop does with one outcome -/

section
variable {closing : Option Nat} {drawn : Nat → Duration} {registry : Registry}
  {retry retry' : Backoff} {k now paused wait : Nat} {outcome : AcceptOutcome} {e : AcceptError}
  {outcomes rest : List (Nat × AcceptOutcome)} {length : Duration}

/-- A loop is closed by a time if it was to be closed at that time or before. -/
theorem closedBy_iff {time : Nat} : closedBy closing time = true ↔ ∃ c ∈ closing, c ≤ time := by
  cases closing with
  | none => simp [closedBy]
  | some c => simp [closedBy]

/-- A loop that is closed stays closed. -/
theorem closedBy_mono {time later : Nat} (h : closedBy closing time = true) (hle : time ≤ later) :
    closedBy closing later = true := by
  obtain ⟨c, hc, hpast⟩ := closedBy_iff.1 h
  exact closedBy_iff.2 ⟨c, hc, Nat.le_trans hpast hle⟩

/-- A loop that is closed before the next outcome does nothing more. -/
theorem acceptFrom_of_closed (h : closedBy closing (now + wait) = true) :
    acceptFrom closing drawn registry retry now paused ((wait, outcome) :: rest) =
      .waiting closing := by
  simp only [acceptFrom, h, if_true]

/-- A loop that is closed does nothing more. -/
theorem acceptFrom_of_over (h : closedBy closing now = true) :
    acceptFrom closing drawn registry retry now paused outcomes = .waiting closing := by
  cases outcomes with
  | nil => rfl
  | cons first rest => exact acceptFrom_of_closed (closedBy_mono h (Nat.le_add_right _ _))

/-- A connection is registered and handed over, and the back-off starts anew. -/
theorem acceptFrom_connection (h : closedBy closing (now + wait) = false)
    (hopen : registry.shuttingDown = false) :
    acceptFrom closing drawn registry retry now paused ((wait, .connection) :: rest) =
      (acceptFrom closing drawn registry.insert retry.reset (now + wait) paused rest).cons
        (now + wait) (.handOver registry.nextId) := by
  simp only [acceptFrom, h, Registry.register_of_not_shuttingDown hopen, Bool.false_eq_true,
    if_false, Option.elim]

/-- A failure of one connection is skipped. -/
theorem acceptFrom_skip (h : closedBy closing (now + wait) = false)
    (hopen : registry.shuttingDown = false) (hclass : e.classify = .connection) :
    acceptFrom closing drawn registry retry now paused ((wait, .failed e) :: rest) =
      (acceptFrom closing drawn registry retry (now + wait) paused rest).cons (now + wait)
        (.skip e) := by
  simp only [acceptFrom, AcceptError.retry, h, hopen, hclass, Bool.false_eq_true, if_false]

/-- A fatal failure ends the loop. -/
theorem acceptFrom_fatal (h : closedBy closing (now + wait) = false)
    (hopen : registry.shuttingDown = false) (hclass : e.classify = .fatal) :
    acceptFrom closing drawn registry retry now paused ((wait, .failed e) :: rest) =
      ⟨[(now + wait, .giveUp e)], some (now + wait, .error e)⟩ := by
  simp only [acceptFrom, AcceptError.retry, h, hopen, hclass, Bool.false_eq_true, if_false]

/-- At a want of resources the loop pauses, and goes on behind the pause. -/
theorem acceptFrom_exhausted (h : closedBy closing (now + wait) = false)
    (hopen : registry.shuttingDown = false) (hclass : e.classify = .exhausted)
    (hnext : retry.next (drawn paused) = .ok (length, retry')) :
    acceptFrom closing drawn registry retry now paused ((wait, .failed e) :: rest) =
      (acceptFrom closing drawn registry retry' (now + wait + length.nanos) (paused + 1) rest).cons
        (now + wait) (.pause e length) := by
  simp only [acceptFrom, AcceptError.retry, h, hopen, hclass, hnext, Bool.false_eq_true, if_false]
  split
  · next hover => rw [acceptFrom_of_over hover]
  · rfl

/-- The back-off of a loop that is `k` pauses behind the last connection. -/
abbrev Retries (k : Nat) (retry : Backoff) : Prop :=
  Grown (.ofMillis 5) (.ofMillis 1000) k retry

/-- The bases of the pauses: five milliseconds, doubled at each of them, up to a second. -/
theorem grownBase_acceptRetry (k : Nat) : grownBase (.ofMillis 5) (.ofMillis 1000) k =
    Nat.min (5000000 * Nat.pow 2 k) 1000000000 := by
  unfold grownBase
  split
  · next h => rw [h]; rfl
  · rfl

/-- There is always a next pause, and it is long enough and not too long. -/
theorem Retries.exists_next (h : Retries k retry) (drawn : Duration) : ∃ length retry',
    retry.next drawn = .ok (length, retry') ∧ Retries (k + 1) retry' ∧
      Nat.min (5000000 * Nat.pow 2 k) 1000000000 ≤ length.nanos ∧
      10 * length.nanos ≤ 11 * Nat.min (5000000 * Nat.pow 2 k) 1000000000 := by
  have hlt : retry.base.nanos < Nat.pow 2 63 * nanosPerSecond := by
    rw [h.base_eq]
    exact Nat.lt_of_le_of_lt (Backoff.grownBase_le _ _ k) (by decide)
  obtain ⟨length, base, hnext, -⟩ := Backoff.exists_next hlt drawn
  obtain ⟨hgrown, hleast, hmost⟩ := h.next hnext
  rw [h.base_eq, grownBase_acceptRetry] at hleast hmost
  exact ⟨length, _, hnext, hgrown, hleast, by omega⟩

/-! ## Whole runs -/

/-- A loop that is never closed takes its course; `next` is what the counter of the ids has come
to. -/
theorem course_acceptFrom {next : Nat} (hopen : registry.shuttingDown = false)
    (hnext : registry.nextConnection = .ofNat next) (hretry : Retries k retry) :
    Course k now next outcomes
      (acceptFrom none drawn registry retry now paused outcomes).trace := by
  induction outcomes generalizing registry retry k now paused next with
  | nil => exact .waits
  | cons first rest ih =>
    obtain ⟨wait, outcome⟩ := first
    cases outcome with
    | connection =>
      have hinsert : registry.insert.shuttingDown = false := hopen
      have hcounter : registry.insert.nextConnection = .ofNat (next + 1) := by
        rw [UInt64.ofNat_add, ← hnext]
        rfl
      rw [acceptFrom_connection rfl hopen, Registry.nextId_eq hnext]
      exact .handsOver (ih hinsert hcounter hretry.reset)
    | failed e =>
      cases hclass : e.classify with
      | connection =>
        rw [acceptFrom_skip rfl hopen hclass]
        exact .skips hclass (ih hopen hnext hretry)
      | exhausted =>
        obtain ⟨length, retry', hpause, hretry', hleast, hmost⟩ := hretry.exists_next (drawn paused)
        rw [acceptFrom_exhausted rfl hopen hclass hpause]
        exact .pauses hclass hleast hmost (ih hopen hnext hretry')
      | fatal =>
        rw [acceptFrom_fatal rfl hopen hclass]
        exact .givesUp hclass

/-- Closing a loop takes away what would be done from then on, and changes nothing before. -/
theorem trace_acceptFrom (hopen : registry.shuttingDown = false) (hretry : Retries k retry) :
    (acceptFrom closing drawn registry retry now paused outcomes).trace =
      (acceptFrom none drawn registry retry now paused outcomes).trace.filter
        fun entry => !closedBy closing entry.1 := by
  induction outcomes generalizing registry retry k now paused with
  | nil => rfl
  | cons first rest ih =>
    obtain ⟨wait, outcome⟩ := first
    cases hclosed : closedBy closing (now + wait) with
    | true =>
      rw [acceptFrom_of_closed hclosed]
      refine (List.filter_eq_nil_iff.2 fun entry hentry => ?_).symm
      have hnext : registry.nextConnection = .ofNat registry.nextId := UInt64.ofNat_toNat.symm
      have hle : now + wait ≤ entry.1 := (course_acceptFrom hopen hnext hretry).le_time hentry
      simp [closedBy_mono hclosed hle]
    | false =>
      have hkept {action : AcceptAction} {run unclosed : AcceptRun}
          (h : run.trace = unclosed.trace.filter fun entry => !closedBy closing entry.1) :
          (run.cons (now + wait) action).trace = (unclosed.cons (now + wait) action).trace.filter
            fun entry => !closedBy closing entry.1 := by
        simp [AcceptRun.cons, hclosed, h]
      cases outcome with
      | connection =>
        have hinsert : registry.insert.shuttingDown = false := hopen
        rw [acceptFrom_connection hclosed hopen, acceptFrom_connection rfl hopen]
        exact hkept (ih hinsert hretry.reset)
      | failed e =>
        cases hclass : e.classify with
        | connection =>
          rw [acceptFrom_skip hclosed hopen hclass, acceptFrom_skip rfl hopen hclass]
          exact hkept (ih hopen hretry)
        | exhausted =>
          obtain ⟨length, retry', hnext, hretry', -⟩ := hretry.exists_next (drawn paused)
          rw [acceptFrom_exhausted hclosed hopen hclass hnext,
            acceptFrom_exhausted rfl hopen hclass hnext]
          exact hkept (ih hopen hretry')
        | fatal =>
          rw [acceptFrom_fatal hclosed hopen hclass, acceptFrom_fatal rfl hopen hclass]
          simp [hclosed]

/-- How a loop ends that has done what `trace` says: with the error that it gave up at, or when it
is closed. -/
structure Ends (closing : Option Nat) (run : AcceptRun) : Prop where
  error_iff : ∀ time e, run.ended = some (time, .error e) ↔ (time, .giveUp e) ∈ run.trace
  ok_iff : ∀ time, run.ended = some (time, .ok ()) ↔
    time ∈ closing ∧ ∀ other e, (other, .giveUp e) ∉ run.trace

/-- A loop that waits ends when it is closed. -/
theorem ends_waiting (closing : Option Nat) : Ends closing (.waiting closing) where
  error_iff time e := by
    simp [AcceptRun.waiting]
  ok_iff time := by
    cases closing with
    | none => simp [AcceptRun.waiting]
    | some c => simp [AcceptRun.waiting, eq_comm]

/-- An action behind which the loop goes on leaves its end as it is. -/
theorem Ends.cons {run : AcceptRun} {time : Nat} {action : AcceptAction} (h : Ends closing run)
    (haction : ∀ e, action ≠ .giveUp e) : Ends closing (run.cons time action) where
  error_iff other e := by
    refine (h.error_iff other e).trans (List.mem_cons.trans (or_iff_right ?_)).symm
    exact fun heq => haction e (Prod.mk.inj heq).2.symm
  ok_iff other := by
    refine (h.ok_iff other).trans (and_congr_right fun _ => forall₂_congr fun other e => ?_)
    refine not_congr (List.mem_cons.trans (or_iff_right ?_)).symm
    exact fun heq => haction e (Prod.mk.inj heq).2.symm

/-- A loop ends when it is closed, or before with an error. -/
theorem ends_acceptFrom (hopen : registry.shuttingDown = false) (hretry : Retries k retry) :
    Ends closing (acceptFrom closing drawn registry retry now paused outcomes) := by
  induction outcomes generalizing registry retry k now paused with
  | nil => exact ends_waiting closing
  | cons first rest ih =>
    obtain ⟨wait, outcome⟩ := first
    cases hclosed : closedBy closing (now + wait) with
    | true =>
      rw [acceptFrom_of_closed hclosed]
      exact ends_waiting closing
    | false =>
      cases outcome with
      | connection =>
        have hinsert : registry.insert.shuttingDown = false := hopen
        rw [acceptFrom_connection hclosed hopen]
        exact (ih hinsert hretry.reset).cons nofun
      | failed e =>
        cases hclass : e.classify with
        | connection =>
          rw [acceptFrom_skip hclosed hopen hclass]
          exact (ih hopen hretry).cons nofun
        | exhausted =>
          obtain ⟨length, retry', hnext, hretry', -⟩ := hretry.exists_next (drawn paused)
          rw [acceptFrom_exhausted hclosed hopen hclass hnext]
          exact (ih hopen hretry').cons nofun
        | fatal =>
          rw [acceptFrom_fatal hclosed hopen hclass]
          exact ⟨fun time e => by simp [eq_comm], fun time => by simp⟩

end

/-- How an accept loop goes. On a server that is shutting down it ends at once and does nothing.
Else, let a loop that is never closed take the same outcomes. It answers all of them up to the first
fatal one, in order, each by the action that its class asks for: a connection is handed over under
the next id, a failure of one connection is skipped, one for want of resources begins a pause. Every
action comes as soon as the outcomes so far have been waited for and the pauses so far are over, and
with `k` pauses since the last connection the next one is 5 ms doubled `k` times, a second at most,
and up to a tenth more. A loop that is closed does exactly what comes before the closing. It ends
with an error if and only if the first fatal outcome comes before the closing, with this error, and
else it ends when it is closed, in a pause or not. -/
theorem acceptLoop_outcome (registry : Registry) (closing : Option Nat) (drawn : Nat → Duration)
    (outcomes : List (Nat × AcceptOutcome)) :
    let run := acceptLoop registry closing drawn outcomes
    let unclosed := acceptLoop registry none drawn outcomes
    (registry.shuttingDown = true → run.trace = [] ∧ run.ended = some (0, .ok ())) ∧
    (registry.shuttingDown = false →
      List.Forall₂ (fun outcome entry => AcceptAction.Answers outcome.2 entry.2)
        (upToFatal outcomes) unclosed.trace ∧
      (∀ before time action after, unclosed.trace = before ++ (time, action) :: after →
        Fits 0 0 registry.nextId outcomes before time action) ∧
      (run.trace = unclosed.trace.filter fun entry => closing.all (entry.1 < ·)) ∧
      (∀ time e, run.ended = some (time, .error e) ↔
        (∃ wait, outcomes.find? (·.2.isFatal) = some (wait, .failed e)) ∧
        time = ((upToFatal outcomes).map (·.1)).sum +
          (unclosed.trace.map (·.2.nanos)).sum ∧
        ∀ c ∈ closing, time < c) ∧
      ∀ time, run.ended = some (time, .ok ()) ↔
        time ∈ closing ∧ ∀ other e, (other, .giveUp e) ∉ run.trace) := by
  intro run unclosed
  refine ⟨fun hshutting => ?_, fun hopen => ?_⟩
  · have hrun : run = ⟨[], some (0, .ok ())⟩ := by
      simp only [run, acceptLoop, Registry.registerListener, hshutting, if_true]
    rw [hrun]
    exact ⟨rfl, rfl⟩
  · have hloop (closing : Option Nat) : acceptLoop registry closing drawn outcomes =
        acceptFrom closing drawn registry.insertListener .acceptRetry 0 0 outcomes := by
      simp only [acceptLoop, Registry.registerListener, hopen, Bool.false_eq_true, if_false]
    have hlisten : registry.insertListener.shuttingDown = false := hopen
    have hretry : Retries 0 .acceptRetry := Backoff.grown_start _ _
    have hcourse : Course 0 0 registry.nextId outcomes unclosed.trace := by
      simp only [unclosed, hloop none]
      exact course_acceptFrom hlisten UInt64.ofNat_toNat.symm hretry
    have htrace : run.trace = unclosed.trace.filter fun entry => closing.all (entry.1 < ·) := by
      have hbefore : (fun entry : Nat × AcceptAction => closing.all (entry.1 < ·)) =
          fun entry => !closedBy closing entry.1 := by
        funext entry
        cases closing <;> simp [closedBy, ← decide_not]
      rw [hbefore]
      simp only [run, unclosed, hloop]
      exact trace_acceptFrom hlisten hretry
    have hends : Ends closing run := by
      simp only [run, hloop]
      exact ends_acceptFrom hlisten hretry
    refine ⟨hcourse.answers, fun before time action after => hcourse.fits, htrace,
      fun time e => ?_, hends.ok_iff⟩
    rw [hends.error_iff, htrace, List.mem_filter, hcourse.mem_giveUp_iff, Faults, Nat.zero_add,
      and_assoc]
    simp [Option.all_eq_true]

/-- A loop that runs out of descriptors and of memory before its socket breaks, and the same loop
closed in its second pause. -/
theorem acceptLoop_outcome_two_pauses :
    let registry := Registry.initial
    let drawn : Nat → Duration := fun _ => .zero
    let outcomes : List (Nat × AcceptOutcome) :=
      [(2, .connection), (3, .failed (.ofErrno 24)), (1, .failed (.ofErrno 103)),
        (4, .failed (.ofErrno 12)), (0, .connection), (7, .failed (.ofErrno 22))]
    let closed := acceptLoop registry (some 6000000) drawn outcomes
    registry.shuttingDown = false ∧
      (acceptLoop registry none drawn outcomes).ended =
        some (15000017, .error (.ofErrno 22)) ∧
      closed.trace =
        [(2, .handOver 0), (5, .pause (.ofErrno 24) (.ofMillis 5)),
          (5000006, .skip (.ofErrno 103)), (5000010, .pause (.ofErrno 12) (.ofMillis 10))] ∧
      closed.ended = some (6000000, .ok ()) := by
  intro registry drawn outcomes closed
  have hopen : registry.shuttingDown = false := rfl
  obtain ⟨-, -, -, herror, -⟩ := (acceptLoop_outcome registry none drawn outcomes).2 hopen
  obtain ⟨-, -, -, -, hok⟩ := (acceptLoop_outcome registry (some 6000000) drawn outcomes).2 hopen
  have htrace : closed.trace =
      [(2, .handOver 0), (5, .pause (.ofErrno 24) (.ofMillis 5)),
        (5000006, .skip (.ofErrno 103)), (5000010, .pause (.ofErrno 12) (.ofMillis 10))] := by
    decide +kernel
  refine ⟨hopen, (herror _ _).2 ⟨⟨7, by decide⟩, by decide +kernel, nofun⟩, htrace,
    (hok _).2 ⟨rfl, fun other e hgiveUp => ?_⟩⟩
  have hmem : (other, AcceptAction.giveUp e) ∈ closed.trace := hgiveUp
  simp [htrace] at hmem

end CacheServer.Native
