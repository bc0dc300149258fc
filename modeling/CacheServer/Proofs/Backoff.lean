import CacheServer.Backoff

/-!
# How a back-off grows

Below 2^63 seconds neither the jitter nor the doubling leaves the range of durations, so the next
pause exists: it is the base drawn out by at most a tenth, and the base after it is doubled, up to
the longest one (`exists_next`). From 2^63 seconds on the doubling fails at the latest, whatever
was drawn (`next_eq_error_iff`). A back-off whose longest base is in range (`Ready`) therefore
never fails, and its pauses keep between its first base and its longest one drawn out.

Which base a back-off has come to only depends on how many pauses it has given since it was
started or reset (`Grown`). `run_outcome` says so for any sequence of pauses and resets.
-/

namespace CacheServer

namespace Duration

/-- A number of nanoseconds in range is a duration. -/
theorem ofNanos?_of_lt {n : Nat} (h : n < Nat.pow 2 64 * nanosPerSecond) :
    ofNanos? n = some ⟨n, h⟩ :=
  dif_pos h

/-- The shorter of two durations has the smaller number of nanoseconds. -/
theorem nanos_min (a b : Duration) : (a.min b).nanos = Nat.min a.nanos b.nanos := by
  unfold Duration.min
  split
  · next h => exact (Nat.min_eq_left h).symm
  · next h => exact (Nat.min_eq_right (Nat.le_of_not_le h)).symm

end Duration

namespace Backoff

variable {b : Backoff}

/-- Below half of the range there is a next pause, which is the base and the jitter, cut to a tenth
of the base; then the base is doubled, up to the longest one. -/
theorem exists_next (h : b.base.nanos < Nat.pow 2 63 * nanosPerSecond) (drawn : Duration) :
    ∃ pause base : Duration, b.next drawn = .ok (pause, { b with base }) ∧
      pause.nanos = b.base.nanos + Nat.min drawn.nanos (b.base.nanos / 10) ∧
      base.nanos = Nat.min (2 * b.base.nanos) b.max.nanos := by
  have hrange : Nat.pow 2 64 * nanosPerSecond = 2 * (Nat.pow 2 63 * nanosPerSecond) := by decide
  have hjitter : (drawn.min b.base.tenth).nanos = Nat.min drawn.nanos (b.base.nanos / 10) :=
    Duration.nanos_min _ _
  have hle : Nat.min drawn.nanos (b.base.nanos / 10) ≤ b.base.nanos / 10 := Nat.min_le_right _ _
  have hadd : b.base.nanos + (drawn.min b.base.tenth).nanos < Nat.pow 2 64 * nanosPerSecond := by
    rw [hjitter]
    omega
  have hdouble : 2 * b.base.nanos < Nat.pow 2 64 * nanosPerSecond := by omega
  refine ⟨⟨_, hadd⟩, Duration.min ⟨_, hdouble⟩ b.max, ?_, ?_, Duration.nanos_min _ _⟩
  · simp only [next, Duration.add?, Duration.double?, Duration.ofNanos?_of_lt hadd,
      Duration.ofNanos?_of_lt hdouble]
  · exact congrArg (b.base.nanos + ·) hjitter

/-- A pause fails exactly if the base is at least 2^63 seconds; what is drawn does not matter. -/
theorem next_eq_error_iff {drawn : Duration} :
    (∃ overflow, b.next drawn = .error overflow) ↔
      Nat.pow 2 63 * nanosPerSecond ≤ b.base.nanos := by
  constructor
  · rintro ⟨overflow, hnext⟩
    refine Nat.not_lt.1 fun hlt => ?_
    obtain ⟨pause, base, hok, -⟩ := exists_next hlt drawn
    exact nomatch hok.symm.trans hnext
  · intro hle
    have hdouble : b.base.double? = none := by
      have hrange : Nat.pow 2 64 * nanosPerSecond = 2 * (Nat.pow 2 63 * nanosPerSecond) := by decide
      exact dif_neg (by omega)
    cases hadd : b.base.add? (drawn.min b.base.tenth) with
    | none => exact ⟨.addition, by simp only [next, hadd]⟩
    | some pause => exact ⟨.doubling, by simp only [next, hadd, hdouble]⟩

/-- The longest pause of a back-off, with its jitter. -/
def longest (b : Backoff) : Nat := b.max.nanos + b.max.nanos / 10

/-- The base keeps between the first one and the longest one, which is in range. -/
structure Ready (b : Backoff) : Prop where
  initial_le : b.initial.nanos ≤ b.base.nanos
  le_max : b.base.nanos ≤ b.max.nanos
  max_lt : b.max.nanos < Nat.pow 2 63 * nanosPerSecond

/-- The polls of a shutdown begin in range. -/
theorem ready_shutdownPoll : shutdownPoll.Ready where
  initial_le := Nat.le_refl _
  le_max := by decide
  max_lt := by decide

/-- A back-off in range has a next pause, between the first base and the longest pause, and stays in
range. -/
theorem Ready.exists_next (h : b.Ready) (drawn : Duration) :
    ∃ pause base : Duration, b.next drawn = .ok (pause, { b with base }) ∧
      b.initial.nanos ≤ pause.nanos ∧ pause.nanos ≤ b.longest ∧ Ready { b with base } := by
  obtain ⟨hinitial, hmax, hlt⟩ := h
  obtain ⟨pause, base, hnext, hpause, hbase⟩ :=
    Backoff.exists_next (Nat.lt_of_le_of_lt hmax hlt) drawn
  have hjitter : Nat.min drawn.nanos (b.base.nanos / 10) ≤ b.base.nanos / 10 :=
    Nat.min_le_right _ _
  refine ⟨pause, base, hnext, ?_, ?_, ?_, ?_, hlt⟩
  · omega
  · unfold longest
    omega
  · show b.initial.nanos ≤ base.nanos
    rw [hbase]
    exact Nat.le_min.2 ⟨by omega, Nat.le_trans hinitial hmax⟩
  · show base.nanos ≤ b.max.nanos
    rw [hbase]
    exact Nat.min_le_right _ _

/-! ## Any sequence of pauses and resets -/

/-- What is asked of a back-off. -/
inductive Call
  | next (drawn : Duration)
  | reset

/-- The pauses that calls come to, and the back-off after them. -/
def run (b : Backoff) : List Call → Except Overflow (List Duration × Backoff)
  | [] => .ok ([], b)
  | .reset :: calls => b.reset.run calls
  | .next drawn :: calls =>
    match b.next drawn with
    | .error overflow => .error overflow
    | .ok (pause, b) => (b.run calls).map fun (pauses, b) => (pause :: pauses, b)

/-- The number of pauses since the last reset, behind `k` pauses without one. -/
def roundsFrom (k : Nat) : List Call → Nat
  | [] => k
  | .next _ :: calls => roundsFrom (k + 1) calls
  | .reset :: calls => roundsFrom 0 calls

/-- The base after `k` pauses: the first one, and then its `k`-th doubling, up to the longest one.
Only from the first doubling on the longest one counts. -/
def grownBase (initial max : Duration) (k : Nat) : Nat :=
  if k = 0 then initial.nanos else Nat.min (initial.nanos * Nat.pow 2 k) max.nanos

/-- A back-off with these bases that has given `k` pauses since it was started or reset. -/
structure Grown (initial max : Duration) (k : Nat) (b : Backoff) : Prop where
  initial_eq : b.initial = initial
  max_eq : b.max = max
  base_eq : b.base.nanos = grownBase initial max k

variable {initial max : Duration} {k : Nat}

/-- A new back-off has given no pause. -/
theorem grown_start (initial max : Duration) : Grown initial max 0 (start initial max) :=
  ⟨rfl, rfl, rfl⟩

/-- A back-off that is reset has given no pause since. -/
theorem Grown.reset (h : Grown initial max k b) : Grown initial max 0 b.reset :=
  ⟨h.initial_eq, h.max_eq, congrArg Duration.nanos h.initial_eq⟩

/-- Doubling and then cutting takes one closed form to the next: what was cut off before is cut off
again. -/
theorem grownBase_succ (initial max : Duration) (k : Nat) :
    grownBase initial max (k + 1) = Nat.min (2 * grownBase initial max k) max.nanos := by
  have hpow : initial.nanos * Nat.pow 2 (k + 1) = 2 * (initial.nanos * Nat.pow 2 k) := by
    rw [Nat.pow_eq, Nat.pow_succ, ← Nat.mul_assoc, Nat.mul_comm, Nat.pow_eq]
  rw [grownBase, if_neg (Nat.succ_ne_zero k), hpow, grownBase]
  split
  · next h => rw [h, Nat.pow_eq, Nat.pow_zero, Nat.mul_one]
  · show Min.min _ _ = Min.min (2 * Min.min _ _) _
    omega

/-- No base is longer than both the first one and the longest one. -/
theorem grownBase_le (initial max : Duration) (k : Nat) :
    grownBase initial max k ≤ Nat.max initial.nanos max.nanos := by
  unfold grownBase
  split
  · exact Nat.le_max_left _ _
  · exact Nat.le_trans (Nat.min_le_right _ _) (Nat.le_max_right _ _)

/-- What a pause comes to, if there is one. -/
theorem Grown.next {drawn pause : Duration} {b' : Backoff} (h : Grown initial max k b)
    (hnext : b.next drawn = .ok (pause, b')) :
    Grown initial max (k + 1) b' ∧ b.base.nanos ≤ pause.nanos ∧
      pause.nanos ≤ b.base.nanos + b.base.nanos / 10 := by
  have hlt : b.base.nanos < Nat.pow 2 63 * nanosPerSecond := by
    refine Nat.not_le.1 fun hle => ?_
    obtain ⟨overflow, herror⟩ := next_eq_error_iff.2 hle
    exact nomatch hnext.symm.trans herror
  obtain ⟨pause', base, hok, hpause, hbase⟩ := exists_next hlt drawn
  obtain ⟨rfl, rfl⟩ := Prod.mk.inj (Except.ok.inj (hnext.symm.trans hok))
  have hjitter : Nat.min drawn.nanos (b.base.nanos / 10) ≤ b.base.nanos / 10 :=
    Nat.min_le_right _ _
  refine ⟨⟨h.initial_eq, h.max_eq, ?_⟩, ?_, ?_⟩
  · rw [grownBase_succ, ← h.base_eq, ← h.max_eq]
    exact hbase
  · omega
  · omega

/-- Calls that succeed leave a back-off grown by the pauses since the last reset. -/
theorem Grown.run {calls : List Call} {pauses : List Duration} {b' : Backoff}
    (h : Grown initial max k b) (hrun : b.run calls = .ok (pauses, b')) :
    Grown initial max (roundsFrom k calls) b' := by
  induction calls generalizing b k pauses with
  | nil =>
    obtain ⟨-, rfl⟩ := Prod.mk.inj (Except.ok.inj hrun)
    exact h
  | cons call calls ih =>
    cases call with
    | reset => exact ih h.reset hrun
    | next drawn =>
      rw [Backoff.run] at hrun
      cases hnext : b.next drawn with
      | error overflow =>
        rw [hnext] at hrun
        exact nomatch hrun
      | ok result =>
        obtain ⟨pause, b₁⟩ := result
        rw [hnext] at hrun
        cases hrest : b₁.run calls with
        | error overflow =>
          simp only [hrest] at hrun
          exact nomatch hrun
        | ok rest =>
          simp only [hrest] at hrun
          obtain ⟨-, rfl⟩ := Prod.mk.inj (Except.ok.inj hrun)
          exact ih (h.next hnext).1 hrest

/-- Below 2^63 seconds all calls succeed, and no pause is longer than the larger base with a tenth
of it. -/
theorem Grown.exists_run (h : Grown initial max k b)
    (hinitial : initial.nanos < Nat.pow 2 63 * nanosPerSecond)
    (hmax : max.nanos < Nat.pow 2 63 * nanosPerSecond) (calls : List Call) :
    ∃ pauses b', b.run calls = .ok (pauses, b') ∧
      ∀ pause ∈ pauses, 10 * pause.nanos ≤ 11 * Nat.max initial.nanos max.nanos := by
  induction calls generalizing b k with
  | nil => exact ⟨[], b, rfl, nofun⟩
  | cons call calls ih =>
    cases call with
    | reset => exact ih h.reset
    | next drawn =>
      have hle : b.base.nanos ≤ Nat.max initial.nanos max.nanos := by
        rw [h.base_eq]
        exact grownBase_le initial max k
      obtain ⟨pause, base, hnext, -⟩ :=
        exists_next (Nat.lt_of_le_of_lt hle (Nat.max_lt.2 ⟨hinitial, hmax⟩)) drawn
      obtain ⟨hgrown, -, hpause⟩ := h.next hnext
      obtain ⟨pauses, b', hrun, hpauses⟩ := ih hgrown
      refine ⟨pause :: pauses, b', by simp only [Backoff.run, hnext, hrun, Except.map], ?_⟩
      refine List.forall_mem_cons.2 ⟨?_, hpauses⟩
      omega

/-- Whatever is asked of a back-off in whatever order: its base is the first one as long as it has
given no pause since the start or the last reset, and after `k` pauses the `k`-th doubling of it, up
to the longest one. The next pause is the base drawn out by at most a tenth, and there is none
exactly if the base is 2^63 seconds or more, whatever is drawn. With both bases below that, as those
of the two back-offs of the server are, all calls succeed, and no pause is more than a tenth longer
than the larger base. -/
theorem run_outcome (initial max : Duration) (calls : List Call) :
    (∀ pauses b, (start initial max).run calls = .ok (pauses, b) →
      b.base.nanos = (if roundsFrom 0 calls = 0 then initial.nanos
        else Nat.min (initial.nanos * Nat.pow 2 (roundsFrom 0 calls)) max.nanos) ∧
      ∀ drawn,
        (∀ pause b', b.next drawn = .ok (pause, b') →
          b.base.nanos ≤ pause.nanos ∧ pause.nanos ≤ b.base.nanos + b.base.nanos / 10) ∧
        ((∃ overflow, b.next drawn = .error overflow) ↔
          Nat.pow 2 63 * nanosPerSecond ≤ b.base.nanos)) ∧
    (initial.nanos < Nat.pow 2 63 * nanosPerSecond → max.nanos < Nat.pow 2 63 * nanosPerSecond →
      ∃ pauses b, (start initial max).run calls = .ok (pauses, b) ∧
        ∀ pause ∈ pauses, 10 * pause.nanos ≤ 11 * Nat.max initial.nanos max.nanos) ∧
    ∀ preset ∈ [shutdownPoll, acceptRetry], preset = start preset.initial preset.max ∧
      preset.initial.nanos < Nat.pow 2 63 * nanosPerSecond ∧
      preset.max.nanos < Nat.pow 2 63 * nanosPerSecond := by
  refine ⟨fun pauses b hrun => ?_,
    fun hinitial hmax => (grown_start initial max).exists_run hinitial hmax calls, by decide⟩
  have hgrown := (grown_start initial max).run hrun
  exact ⟨hgrown.base_eq, fun drawn => ⟨fun pause b' hnext => (hgrown.next hnext).2,
    next_eq_error_iff⟩⟩

/-- A first base above the longest one is given once, and again after a reset. -/
theorem run_outcome_cut_at_once :
    let initial : Duration := ⟨20, by decide⟩
    let max : Duration := ⟨10, by decide⟩
    let calls : List Call := [.next .zero, .next initial, .reset, .next ⟨1, by decide⟩]
    let half := Nat.pow 2 63 * nanosPerSecond
    initial.nanos < half ∧ max.nanos < half ∧
      ∃ pauses b, (start initial max).run calls = .ok (pauses, b) ∧
        pauses.map (·.nanos) = [20, 11, 21] ∧
        b.base.nanos = Nat.min (initial.nanos * Nat.pow 2 1) max.nanos := by
  intro initial max calls half
  have hinitial : initial.nanos < half := by decide
  have hmax : max.nanos < half := by decide
  obtain ⟨hstate, hruns, -⟩ := run_outcome initial max calls
  obtain ⟨pauses, b, hrun, -⟩ := hruns hinitial hmax
  have hpauses : some (pauses.map (·.nanos)) =
      ((start initial max).run calls).toOption.map fun r => r.1.map (·.nanos) := by
    rw [hrun]
    rfl
  exact ⟨hinitial, hmax, pauses, b, hrun, Option.some.inj (hpauses.trans (by decide)),
    (hstate pauses b hrun).1⟩

end Backoff

end CacheServer
