import CacheServer.Native.Interleaving
import CacheServer.Proofs.Native.Registry
import Mathlib.Data.List.Infix

/-!
# What no interleaving can do

The flag that announces a shutdown is set without the lock, so a call may have read it as not set
and enter something when it is set already. That nothing escapes a close rests on an order: the flag
is announced before anything is drained, and it is read in the critical section in which something
is entered. `Guarded` says this of the actions that a call has still to take, rule by rule, and the
program of every call is guarded. `Orderly` is what every event keeps: the task in its critical
section holds the lock, and once something was drained, whoever has read the flag since it took the
lock has read it as set. `no_escape` is what follows for all runs.

The same discipline lets a call run to its end on its own, and then its actions make up the call of
the registry that they stand for (`exists_run_alone`).
-/

namespace CacheServer.Native

/-! ## The discipline of a call -/

/-- The actions that a call may have still to take, by whether it is in its critical section,
whether it has announced a shutdown, and whether it has read the flag in this critical section. -/
inductive Guarded : (inside announced asked : Bool) → List Action → Prop
  | done {announced : Bool} : Guarded false announced false []
  | lock {announced : Bool} {todo : List Action} :
      Guarded true announced false todo → Guarded false announced false (.lock :: todo)
  | unlock {announced asked : Bool} {todo : List Action} :
      Guarded false announced false todo → Guarded true announced asked (.unlock :: todo)
  | readFlag {announced asked : Bool} {todo : List Action} :
      Guarded true announced true todo → Guarded true announced asked (.readFlag :: todo)
  /-- Nothing is entered unless the flag has been read. -/
  | insert {announced : Bool} {todo : List Action} :
      Guarded true announced true todo → Guarded true announced true (.insert :: todo)
  | insertListener {announced : Bool} {todo : List Action} :
      Guarded true announced true todo → Guarded true announced true (.insertListener :: todo)
  | remove {announced asked : Bool} {id : Nat} {todo : List Action} :
      Guarded true announced asked todo → Guarded true announced asked (.remove id :: todo)
  | announceShutdown {announced : Bool} {todo : List Action} :
      Guarded false true false todo → Guarded false announced false (.announceShutdown :: todo)
  /-- Nothing is drained unless a shutdown has been announced. -/
  | drainListeners {todo : List Action} :
      Guarded true true false todo → Guarded true true false (.drainListeners :: todo)
  | drainConnections {todo : List Action} :
      Guarded true true false todo → Guarded true true false (.drainConnections :: todo)

/-- Every call keeps the order of lock, flag and entry. -/
theorem guarded_program : ∀ call : Call, Guarded false false false call.program
  | .register => .lock (.readFlag (.insert (.unlock .done)))
  | .listen => .lock (.readFlag (.insertListener (.unlock .done)))
  | .drop _ => .lock (.remove (.unlock .done))
  | .close =>
    .announceShutdown
      (.lock (.drainListeners (.unlock (.lock (.drainConnections (.unlock .done))))))
  | .shutdown => .announceShutdown (.lock (.drainListeners (.unlock .done)))

/-- Only the call that drops a registration removes it. -/
theorem Call.eq_drop_of_mem {call : Call} {id : Nat} (h : .remove id ∈ call.program) :
    call = .drop id := by
  cases call with
  | drop other =>
    obtain rfl : id = other := by simpa [program] using h
    rfl
  | register | listen | close | shutdown => simp [program] at h

/-- Only a registration enters a connection. -/
theorem Call.eq_register_of_mem {call : Call} (h : .insert ∈ call.program) : call = .register := by
  cases call with
  | register => rfl
  | listen | drop | close | shutdown => simp [program] at h

/-- Apart from taking and leaving the lock, a call takes no action twice. -/
theorem Call.once {call : Call} {action : Action} {todo : List Action}
    (h : action :: todo <:+ call.program) (hlock : action ≠ .lock) (hunlock : action ≠ .unlock) :
    action ∈ call.program ∧ action ∉ todo := by
  have hcount : call.program.count action ≤ 1 := by
    cases call <;> simp only [program, List.count_cons, List.count_nil] <;> grind
  refine ⟨h.subset List.mem_cons_self, fun hmem => ?_⟩
  have htodo : 0 < todo.count action := List.count_pos_iff.2 hmem
  have hle := h.sublist.count_le action
  rw [List.count_cons_self] at hle
  omega

/-- The actions that take everything out of a part of the registry. -/
def Action.Drains : Action → Prop
  | .drainListeners | .drainConnections => True
  | _ => False

/-- The actions that enter something. -/
def Action.Enters : Action → Prop
  | .insert | .insertListener => True
  | _ => False

variable {inside announced asked : Bool} {action : Action} {todo : List Action}

/-- The flag counts as read in a critical section only. -/
theorem Guarded.inside_of_asked (h : Guarded inside announced true todo) : inside = true := by
  cases h <;> rfl

/-- What drains holds the lock and has announced the shutdown. -/
theorem Guarded.of_drains (h : Guarded inside announced asked (action :: todo))
    (hdrains : action.Drains) : inside = true ∧ announced = true ∧ asked = false := by
  cases h with
  | drainListeners | drainConnections => exact ⟨rfl, rfl, rfl⟩
  | _ => exact hdrains.elim

/-- What enters has read the flag. -/
theorem Guarded.of_enters (h : Guarded inside announced asked (action :: todo))
    (henters : action.Enters) : asked = true := by
  cases h with
  | insert | insertListener => rfl
  | _ => exact henters.elim

/-! ## What an event does -/

/-- Whether a task has taken an action of its call. -/
def Task.HasTaken (t : Task) (a : Action) : Prop := a ∈ t.call.program ∧ a ∉ t.todo

instance (t : Task) (a : Action) : Decidable (t.HasTaken a) :=
  inferInstanceAs (Decidable (_ ∧ _))

namespace Schedule

/-- A run after the task `i` has taken its next action. -/
def acted (s : Schedule) (i : Nat) (call : Call) (action : Action) (todo : List Action)
    (refused : Bool) (holder : Option Nat) : Schedule :=
  ⟨effect refused s.registry action, holder, s.tasks.set i
    ⟨call, todo, if action = .readFlag then s.registry.shuttingDown else refused⟩⟩

/-- The ways in which an event can go. -/
inductive Goes (s : Schedule) : Schedule → Prop
  | nothing : Goes s s
  | begun {call : Call} : Goes s { s with tasks := s.tasks ++ [.start call] }
  | acts {i : Nat} {call : Call} {action : Action} {todo : List Action} {refused : Bool}
      {holder : Option Nat} : s.tasks[i]? = some ⟨call, action :: todo, refused⟩ →
      holderAfter? s.holder i action = some holder →
      Goes s (s.acted i call action todo refused holder)

/-- Every event is one of the ways in which a schedule can go. -/
theorem goes_step (s : Schedule) (event : Event) : s.Goes (s.step event) := by
  cases event with
  | begin call =>
    rw [step]
    split
    · exact .begun
    · exact .nothing
  | run i =>
    rw [step]
    fun_cases s.advance i with
    | case1 => exact .nothing
    | case2 call action todo refused htask holder hholder => exact .acts htask hholder
    | case3 => exact .nothing

/-- Whether a call of a run has taken an action. -/
def HasTaken (s : Schedule) (a : Action) : Prop := ∃ t ∈ s.tasks, t.HasTaken a

/-- Whether anything has been drained in a run. -/
def HasDrained (s : Schedule) : Prop := ∃ a : Action, a.Drains ∧ s.HasTaken a

/-- How many tasks have come past entering a connection; this many ids were handed out at most. -/
def entered (s : Schedule) : Nat := s.tasks.countP fun t => t.HasTaken .insert

/-- What a task relies on between two of its actions. -/
structure Stands (s : Schedule) (i : Nat) (t : Task) (inside announced asked : Bool) : Prop where
  guarded : Guarded inside announced asked t.todo
  inside : inside = true ↔ s.holder = some i
  announced : announced = true → s.registry.shuttingDown = true
  /-- Once something was drained, the flag has been read as set. -/
  asked : asked = true → s.HasDrained → t.refused = true

/-- What every event keeps. -/
structure Orderly (s : Schedule) : Prop where
  stands : ∀ i t, s.tasks[i]? = some t →
    ∃ inside announced asked, s.Stands i t inside announced asked
  rest : ∀ t ∈ s.tasks, t.todo <:+ t.call.program
  holder_lt : ∀ i, s.holder = some i → i < s.tasks.length
  flag : s.HasDrained → s.registry.shuttingDown = true
  connections : s.HasTaken .drainConnections → s.registry.connections = []
  listeners : s.HasTaken .drainListeners → s.registry.listeners = []
  /-- As long as the counter of the ids has not come round, no two registrations have the same. -/
  numbered : s.entered ≤ UInt64.size → ∃ n ≤ s.entered, s.registry.Numbered n
  /-- A held registration is then in the registry, or is cancelled. -/
  known : s.entered ≤ UInt64.size →
    ∀ id ∈ s.registry.held, id ∈ s.registry.connections ∨ id ∈ s.registry.cancelled

/-! ### On the registry -/

variable {refused : Bool} {r : Registry}

/-- No action takes the announcement of a shutdown back. -/
theorem shuttingDown_effect (h : r.shuttingDown = true) :
    (effect refused r action).shuttingDown = true := by
  cases action with
  | announceShutdown => rfl
  | insert | insertListener => cases refused <;> exact h
  | lock | unlock | readFlag | remove | drainListeners | drainConnections => exact h

/-- Nothing is entered by a task that has read the flag as set. -/
theorem connections_effect (h : r.connections = []) (hrefused : action.Enters → refused = true) :
    (effect refused r action).connections = [] := by
  cases action with
  | insert =>
    rw [effect, if_pos (hrefused trivial)]
    exact h
  | remove id => exact List.filter_eq_nil_iff.2 fun other hother => nomatch h ▸ hother
  | drainConnections => rfl
  | insertListener => cases refused <;> exact h
  | lock | unlock | readFlag | announceShutdown | drainListeners => exact h

/-- Drained listeners stay drained as long as whoever enters one is refused. -/
theorem listeners_effect (h : r.listeners = []) (hrefused : action.Enters → refused = true) :
    (effect refused r action).listeners = [] := by
  cases action with
  | insertListener =>
    rw [effect, if_pos (hrefused trivial)]
    exact h
  | drainListeners => rfl
  | insert => cases refused <;> exact h
  | lock | unlock | readFlag | remove | announceShutdown | drainConnections => exact h

/-- To enter a connection hands out one id, and no other action does. -/
theorem exists_numbered_effect {n : Nat} (h : r.Numbered n)
    (hn : action = .insert → n < UInt64.size) :
    ∃ m ≤ n + (if action = .insert then 1 else 0), (effect refused r action).Numbered m := by
  cases action with
  | insert =>
    cases refused with
    | true => exact ⟨n, Nat.le_succ n, h⟩
    | false => exact ⟨n + 1, Nat.le_refl _, h.insert (hn rfl)⟩
  | remove id => exact ⟨n, Nat.le_refl n, h.remove id⟩
  | insertListener => cases refused <;> exact ⟨n, Nat.le_refl n, h.next, h.held_lt, h.nodup⟩
  | lock | unlock | readFlag | announceShutdown | drainListeners | drainConnections =>
    exact ⟨n, Nat.le_refl n, h.next, h.held_lt, h.nodup⟩

/-- A connection leaves the registry with its removal, or it is cancelled. -/
theorem connection_effect {id : Nat} (h : id ∈ r.connections ∨ id ∈ r.cancelled) :
    (id ∈ (effect refused r action).connections ∨ id ∈ (effect refused r action).cancelled) ∨
      action = .remove id := by
  cases action with
  | insert =>
    cases refused with
    | true => exact .inl h
    | false =>
      rcases eq_or_ne id r.nextId with rfl | hne
      · exact .inl (.inl List.mem_cons_self)
      · exact .inl (h.imp_left fun hmem =>
          List.mem_cons_of_mem _ (List.mem_filter.2 ⟨hmem, bne_iff_ne.2 hne⟩))
  | remove other =>
    rcases eq_or_ne id other with rfl | hne
    · exact .inr rfl
    · exact .inl (h.imp_left fun hmem => List.mem_filter.2 ⟨hmem, bne_iff_ne.2 hne⟩)
  | drainConnections => exact .inl (.inr (List.mem_append.2 h))
  | insertListener => cases refused <;> exact .inl h
  | lock | unlock | readFlag | announceShutdown | drainListeners => exact .inl h

/-- A registration that is held after an action was held before, or its connection is entered. -/
theorem held_effect {id : Nat} (h : id ∈ (effect refused r action).held) :
    id ∈ r.held ∨ id ∈ (effect refused r action).connections := by
  cases action with
  | insert =>
    cases refused with
    | true => exact .inl h
    | false =>
      rcases List.mem_cons.1 h with rfl | hold
      · exact .inr List.mem_cons_self
      · exact .inl hold
  | remove other => exact .inl (List.mem_of_mem_erase h)
  | insertListener => cases refused <;> exact .inl h
  | lock | unlock | readFlag | announceShutdown | drainListeners | drainConnections => exact .inl h

/-- A held registration remains known, as long as no two have the same id. -/
theorem known_effect (hnodup : r.held.Nodup)
    (h : ∀ id ∈ r.held, id ∈ r.connections ∨ id ∈ r.cancelled) :
    ∀ id ∈ (effect refused r action).held,
      id ∈ (effect refused r action).connections ∨ id ∈ (effect refused r action).cancelled := by
  intro id hid
  rcases held_effect hid with hold | hnew
  · refine (connection_effect (h id hold)).resolve_right fun hremoves => ?_
    subst hremoves
    exact hnodup.not_mem_erase hid
  · exact .inl hnew

/-- No action loses a listener: it is registered or its token is cancelled. -/
theorem listener_effect {id : Nat} (h : id ∈ r.listeners ∨ id ∈ r.closedListeners) :
    id ∈ (effect refused r action).listeners ∨ id ∈ (effect refused r action).closedListeners := by
  cases action with
  | insertListener =>
    cases refused with
    | true => exact h
    | false => exact h.imp_left (List.mem_cons_of_mem _)
  | drainListeners => exact .inr (List.mem_append.2 h)
  | insert => cases refused <;> exact h
  | lock | unlock | readFlag | remove | announceShutdown | drainConnections => exact h

/-! ### On the tasks -/

variable {s s' : Schedule} {i j : Nat} {call : Call} {holder : Option Nat} {t : Task} {a : Action}

/-- An action that has been taken behind an action was taken before, or is this one. -/
theorem hasTaken_acted (htask : s.tasks[i]? = some ⟨call, action :: todo, refused⟩)
    (h : (s.acted i call action todo refused holder).HasTaken a) : s.HasTaken a ∨ a = action := by
  obtain ⟨t, ht, hprogram, htodo⟩ := h
  rcases List.mem_or_eq_of_mem_set ht with ht | rfl
  · exact .inl ⟨t, ht, hprogram, htodo⟩
  · by_cases ha : a = action
    · exact .inr ha
    · exact .inl ⟨_, List.mem_of_getElem? htask, hprogram, by simpa [ha] using htodo⟩

/-- What has been drained behind an action was drained before, or by it. -/
theorem hasDrained_acted (htask : s.tasks[i]? = some ⟨call, action :: todo, refused⟩)
    (h : (s.acted i call action todo refused holder).HasDrained) :
    s.HasDrained ∨ action.Drains := by
  obtain ⟨a, hdrains, htaken⟩ := h
  rcases hasTaken_acted htask htaken with htaken | rfl
  · exact .inl ⟨a, hdrains, htaken⟩
  · exact .inr hdrains

/-- To begin a call takes no action. -/
theorem hasTaken_begun
    (h : HasTaken { s with tasks := s.tasks ++ [.start call] } a) : s.HasTaken a := by
  obtain ⟨t, ht, hprogram, htodo⟩ := h
  rcases List.mem_append.1 ht with ht | ht
  · exact ⟨t, ht, hprogram, htodo⟩
  · rw [List.mem_singleton.1 ht] at hprogram htodo
    exact absurd hprogram htodo

/-- A call that was begun has not entered anything. -/
theorem entered_begun (s : Schedule) (call : Call) :
    entered { s with tasks := s.tasks ++ [.start call] } = s.entered := by
  have hstart : ¬ (Task.start call).HasTaken .insert := fun htaken => htaken.2 htaken.1
  simp [entered, hstart]

/-- A task comes past entering a connection with this action, and not otherwise. -/
theorem entered_acted (htask : s.tasks[i]? = some ⟨call, action :: todo, refused⟩)
    (hrest : action :: todo <:+ call.program) :
    (s.acted i call action todo refused holder).entered =
      s.entered + if action = .insert then 1 else 0 := by
  obtain ⟨hlt, hget⟩ := List.getElem?_eq_some_iff.1 htask
  simp only [entered, acted, List.countP_set hlt, hget, decide_eq_true_eq]
  by_cases hinsert : action = .insert
  · subst hinsert
    have htaken := Call.once hrest nofun nofun
    simp [Task.HasTaken, htaken]
  · have hsame (saw : Bool) : Task.HasTaken ⟨call, todo, saw⟩ .insert ↔
        Task.HasTaken ⟨call, action :: todo, refused⟩ .insert := by
      simp [Task.HasTaken, Ne.symm hinsert]
    simp only [hsame, if_neg hinsert, Nat.add_zero]
    split
    · next htaken =>
      have hpos : 0 < s.tasks.countP fun t => t.HasTaken .insert :=
        List.countP_pos_iff.2 ⟨_, List.mem_of_getElem? htask, decide_eq_true htaken⟩
      omega
    · rfl

/-- The lock passes between the acting task and nobody. -/
theorem holder_eq_other_iff (hne : j ≠ i)
    (hstands : s.Stands i ⟨call, action :: todo, refused⟩ inside announced asked)
    (hholder : holderAfter? s.holder i action = some holder) :
    holder = some j ↔ s.holder = some j := by
  obtain ⟨hguarded, hinside, -, -⟩ := hstands
  cases hguarded with
  | lock =>
    obtain ⟨hfree, rfl⟩ : s.holder = none ∧ some i = holder := by
      simpa [holderAfter?] using hholder
    simp [hfree, hne.symm]
  | unlock =>
    obtain rfl : none = holder := by simpa [holderAfter?] using hholder
    simp [hinside.1 rfl, hne.symm]
  | readFlag | insert | insertListener | remove | announceShutdown | drainListeners
  | drainConnections =>
    cases hholder
    rfl

/-- The acting task stands as its rule says. -/
theorem Stands.act (h : s.Stands i ⟨call, action :: todo, refused⟩ inside announced asked)
    (hflag : s.HasDrained → s.registry.shuttingDown = true)
    (htask : s.tasks[i]? = some ⟨call, action :: todo, refused⟩)
    (hholder : holderAfter? s.holder i action = some holder) :
    ∃ inside announced asked, (s.acted i call action todo refused holder).Stands i
      ⟨call, todo, if action = .readFlag then s.registry.shuttingDown else refused⟩
      inside announced asked := by
  obtain ⟨hguarded, hinside, hannounced, hasked⟩ := h
  have hstill : announced = true → (effect refused s.registry action).shuttingDown = true :=
    fun h => shuttingDown_effect (hannounced h)
  have hdrained : (s.acted i call action todo refused holder).HasDrained →
      s.HasDrained ∨ action.Drains :=
    hasDrained_acted htask
  cases hguarded with
  | lock hrest =>
    obtain ⟨-, rfl⟩ : s.holder = none ∧ some i = holder := by simpa [holderAfter?] using hholder
    exact ⟨true, announced, false, hrest, iff_of_true rfl rfl, hstill, nofun⟩
  | unlock hrest =>
    obtain rfl : none = holder := by simpa [holderAfter?] using hholder
    exact ⟨false, announced, false, hrest, iff_of_false nofun nofun, hstill, nofun⟩
  | readFlag hrest =>
    cases hholder
    exact ⟨true, announced, true, hrest, hinside, hstill,
      fun _ h => hflag ((hdrained h).resolve_right id)⟩
  | insert hrest | insertListener hrest =>
    cases hholder
    exact ⟨true, announced, true, hrest, hinside, hstill,
      fun _ h => hasked rfl ((hdrained h).resolve_right id)⟩
  | remove hrest =>
    cases hholder
    exact ⟨true, announced, asked, hrest, hinside, hstill,
      fun hread h => hasked hread ((hdrained h).resolve_right id)⟩
  | announceShutdown hrest =>
    cases hholder
    exact ⟨false, true, false, hrest, hinside, fun _ => rfl, nofun⟩
  | drainListeners hrest | drainConnections hrest =>
    cases hholder
    exact ⟨true, true, false, hrest, hinside, hstill, nofun⟩

/-- The others stand as before: what is drained is drained in the critical section, and then no
other task is in its own. -/
theorem Stands.other {inside' announced' asked' : Bool}
    (h : s.Stands j t inside announced asked) (hne : j ≠ i)
    (hacting : s.Stands i ⟨call, action :: todo, refused⟩ inside' announced' asked')
    (htask : s.tasks[i]? = some ⟨call, action :: todo, refused⟩)
    (hholder : holderAfter? s.holder i action = some holder) :
    (s.acted i call action todo refused holder).Stands j t inside announced asked where
  guarded := h.guarded
  inside := h.inside.trans (holder_eq_other_iff hne hacting hholder).symm
  announced ha := shuttingDown_effect (h.announced ha)
  asked ha hdrained := by
    rcases hasDrained_acted htask hdrained with hdrained | hdrains
    · exact h.asked ha hdrained
    · have hi := hacting.inside.1 (hacting.guarded.of_drains hdrains).1
      subst ha
      have hj := h.inside.1 h.guarded.inside_of_asked
      exact absurd (Option.some.inj (hj.symm.trans hi)) hne

/-! ### On the whole -/

/-- Nothing is under way at the beginning. -/
theorem orderly_initial : Orderly initial where
  stands := nofun
  rest := nofun
  holder_lt := nofun
  flag := fun ⟨_, _, _, ht, _⟩ => nomatch ht
  connections := fun _ => rfl
  listeners := fun _ => rfl
  numbered := fun _ => ⟨0, Nat.le_refl 0, Registry.numbered_initial⟩
  known := nofun

/-- To begin a call keeps the order. -/
theorem Orderly.begun (h : s.Orderly) (call : Call) :
    Orderly { s with tasks := s.tasks ++ [.start call] } where
  stands i t ht := by
    rcases Nat.lt_or_ge i s.tasks.length with hi | hi
    · rw [List.getElem?_append_left hi] at ht
      obtain ⟨inside, announced, asked, hstands⟩ := h.stands i t ht
      exact ⟨inside, announced, asked, hstands.guarded, hstands.inside, hstands.announced,
        fun ha ⟨a, hdrains, htaken⟩ => hstands.asked ha ⟨a, hdrains, hasTaken_begun htaken⟩⟩
    · rw [List.getElem?_append_right hi] at ht
      obtain rfl := List.mem_singleton.1 (List.mem_of_getElem? ht)
      have hfree : s.holder ≠ some i := fun hi' => Nat.not_lt.2 hi (h.holder_lt i hi')
      exact ⟨false, false, false, guarded_program call, iff_of_false nofun hfree, nofun, nofun⟩
  rest t ht := by
    rcases List.mem_append.1 ht with ht | ht
    · exact h.rest t ht
    · rw [List.mem_singleton.1 ht]
      exact List.suffix_rfl
  holder_lt i hi := by
    rw [List.length_append]
    exact Nat.lt_add_right _ (h.holder_lt i hi)
  flag := fun ⟨a, hdrains, htaken⟩ => h.flag ⟨a, hdrains, hasTaken_begun htaken⟩
  connections htaken := h.connections (hasTaken_begun htaken)
  listeners htaken := h.listeners (hasTaken_begun htaken)
  numbered := by
    rw [entered_begun]
    exact h.numbered
  known := by
    rw [entered_begun]
    exact h.known

/-- An action keeps the order. -/
theorem Orderly.acts (h : s.Orderly)
    (htask : s.tasks[i]? = some ⟨call, action :: todo, refused⟩)
    (hholder : holderAfter? s.holder i action = some holder) :
    (s.acted i call action todo refused holder).Orderly := by
  obtain ⟨inside, announced, asked, hstands⟩ := h.stands i _ htask
  have hrefused : s.HasDrained → action.Enters → refused = true := fun hdrained henters =>
    hstands.asked (hstands.guarded.of_enters henters) hdrained
  have hlt := (List.getElem?_eq_some_iff.1 htask).1
  have hentered : (s.acted i call action todo refused holder).entered =
      s.entered + if action = .insert then 1 else 0 :=
    entered_acted htask (h.rest _ (List.mem_of_getElem? htask))
  constructor
  case stands =>
    intro j t ht
    rcases eq_or_ne j i with rfl | hne
    · obtain rfl := Option.some.inj ((List.getElem?_set_self hlt).symm.trans ht)
      exact hstands.act h.flag htask hholder
    · rw [acted, List.getElem?_set_ne hne.symm] at ht
      obtain ⟨inside, announced, asked, hother⟩ := h.stands j t ht
      exact ⟨inside, announced, asked, hother.other hne hstands htask hholder⟩
  case rest =>
    intro t ht
    rcases List.mem_or_eq_of_mem_set ht with ht | rfl
    · exact h.rest t ht
    · exact (List.suffix_cons action todo).trans (h.rest _ (List.mem_of_getElem? htask))
  case holder_lt =>
    intro j hj
    rw [acted, List.length_set]
    rcases eq_or_ne j i with rfl | hne
    · exact hlt
    · exact h.holder_lt j ((holder_eq_other_iff hne hstands hholder).1 hj)
  case flag =>
    intro hdrained
    rcases hasDrained_acted htask hdrained with hdrained | hdrains
    · exact shuttingDown_effect (h.flag hdrained)
    · exact shuttingDown_effect (hstands.announced (hstands.guarded.of_drains hdrains).2.1)
  case connections =>
    intro htaken
    rcases hasTaken_acted htask htaken with htaken | rfl
    · exact connections_effect (h.connections htaken)
        (hrefused ⟨.drainConnections, trivial, htaken⟩)
    · rfl
  case listeners =>
    intro htaken
    rcases hasTaken_acted htask htaken with htaken | rfl
    · exact listeners_effect (h.listeners htaken) (hrefused ⟨.drainListeners, trivial, htaken⟩)
    · rfl
  case numbered =>
    intro hfew
    rw [hentered] at hfew ⊢
    obtain ⟨n, hn, hnumbered⟩ := h.numbered (Nat.le_of_add_right_le hfew)
    have hroom : action = .insert → n < UInt64.size := by
      intro hinsert
      rw [if_pos hinsert] at hfew
      exact Nat.lt_of_le_of_lt hn hfew
    obtain ⟨m, hm, heffect⟩ : ∃ m ≤ n + (if action = .insert then 1 else 0),
        (effect refused s.registry action).Numbered m := exists_numbered_effect hnumbered hroom
    exact ⟨m, Nat.le_trans hm (Nat.add_le_add_right hn _), heffect⟩
  case known =>
    intro hfew
    rw [hentered] at hfew
    have hbefore := Nat.le_of_add_right_le hfew
    obtain ⟨n, -, hnumbered⟩ := h.numbered hbefore
    exact known_effect hnumbered.nodup (h.known hbefore)

/-- A step keeps the order. -/
theorem Orderly.goes (h : s.Orderly) (hgoes : s.Goes s') : s'.Orderly := by
  cases hgoes with
  | nothing => exact h
  | begun => exact h.begun _
  | acts htask hholder => exact h.acts htask hholder

/-- Events behind others start from what these leave. -/
theorem after_append (events more : List Event) :
    after (events ++ more) = more.foldl step (after events) :=
  List.foldl_append

/-- Every state that is reached is in order. -/
theorem orderly_after (events : List Event) : (after events).Orderly := by
  induction events using List.reverseRecOn with
  | nil => exact orderly_initial
  | append_singleton earlier event ih =>
    rw [after_append]
    exact ih.goes (goes_step _ event)

/-- What every event keeps in an orderly run holds to the end once it holds. -/
theorem of_prefix {P : Schedule → Prop}
    (hkeeps : ∀ s s' : Schedule, s.Orderly → s.Goes s' → P s → P s')
    {earlier events : List Event} (hstart : earlier <+: events) (h : P (after earlier)) :
    P (after events) := by
  obtain ⟨more, rfl⟩ := hstart
  induction more using List.reverseRecOn with
  | nil => rwa [List.append_nil]
  | append_singleton more event ih =>
    rw [← List.append_assoc, after_append]
    exact hkeeps _ _ (orderly_after _) (goes_step _ event) ih

/-- What was taken stays taken. -/
theorem Goes.hasTaken (hgoes : s.Goes s') (h : s.HasTaken a) : s'.HasTaken a := by
  cases hgoes with
  | nothing => exact h
  | begun =>
    obtain ⟨t, ht, htaken⟩ := h
    exact ⟨t, List.mem_append_left _ ht, htaken⟩
  | @acts i call action todo refused holder htask hholder =>
    obtain ⟨t, ht, hprogram, htodo⟩ := h
    obtain ⟨j, hj⟩ := List.mem_iff_getElem?.1 ht
    rcases eq_or_ne j i with rfl | hne
    · obtain rfl := Option.some.inj (htask.symm.trans hj)
      have hlt := (List.getElem?_eq_some_iff.1 htask).1
      exact ⟨_, List.mem_set hlt _, hprogram, fun h => htodo (List.mem_cons_of_mem _ h)⟩
    · exact ⟨t, List.mem_of_getElem? ((List.getElem?_set_ne hne.symm).trans hj), hprogram, htodo⟩

/-- No step loses a listener. -/
theorem Goes.listener {id : Nat} (hgoes : s.Goes s')
    (h : id ∈ s.registry.listeners ∨ id ∈ s.registry.closedListeners) :
    id ∈ s'.registry.listeners ∨ id ∈ s'.registry.closedListeners := by
  cases hgoes with
  | nothing | begun => exact h
  | acts htask hholder => exact listener_effect h

/-- A registration that is held after a step was held before, or its connection is entered. -/
theorem Goes.held {id : Nat} (hgoes : s.Goes s') (h : id ∈ s'.registry.held) :
    id ∈ s.registry.held ∨ id ∈ s'.registry.connections := by
  cases hgoes with
  | nothing | begun => exact .inl h
  | acts => exact held_effect h

/-- What has become of a connection: it is registered or cancelled, or a call has removed its id. -/
def Traced (s : Schedule) (id : Nat) : Prop :=
  (id ∈ s.registry.connections ∨ id ∈ s.registry.cancelled) ∨ s.HasTaken (.remove id)

/-- No step loses a connection. -/
theorem Goes.traced {id : Nat} (horderly : s.Orderly) (hgoes : s.Goes s') (h : s.Traced id) :
    s'.Traced id := by
  rcases h with h | h
  · cases hgoes with
    | nothing | begun => exact .inl h
    | @acts i call action todo refused holder htask hholder =>
      refine (connection_effect h).imp_right fun haction => ?_
      subst haction
      have hlt := (List.getElem?_eq_some_iff.1 htask).1
      exact ⟨_, List.mem_set hlt _,
        Call.once (horderly.rest _ (List.mem_of_getElem? htask)) nofun nofun⟩
  · exact .inr (hgoes.hasTaken h)

/-- A registration that is held has a connection that is not lost. -/
theorem traced_after (events : List Event) :
    ∀ id ∈ (after events).registry.held, (after events).Traced id := by
  induction events using List.reverseRecOn with
  | nil => exact nofun
  | append_singleton earlier event ih =>
    intro id hid
    rw [after_append] at hid ⊢
    have hgoes : (after earlier).Goes ([event].foldl step (after earlier)) := goes_step _ event
    rcases hgoes.held hid with hold | hnew
    · exact hgoes.traced (orderly_after earlier) (ih id hold)
    · exact .inl (.inl hnew)

/-! ## A call on its own -/

section
variable {r : Registry} {tasks : List Task} {holder next : Option Nat} {refused : Bool}

/-- The registry after actions that nothing interrupts. -/
def uninterrupted (refused : Bool) (r : Registry) : List Action → Registry
  | [] => r
  | action :: todo =>
    uninterrupted (if action = .readFlag then r.shuttingDown else refused)
      (effect refused r action) todo

/-- The single actions of a call make up what it does in one piece. -/
theorem uninterrupted_program (h : s.admits call = true) :
    uninterrupted false s.registry call.program = (s.registry.perform call).2 := by
  cases call with
  | register | listen =>
    cases hshut : s.registry.shuttingDown <;>
      simp [uninterrupted, Call.program, effect, Registry.perform, Registry.register,
        Registry.registerListener, hshut]
  | drop id =>
    have hid : id ∈ s.registry.held :=
      List.count_pos_iff.1 (Nat.zero_lt_of_lt (of_decide_eq_true h))
    rw [Registry.perform, Registry.drop_of_mem hid]
    rfl
  | close | shutdown => rfl

/-- The task that was begun last takes its next action. -/
theorem step_run_last (h : holderAfter? holder tasks.length action = some next) :
    step ⟨r, holder, tasks ++ [⟨call, action :: todo, refused⟩]⟩ (.run tasks.length) =
      ⟨effect refused r action, next, tasks ++
        [⟨call, todo, if action = .readFlag then r.shuttingDown else refused⟩]⟩ := by
  simp [step, advance, h]

/-- A guarded task comes to its end if nobody else holds the lock. -/
theorem exists_run_last (h : Guarded inside announced asked todo) (r : Registry) (refused : Bool) :
    ∃ saw, (List.replicate todo.length (.run tasks.length)).foldl step
      ⟨r, if inside then some tasks.length else none, tasks ++ [⟨call, todo, refused⟩]⟩ =
      ⟨uninterrupted refused r todo, none, tasks ++ [⟨call, [], saw⟩]⟩ := by
  induction h generalizing r refused with
  | done => exact ⟨refused, rfl⟩
  | _ _ ih =>
    rw [List.length_cons, List.replicate_succ, List.foldl_cons, step_run_last rfl]
    exact ih _ _

/-- A call that nothing interleaves with does in single actions what it does in one piece, and
leaves the lock free. -/
theorem exists_run_alone (hfree : s.holder = none) (hadmits : s.admits call = true) :
    ∃ saw, (List.replicate call.program.length (.run s.tasks.length)).foldl step
      (s.step (.begin call)) =
      ⟨(s.registry.perform call).2, none, s.tasks ++ [⟨call, [], saw⟩]⟩ := by
  obtain ⟨registry, holder, tasks⟩ := s
  cases hfree
  rw [step, if_pos hadmits, ← uninterrupted_program hadmits]
  exact exists_run_last (guarded_program call) registry false

end

/-! ## What no run reaches -/

/-- In every run in which a close has drained the connections, which it has when it is over: the
registry is empty from here on, whatever follows, and every registration that was ever handed out is
cancelled, or one with its id has been dropped. If there were no more registrations than ids, no two
of those that are held have the same id, and all of them are cancelled. In every run in which a
close or a shutdown has drained the listeners: there is none from here on, so none is pushed any
more, and every one that was ever pushed is cancelled. -/
theorem no_escape (events : List Event) :
    let s := after events
    (∀ t ∈ s.tasks, t.call = .close → .drainConnections ∉ t.todo →
      (∀ more, (after (events ++ more)).registry.connections = []) ∧
      (∀ earlier, earlier <+: events → ∀ id ∈ (after earlier).registry.held,
        id ∈ s.registry.cancelled ∨ ∃ u ∈ s.tasks, u.call = .drop id ∧ .remove id ∉ u.todo) ∧
      ((s.tasks.countP fun u => u.call = .register) ≤ UInt64.size →
        s.registry.held.Nodup ∧ ∀ id ∈ s.registry.held, id ∈ s.registry.cancelled)) ∧
    ∀ t ∈ s.tasks, t.call = .close ∨ t.call = .shutdown → .drainListeners ∉ t.todo →
      (∀ more, (after (events ++ more)).registry.listeners = []) ∧
      ∀ earlier, earlier <+: events → ∀ id ∈ (after earlier).registry.listeners,
        id ∈ s.registry.closedListeners := by
  intro s
  have horderly : s.Orderly := orderly_after events
  have hstill : ∀ (a : Action) more, s.HasTaken a → (after (events ++ more)).HasTaken a :=
    fun a more => of_prefix (fun _ _ _ hgoes => hgoes.hasTaken) (List.prefix_append _ _)
  constructor
  · intro t ht hcall htodo
    have htaken : s.HasTaken .drainConnections := ⟨t, ht, by simp [hcall, Call.program], htodo⟩
    have hempty (id : Nat) : id ∉ s.registry.connections := by
      rw [horderly.connections htaken]
      exact List.not_mem_nil
    refine ⟨fun more => (orderly_after _).connections (hstill _ more htaken), ?_, fun hfew => ?_⟩
    · intro earlier hearlier id hid
      have htraced : s.Traced id :=
        of_prefix (fun _ _ horderly hgoes => hgoes.traced horderly) hearlier
          (traced_after earlier id hid)
      rcases htraced with hknown | ⟨u, hu, hremoved⟩
      · exact .inl (hknown.resolve_left (hempty id))
      · exact .inr ⟨u, hu, Call.eq_drop_of_mem hremoved.1, hremoved.2⟩
    · have hentered : s.entered ≤ UInt64.size := by
        refine Nat.le_trans (List.countP_mono_left fun u _ hentered => ?_) hfew
        exact decide_eq_true (Call.eq_register_of_mem (of_decide_eq_true hentered).1)
      obtain ⟨n, -, hnumbered⟩ := horderly.numbered hentered
      exact ⟨hnumbered.nodup, fun id hid =>
        (horderly.known hentered id hid).resolve_left (hempty id)⟩
  · intro t ht hcall htodo
    have htaken : s.HasTaken .drainListeners :=
      ⟨t, ht, by rcases hcall with hcall | hcall <;> simp [hcall, Call.program], htodo⟩
    refine ⟨fun more => (orderly_after _).listeners (hstill _ more htaken), ?_⟩
    intro earlier hearlier id hid
    have hpushed := of_prefix (fun _ _ _ hgoes => hgoes.listener) hearlier (.inl hid)
    have hempty : id ∉ s.registry.listeners := by
      rw [horderly.listeners htaken]
      exact List.not_mem_nil
    exact hpushed.resolve_left hempty

/-- A close announces itself when a registration and the start of an accept loop, one after the
other, have read the flag as not set; the connection is entered behind the flag, and cancelled. -/
theorem no_escape_behind_flag :
    let events : List Event :=
      [.begin .listen, .run 0, .run 0, .run 0, .run 0, .begin .register, .run 1, .run 1,
        .begin .close, .run 2, .run 1, .run 1, .run 2, .run 2, .run 2, .run 2, .run 2, .run 2]
    let entered := (after (events.take 11)).registry
    let s := after events
    (entered.shuttingDown = true ∧ entered.connections = [0] ∧ entered.listeners = [0]) ∧
      Task.mk .close [] false ∈ s.tasks ∧
      (∀ more, (after (events ++ more)).registry.connections = []) ∧
      0 ∈ s.registry.closedListeners ∧
      (0 ∈ s.registry.cancelled ∨ ∃ u ∈ s.tasks, u.call = .drop 0 ∧ .remove 0 ∉ u.todo) ∧
      s.registry.held.Nodup ∧ ∀ id ∈ s.registry.held, id ∈ s.registry.cancelled := by
  intro events entered s
  have hclose : Task.mk .close [] false ∈ s.tasks := by decide
  have hfew : (s.tasks.countP fun u => u.call = .register) ≤ UInt64.size := by decide
  obtain ⟨hconnections, hlisteners⟩ := no_escape events
  obtain ⟨hempty, hcancelled, hheld⟩ := hconnections _ hclose rfl List.not_mem_nil
  have hclosed := (hlisteners _ hclose (.inl rfl) List.not_mem_nil).2
  exact ⟨by decide, hclose, hempty, hclosed (events.take 11) (List.take_prefix _ _) 0 (by decide),
    hcancelled (events.take 11) (List.take_prefix _ _) 0 (by decide), hheld hfew⟩

end Schedule

end CacheServer.Native
