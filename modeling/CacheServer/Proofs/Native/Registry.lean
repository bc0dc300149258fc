import CacheServer.Native.Interleaving
import CacheServer.Proofs.Cutting
import Mathlib.Data.List.Nodup

/-!
# What a registry has come to

Calls on a registry, one after the other. Which ids they hand out is what `register` answers
(`handedOut`); whether a registration is held (`Holds`) and whether a close has met a connection
(`MeetsClose`) is said of the calls as they were made. `registry_after` says that the registry, the
counters and the cancelled tokens are what these say, after any calls on a new server.

What a single call keeps is `Sound`, and, as long as the counter of the ids has not come round,
`Numbered`; the rest follows the calls from their end.
-/

namespace CacheServer.Native

namespace Registry

/-- A call that nothing interrupts: the id that it hands out, and the registry after it. -/
def perform (r : Registry) : Call → Option Nat × Registry
  | .register => r.register
  | .listen => (none, r.registerListener.2)
  | .drop id => (none, (r.drop id).2)
  | .close => (none, r.close)
  | .shutdown => (none, r.beginShutdown)

/-- The registry after calls, one after the other. -/
def after (r : Registry) (calls : List Call) : Registry :=
  calls.foldl (fun r call => (r.perform call).2) r

/-- The ids that calls hand out, in order. -/
def handedOut (r : Registry) : List Call → List Nat
  | [] => []
  | call :: rest => (r.perform call).1.toList ++ (r.perform call).2.handedOut rest

/-- Calls behind others start from what these leave. -/
theorem after_append (r : Registry) (calls more : List Call) :
    r.after (calls ++ more) = (r.after calls).after more :=
  List.foldl_append

/-- Calls behind others hand out their ids behind the others. -/
theorem handedOut_append (r : Registry) (calls more : List Call) :
    r.handedOut (calls ++ more) = r.handedOut calls ++ (r.after calls).handedOut more := by
  induction calls generalizing r with
  | nil => rfl
  | cons call rest ih => rw [List.cons_append, handedOut, ih, ← List.append_assoc]; rfl

/-! ## What a call does -/

variable {r r' : Registry} {call : Call} {id : Nat} {answer : Option Nat}

/-- Nothing is registered during a shutdown. -/
theorem register_of_shuttingDown (h : r.shuttingDown = true) : r.register = (none, r) :=
  if_pos h

/-- Before a shutdown the next id is handed out. -/
theorem register_of_not_shuttingDown (h : r.shuttingDown = false) :
    r.register = (some r.nextId, r.insert) :=
  if_neg (by simp [h])

/-- A registration that is held is given up. -/
theorem drop_of_mem (h : id ∈ r.held) : r.drop id = (true, r.remove id) :=
  if_pos (List.contains_iff_mem.2 h)

/-- A registration that is not held cannot be given up. -/
theorem drop_of_not_mem (h : id ∉ r.held) : r.drop id = (false, r) :=
  if_neg (by simpa using h)

/-- The ways in which a call can go, with the id that it hands out and the registry after it. -/
inductive Goes (r : Registry) : Call → Option Nat → Registry → Prop
  | registered : r.shuttingDown = false → Goes r .register (some r.nextId) r.insert
  | registerRefused : r.shuttingDown = true → Goes r .register none r
  | listening : r.shuttingDown = false → Goes r .listen none r.insertListener
  | listenRefused : r.shuttingDown = true → Goes r .listen none r
  | dropped {id : Nat} : id ∈ r.held → Goes r (.drop id) none (r.remove id)
  /-- Nothing is dropped that is not held. -/
  | notHeld {id : Nat} : id ∉ r.held → Goes r (.drop id) none r
  | closed : Goes r .close none r.close
  | shutDown : Goes r .shutdown none r.beginShutdown

/-- Every call goes in one of these ways. -/
theorem goes_perform (r : Registry) (call : Call) :
    r.Goes call (r.perform call).1 (r.perform call).2 := by
  cases call with
  | register =>
    cases hshut : r.shuttingDown with
    | true =>
      rw [perform, register_of_shuttingDown hshut]
      exact .registerRefused hshut
    | false =>
      rw [perform, register_of_not_shuttingDown hshut]
      exact .registered hshut
  | listen =>
    cases hshut : r.shuttingDown with
    | true =>
      rw [perform, registerListener, if_pos hshut]
      exact .listenRefused hshut
    | false =>
      rw [perform, registerListener, if_neg (by simp [hshut])]
      exact .listening hshut
  | drop id =>
    by_cases hid : id ∈ r.held
    · rw [perform, drop_of_mem hid]
      exact .dropped hid
    · rw [perform, drop_of_not_mem hid]
      exact .notHeld hid
  | close => exact .closed
  | shutdown => exact .shutDown

/-- What every call keeps. -/
structure Sound (r : Registry) : Prop where
  registered : r.connections ⊆ r.held
  total : r.metrics.totalConnections = r.nextConnection
  active : r.metrics.activeConnections = .ofNat r.held.length
  quiet : r.shuttingDown = true → r.listeners = []

/-- A new registry is sound. -/
theorem sound_initial : Sound initial where
  registered := List.nil_subset _
  total := rfl
  active := rfl
  quiet := nofun

/-- To enter a connection keeps a registry sound. -/
theorem Sound.insert (h : Sound r) (hopen : r.shuttingDown = false) : Sound r.insert where
  registered :=
    List.cons_subset_cons _ (List.Subset.trans (List.filter_subset_self _) h.registered)
  total := congrArg (· + 1) h.total
  active := by
    show r.metrics.activeConnections + 1 = .ofNat (r.held.length + 1)
    rw [h.active, Int64.ofNat_add]; rfl
  quiet hshut := absurd hshut (by simp [Registry.insert, hopen])

/-- What is left in the registry when a connection is removed is still held. -/
theorem filter_subset_erase {list others : List Nat} (h : list ⊆ others) (id : Nat) :
    list.filter (· != id) ⊆ others.erase id := by
  intro other hother
  obtain ⟨hmem, hne⟩ := List.mem_filter.1 hother
  exact (List.mem_erase_of_ne (bne_iff_ne.1 hne)).2 (h hmem)

/-- To give a registration up keeps a registry sound. -/
theorem Sound.remove (h : Sound r) (hid : id ∈ r.held) : Sound (r.remove id) where
  registered := filter_subset_erase h.registered id
  total := h.total
  active := by
    have hlength : (r.held.erase id).length + 1 = r.held.length := by
      have := List.length_pos_of_mem hid
      rw [List.length_erase_of_mem hid]
      omega
    show r.metrics.activeConnections - 1 = .ofNat (r.held.erase id).length
    rw [h.active, ← hlength, Int64.ofNat_add]
    exact Int64.add_sub_cancel _ _
  quiet := h.quiet

/-- To begin a shutdown keeps a registry sound. -/
theorem Sound.beginShutdown (h : Sound r) : Sound r.beginShutdown :=
  { h with quiet := fun _ => rfl }

/-- A call keeps a registry sound. -/
theorem Sound.goes (h : Sound r) (hgoes : r.Goes call answer r') : Sound r' := by
  cases hgoes with
  | registered hopen => exact h.insert hopen
  | listening hopen => exact { h with quiet := fun hshut => nomatch hopen.symm.trans hshut }
  | dropped hid => exact h.remove hid
  | closed => exact { h.beginShutdown with registered := List.nil_subset _ }
  | shutDown => exact h.beginShutdown
  | registerRefused | listenRefused | notHeld => exact h

/-- Calls keep a registry sound. -/
theorem Sound.after (h : Sound r) (calls : List Call) : Sound (r.after calls) := by
  induction calls generalizing r with
  | nil => exact h
  | cons call rest ih => exact ih (h.goes (r.goes_perform call))

/-- After any calls a registry is sound. -/
theorem sound_after (calls : List Call) : Sound (initial.after calls) :=
  sound_initial.after calls

/-! ### The ids -/

/-- What is true of a registry that has handed out `n` ids, as long as the counter has not come
round: the next id is `n`, and no two registrations that are held have the same id. -/
structure Numbered (r : Registry) (n : Nat) : Prop where
  next : r.nextConnection = .ofNat n
  held_lt : ∀ id ∈ r.held, id < n
  nodup : r.held.Nodup

/-- A new registry has handed out no id. -/
theorem numbered_initial : Numbered initial 0 := ⟨rfl, nofun, .nil⟩

/-- Below the width of the counter, the next id is the number of ids before it. -/
theorem nextId_eq {n : Nat} (h : r.nextConnection = .ofNat n) : r.nextId = n % UInt64.size := by
  rw [nextId, h]
  exact UInt64.toNat_ofNat'

/-- Before the counter comes round, the next id is the number of those before. -/
theorem Numbered.nextId_eq {n : Nat} (h : Numbered r n) (hn : n < UInt64.size) : r.nextId = n := by
  rw [Registry.nextId_eq h.next, Nat.mod_eq_of_lt hn]

/-- The next id is not held by anyone. -/
theorem Numbered.nextId_not_mem {n : Nat} (h : Numbered r n) (hn : n < UInt64.size) :
    r.nextId ∉ r.held := by
  rw [h.nextId_eq hn]
  exact fun hid => Nat.lt_irrefl n (h.held_lt n hid)

/-- To enter a connection hands out one more id. -/
theorem Numbered.insert {n : Nat} (h : Numbered r n) (hn : n < UInt64.size) :
    Numbered r.insert (n + 1) where
  next := by
    show r.nextConnection + 1 = _
    rw [h.next, UInt64.ofNat_add]; rfl
  held_lt id hid := by
    rcases List.mem_cons.1 hid with rfl | hid
    · rw [h.nextId_eq hn]
      exact Nat.lt_succ_self n
    · exact Nat.lt_succ_of_lt (h.held_lt id hid)
  nodup := List.nodup_cons.2 ⟨h.nextId_not_mem hn, h.nodup⟩

/-- To give a registration up hands out no id. -/
theorem Numbered.remove {n : Nat} (h : Numbered r n) (id : Nat) : Numbered (r.remove id) n where
  next := h.next
  held_lt other hother := h.held_lt other (List.mem_of_mem_erase hother)
  nodup := h.nodup.erase id

/-- A call hands out as many ids as it answers. -/
theorem Numbered.goes {n : Nat} (h : Numbered r n) (hgoes : r.Goes call answer r')
    (hn : n + answer.toList.length ≤ UInt64.size) : Numbered r' (n + answer.toList.length) := by
  cases hgoes with
  | registered => exact h.insert hn
  | dropped => exact h.remove _
  | registerRefused | listening | listenRefused | notHeld | closed | shutDown =>
    exact ⟨h.next, h.held_lt, h.nodup⟩

/-- A call hands out no id, or the next value of the counter. -/
theorem Goes.next {n : Nat} (h : r.Goes call answer r') (hnext : r.nextConnection = .ofNat n) :
    (answer = none ∧ r'.nextConnection = .ofNat n) ∨
      answer = some (n % UInt64.size) ∧ r'.nextConnection = .ofNat (n + 1) := by
  cases h with
  | registered =>
    refine .inr ⟨congrArg some (nextId_eq hnext), ?_⟩
    show r.nextConnection + 1 = _
    rw [hnext, UInt64.ofNat_add]; rfl
  | registerRefused | listening | listenRefused | dropped | notHeld | closed | shutDown =>
    exact .inl ⟨rfl, hnext⟩

/-- Only a close or a shutdown announces that the server is shutting down. -/
theorem Goes.shuttingDown_iff (h : r.Goes call answer r') :
    r'.shuttingDown = true ↔ r.shuttingDown = true ∨ call = .close ∨ call = .shutdown := by
  cases h with
  | closed | shutDown => simp [close, beginShutdown, announceShutdown, drainListeners,
      drainConnections]
  | registered | registerRefused | listening | listenRefused | dropped | notHeld =>
    simp [insert, insertListener, remove]

/-- Held after a call is what the call hands out, and what was held and the call does not drop. -/
theorem Goes.mem_held_iff (h : r.Goes call answer r') (hnodup : r.held.Nodup) : id ∈ r'.held ↔
    (call = .register ∧ r.register.1 = some id) ∨ id ∈ r.held ∧ call ≠ .drop id := by
  cases h with
  | registered hopen => simp [register_of_not_shuttingDown hopen, insert, eq_comm]
  | registerRefused hshut => simp [register_of_shuttingDown hshut]
  | @dropped other =>
    simp [remove, hnodup.mem_erase_iff, eq_comm (a := other), and_comm (a := id ∈ r.held)]
  | @notHeld other hother =>
    have hne : id ∈ r.held → other ≠ id := fun hid h => hother (h ▸ hid)
    simpa using hne
  | listening | listenRefused | closed | shutDown =>
    simp [insertListener, close, beginShutdown, announceShutdown, drainListeners, drainConnections]

/-- Only a close cancels connections: those that it finds registered. -/
theorem Goes.mem_cancelled_iff (h : r.Goes call answer r') :
    id ∈ r'.cancelled ↔ (call = .close ∧ id ∈ r.connections) ∨ id ∈ r.cancelled := by
  cases h with
  | closed => simp [close, announceShutdown, drainListeners, drainConnections]
  | registered | registerRefused | listening | listenRefused | dropped | notHeld | shutDown =>
    simp [insert, insertListener, remove, beginShutdown, announceShutdown, drainListeners]

/-- Without an id in a list there is nothing to leave out. -/
theorem filter_ne_of_not_mem {list : List Nat} (h : id ∉ list) : list.filter (· != id) = list :=
  List.filter_eq_self.2 fun _ hother => bne_iff_ne.2 fun heq => h (heq ▸ hother)

/-- As long as no close comes and the counter has not come round, the registry has the connections
whose registrations are held. -/
theorem Goes.connections_eq_held {n : Nat} (h : r.Goes call answer r') (hcall : call ≠ .close)
    (hnumbered : Numbered r n) (hn : n + answer.toList.length ≤ UInt64.size)
    (heq : r.connections = r.held) : r'.connections = r'.held := by
  cases h with
  | closed => exact absurd rfl hcall
  | registered =>
    show r.nextId :: r.connections.filter (· != r.nextId) = r.nextId :: r.held
    rw [heq, filter_ne_of_not_mem (hnumbered.nextId_not_mem hn)]
  | @dropped id hid =>
    show r.connections.filter (· != id) = r.held.erase id
    rw [heq, hnumbered.nodup.erase_eq_filter]
  | registerRefused | listening | listenRefused | notHeld | shutDown => exact heq

/-- Once the server is shutting down, connections are only taken out. -/
theorem Goes.connections_sublist (h : r.Goes call answer r') (hshut : r.shuttingDown = true) :
    r'.connections.Sublist r.connections := by
  cases h with
  | registered hopen | listening hopen => exact nomatch hopen.symm.trans hshut
  | dropped => exact List.filter_sublist
  | closed => exact List.nil_sublist _
  | registerRefused | listenRefused | notHeld | shutDown => exact .refl _

/-- Once the server is shutting down, no calls enter a connection. -/
theorem connections_after_sublist (hshut : r.shuttingDown = true) (calls : List Call) :
    (r.after calls).connections.Sublist r.connections := by
  induction calls generalizing r with
  | nil => exact .refl _
  | cons call rest ih =>
    have hgoes := r.goes_perform call
    exact (ih (hgoes.shuttingDown_iff.2 (.inl hshut))).trans (hgoes.connections_sublist hshut)

/-- The server is shutting down from the first close or shutdown on. -/
theorem shuttingDown_after_iff {calls : List Call} : (r.after calls).shuttingDown = true ↔
    r.shuttingDown = true ∨ .close ∈ calls ∨ .shutdown ∈ calls := by
  induction calls generalizing r with
  | nil => simp [after]
  | cons call rest ih =>
    show ((r.perform call).2.after rest).shuttingDown = true ↔ _
    rw [ih, (r.goes_perform call).shuttingDown_iff]
    simp only [List.mem_cons, eq_comm (a := call)]
    tauto

/-! ## What calls have come to -/

/-- Whether calls on a new server have handed out a registration that none of them has dropped
since. -/
def Holds (calls : List Call) (id : Nat) : Prop :=
  ∃ earlier later, calls = earlier ++ .register :: later ∧
    (initial.after earlier).register.1 = some id ∧ .drop id ∉ later

/-- Whether a close among calls on a new server has found a connection registered. -/
def MeetsClose (calls : List Call) (id : Nat) : Prop :=
  ∃ earlier later, calls = earlier ++ .close :: later ∧ id ∈ (initial.after earlier).connections

variable {calls : List Call}

/-- Nothing is held before the first call. -/
theorem not_holds_nil : ¬ Holds [] id := by
  rintro ⟨earlier, later, h, -⟩
  exact absurd h.symm (by simp)

/-- Nothing has met a close before the first call. -/
theorem not_meetsClose_nil : ¬ MeetsClose [] id := by
  rintro ⟨earlier, later, h, -⟩
  exact absurd h.symm (by simp)

/-- A registration is held after a call if that call hands it out, or if it was held and the call
does not drop it. -/
theorem holds_append_iff : Holds (calls ++ [call]) id ↔
    (call = .register ∧ (initial.after calls).register.1 = some id) ∨
      Holds calls id ∧ call ≠ .drop id := by
  constructor
  · rintro ⟨earlier, later, heq, hid, hlater⟩
    rcases append_singleton_eq_append_cons heq with ⟨rfl, rfl, rfl⟩ | ⟨front, rfl, hcalls⟩
    · exact .inl ⟨rfl, hid⟩
    · exact .inr ⟨⟨earlier, front, hcalls, hid, fun h => hlater (List.mem_append_left _ h)⟩,
        fun h => hlater (by simp [h])⟩
  · rintro (⟨rfl, hid⟩ | ⟨⟨earlier, later, rfl, hid, hlater⟩, hcall⟩)
    · exact ⟨calls, [], rfl, hid, List.not_mem_nil⟩
    · exact ⟨earlier, later ++ [call], by simp, hid, by simp [hlater, hcall.symm]⟩

/-- A close meets what it finds registered, and what was met before remains so. -/
theorem meetsClose_append_iff : MeetsClose (calls ++ [call]) id ↔
    (call = .close ∧ id ∈ (initial.after calls).connections) ∨ MeetsClose calls id := by
  constructor
  · rintro ⟨earlier, later, heq, hid⟩
    rcases append_singleton_eq_append_cons heq with ⟨rfl, rfl, rfl⟩ | ⟨front, rfl, hcalls⟩
    · exact .inl ⟨rfl, hid⟩
    · exact .inr ⟨earlier, front, hcalls, hid⟩
  · rintro (⟨rfl, hid⟩ | ⟨earlier, later, rfl, hid⟩)
    · exact ⟨calls, [], rfl, hid⟩
    · exact ⟨earlier, later ++ [call], by simp, hid⟩

/-- Where the call stands that has handed a registration out. -/
theorem holds_iff_exists_lt : Holds calls id ↔ ∃ k < calls.length, calls[k]? = some .register ∧
    (initial.after (calls.take k)).register.1 = some id ∧ .drop id ∉ calls.drop (k + 1) := by
  constructor
  · rintro ⟨earlier, later, rfl, hid, hlater⟩
    exact ⟨earlier.length, by simp, by simp, by simpa using hid, by simpa using hlater⟩
  · rintro ⟨k, hk, hcall, hid, hlater⟩
    obtain ⟨_, hget⟩ := List.getElem?_eq_some_iff.1 hcall
    refine ⟨calls.take k, calls.drop (k + 1), ?_, hid, hlater⟩
    rw [← hget, List.getElem_cons_drop, List.take_append_drop]

instance (calls : List Call) : DecidablePred (Holds calls) := fun _ =>
  decidable_of_iff _ holds_iff_exists_lt.symm

/-- The last call is performed on what the others leave. -/
theorem after_append_singleton (r : Registry) (calls : List Call) (call : Call) :
    r.after (calls ++ [call]) = ((r.after calls).perform call).2 :=
  r.after_append calls [call]

/-- The last call hands out its id behind the others. -/
theorem handedOut_append_singleton (r : Registry) (calls : List Call) (call : Call) :
    r.handedOut (calls ++ [call]) =
      r.handedOut calls ++ ((r.after calls).perform call).1.toList := by
  rw [handedOut_append]
  simp [handedOut]

/-- Ids are handed out in the order of the counter, which counts them. -/
theorem handedOut_eq (calls : List Call) :
    initial.handedOut calls =
        (List.range (initial.handedOut calls).length).map (· % UInt64.size) ∧
      (initial.after calls).nextConnection = .ofNat (initial.handedOut calls).length := by
  induction calls using List.reverseRecOn with
  | nil => exact ⟨rfl, rfl⟩
  | append_singleton earlier call ih =>
    obtain ⟨hids, hnext⟩ := ih
    rw [handedOut_append_singleton, after_append_singleton]
    rcases (goes_perform _ call).next hnext with ⟨hnone, hnext⟩ | ⟨hsome, hnext⟩
    · simp only [hnone, Option.toList_none, List.append_nil]
      exact ⟨hids, hnext⟩
    · simp only [hsome, Option.toList_some, List.length_append, List.length_singleton]
      refine ⟨?_, hnext⟩
      rw [List.range_succ, List.map_append, ← hids, List.map_singleton]

/-- No id is handed out twice before the counter has come round, and then one is. -/
theorem nodup_handedOut_iff (calls : List Call) : (initial.handedOut calls).Nodup ↔
    (initial.handedOut calls).length ≤ UInt64.size := by
  generalize hn : (initial.handedOut calls).length = n
  rw [(handedOut_eq calls).1, hn, List.nodup_map_iff_inj_on List.nodup_range]
  constructor
  · intro hinj
    by_contra hmany
    have hwidth : UInt64.size < n := Nat.not_le.1 hmany
    have hzero : 0 < n := Nat.lt_trans (by decide) hwidth
    -- the first id is the one that comes back
    have hcollision := hinj 0 (List.mem_range.2 hzero) UInt64.size (List.mem_range.2 hwidth)
      (Nat.mod_self UInt64.size).symm
    exact absurd hcollision (by decide)
  · intro hfew i hi j hj heq
    have hlt {k : Nat} (hk : k ∈ List.range n) : k < UInt64.size :=
      Nat.lt_of_lt_of_le (List.mem_range.1 hk) hfew
    rwa [Nat.mod_eq_of_lt (hlt hi), Nat.mod_eq_of_lt (hlt hj)] at heq

/-- The registry is numbered by the ids that it has handed out. -/
theorem numbered_after (hfew : (initial.handedOut calls).length ≤ UInt64.size) :
    (initial.after calls).Numbered (initial.handedOut calls).length := by
  induction calls using List.reverseRecOn with
  | nil => exact numbered_initial
  | append_singleton earlier call ih =>
    rw [handedOut_append_singleton, List.length_append] at hfew ⊢
    rw [after_append_singleton]
    exact (ih (Nat.le_of_add_right_le hfew)).goes (goes_perform _ call) hfew

/-- What the registry keeps as held is what the calls leave held. -/
theorem mem_held_after_iff (hfew : (initial.handedOut calls).length ≤ UInt64.size) :
    id ∈ (initial.after calls).held ↔ Holds calls id := by
  induction calls using List.reverseRecOn with
  | nil => exact iff_of_false List.not_mem_nil not_holds_nil
  | append_singleton earlier call ih =>
    rw [handedOut_append_singleton, List.length_append] at hfew
    have hearlier := Nat.le_of_add_right_le hfew
    rw [after_append_singleton,
      (goes_perform _ call).mem_held_iff (numbered_after hearlier).nodup, holds_append_iff,
      ih hearlier]

/-- The connections that are cancelled are those that a close has met. -/
theorem mem_cancelled_after_iff : id ∈ (initial.after calls).cancelled ↔ MeetsClose calls id := by
  induction calls using List.reverseRecOn with
  | nil => exact iff_of_false List.not_mem_nil not_meetsClose_nil
  | append_singleton earlier call ih =>
    rw [after_append_singleton, (goes_perform _ call).mem_cancelled_iff, meetsClose_append_iff, ih]

/-- The registry is empty from the first close on. -/
theorem connections_after_close (h : .close ∈ calls) :
    (initial.after calls).connections = [] := by
  obtain ⟨earlier, later, rfl⟩ := List.append_of_mem h
  have hshut : ((initial.after earlier).close).shuttingDown = true := rfl
  rw [after_append]
  exact List.sublist_nil.1 (connections_after_sublist hshut later)

/-- Up to the first close, the registry has the connections whose registrations are held. -/
theorem connections_after_open (hfew : (initial.handedOut calls).length ≤ UInt64.size)
    (h : .close ∉ calls) : (initial.after calls).connections = (initial.after calls).held := by
  induction calls using List.reverseRecOn with
  | nil => rfl
  | append_singleton earlier call ih =>
    rw [handedOut_append_singleton, List.length_append] at hfew
    have hearlier := Nat.le_of_add_right_le hfew
    obtain ⟨hbefore, hcall⟩ : .close ∉ earlier ∧ .close ≠ call := by simpa using h
    rw [after_append_singleton]
    exact (goes_perform _ call).connections_eq_held hcall.symm (numbered_after hearlier) hfew
      (ih hearlier hbefore)

/-- The held registrations are among those handed out. -/
theorem held_after_perm (hfew : (initial.handedOut calls).length ≤ UInt64.size) :
    (initial.after calls).held.Perm ((initial.handedOut calls).filter (Holds calls)) := by
  have hnumbered := numbered_after hfew
  have hmem {n : Nat} (hn : n < (initial.handedOut calls).length) :
      n ∈ initial.handedOut calls := by
    rw [(handedOut_eq calls).1]
    exact List.mem_map.2
      ⟨n, List.mem_range.2 hn, Nat.mod_eq_of_lt (Nat.lt_of_lt_of_le hn hfew)⟩
  refine (List.perm_ext_iff_of_nodup hnumbered.nodup
    (((nodup_handedOut_iff calls).2 hfew).filter _)).2 fun id => ?_
  rw [List.mem_filter, decide_eq_true_eq, ← mem_held_after_iff hfew]
  exact ⟨fun hid => ⟨hmem (hnumbered.held_lt id hid), hid⟩, fun hid => hid.2⟩

/-- A close does nothing to an empty registry that is shutting down. -/
theorem close_of_empty (hshut : r.shuttingDown = true) (hlisteners : r.listeners = [])
    (hconnections : r.connections = []) : r.close = r := by
  cases r
  cases hshut
  cases hlisteners
  cases hconnections
  rfl

/-- A second close finds nothing to do. -/
theorem close_after_close (h : .close ∈ calls) :
    (initial.after calls).close = initial.after calls := by
  have hshut : (initial.after calls).shuttingDown = true :=
    shuttingDown_after_iff.2 (.inr (.inl h))
  exact close_of_empty hshut ((sound_after calls).quiet hshut) (connections_after_close h)

/-- Dropping a registration that is not in the registry, or no longer, only takes it back. -/
theorem drop_of_not_mem_connections (h : id ∉ r.connections) : (r.drop id).2 =
    { r with held := (r.drop id).2.held, metrics := (r.drop id).2.metrics } := by
  by_cases hid : id ∈ r.held
  · rw [drop_of_mem hid]
    simp only [remove, filter_ne_of_not_mem h]
  · rw [drop_of_not_mem hid]

/-- A connection that ends leaves the registry, and besides only its registration is given up and
the counters change. -/
theorem exists_drop (h : r.connections ⊆ r.held) (id : Nat) : ∃ held metrics,
    (r.drop id).2 = { r with connections := r.connections.filter (· != id), held, metrics } ∧
      r.connections.filter (· != id) ⊆ held := by
  by_cases hid : id ∈ r.held
  · refine ⟨r.held.erase id, r.metrics.closeConnection, ?_, filter_subset_erase h id⟩
    rw [drop_of_mem hid]
    rfl
  · rw [drop_of_not_mem hid, filter_ne_of_not_mem fun hc => hid (h hc)]
    exact ⟨_, _, rfl, h⟩

/-- Several connections that end leave the registry one after the other. -/
theorem exists_foldl_drop (h : r.connections ⊆ r.held) (ended : List Nat) : ∃ held metrics,
    ended.foldl (fun r id => (r.drop id).2) r =
      { r with connections := r.connections.filter (· ∉ ended), held, metrics } ∧
      r.connections.filter (· ∉ ended) ⊆ held := by
  induction ended generalizing r with
  | nil => exact ⟨r.held, r.metrics, by simp, by simpa using h⟩
  | cons id rest ih =>
    have hsplit : (r.connections.filter (· != id)).filter (· ∉ rest) =
        r.connections.filter (· ∉ id :: rest) := by
      rw [List.filter_filter]
      refine List.filter_congr fun other _ => ?_
      by_cases hother : other = id <;> simp [hother]
    obtain ⟨held, metrics, hdrop, hkept⟩ := exists_drop h id
    obtain ⟨held', metrics', hrest, hkept'⟩ := ih (r := (r.drop id).2) (by rw [hdrop]; exact hkept)
    rw [List.foldl_cons, hrest]
    rw [hdrop] at hkept' ⊢
    simp only [hsplit] at hkept' ⊢
    exact ⟨held', metrics', rfl, hkept'⟩

/-- After any calls on a new server, with the ids that they have handed out:
the ids are the values of a counter of 64 bits, in order, so none was handed out twice if and only
if there are no more than the counter has values. The total counts the ids, the gauge counts the
registrations that are still held, and no close changes the counters. The registry is empty from the
first close on. As long as no id was handed out twice, the registrations that are held are those of
the ids that were not dropped, so the gauge is not negative, and up to the first close the registry
has these connections, each once. The cancelled connections are those that a close has met in the
registry. From the first close or shutdown on, no id is handed out and a try
changes nothing, the server remains shutting down, and the registry does not grow any more; before
that, every try is answered with the next id. A second close does nothing, and to drop a
registration that is not in the registry only takes it back. -/
theorem registry_after (calls : List Call) :
    let r := initial.after calls
    let ids := initial.handedOut calls
    ids = (List.range ids.length).map (· % UInt64.size) ∧
    (ids.Nodup ↔ ids.length ≤ UInt64.size) ∧
    r.metrics.totalConnections = .ofNat ids.length ∧
    r.metrics.activeConnections = .ofNat r.held.length ∧
    r.close.metrics = r.metrics ∧
    (.close ∈ calls → r.connections = []) ∧
    (ids.length ≤ UInt64.size →
      r.held.Perm (ids.filter (Holds calls)) ∧
      r.metrics.activeConnections = .ofNat (ids.countP (Holds calls)) ∧
      (ids.countP (Holds calls) < Nat.pow 2 63 →
        r.metrics.activeConnections.toInt = ids.countP (Holds calls)) ∧
      (.close ∉ calls → r.connections.Perm (ids.filter (Holds calls)))) ∧
    (∀ id, id ∈ r.cancelled ↔ MeetsClose calls id) ∧
    (if .close ∈ calls ∨ .shutdown ∈ calls then
      r.register = (none, r) ∧ ∀ more, (r.after more).shuttingDown = true ∧
        (r.after more).connectionCount ≤ r.connectionCount
    else r.shuttingDown = false ∧ r.register.1 = some (ids.length % UInt64.size)) ∧
    (.close ∈ calls → r.close = r) ∧
    ∀ id ∉ r.connections, (r.drop id).2 =
      { r with held := (r.drop id).2.held, metrics := (r.drop id).2.metrics } := by
  intro r ids
  obtain ⟨hids, hnext⟩ : ids = (List.range ids.length).map (· % UInt64.size) ∧
    r.nextConnection = .ofNat ids.length := handedOut_eq calls
  have hsound : Sound r := sound_after calls
  refine ⟨hids, nodup_handedOut_iff calls, hsound.total.trans hnext, hsound.active, rfl,
    connections_after_close, fun hfew => ?_, fun id => mem_cancelled_after_iff, ?_,
    close_after_close, fun id => drop_of_not_mem_connections⟩
  · have hactive : r.metrics.activeConnections = .ofNat (ids.countP (Holds calls)) := by
      rw [hsound.active, (held_after_perm hfew).length_eq, List.countP_eq_length_filter]
    refine ⟨held_after_perm hfew, hactive, fun hcount => ?_, fun hopen => ?_⟩
    · rw [hactive]
      exact Int64.toInt_ofNat_of_lt hcount
    · have hconnections : r.connections = r.held := connections_after_open hfew hopen
      rw [hconnections]
      exact held_after_perm hfew
  · have hiff : r.shuttingDown = true ↔ .close ∈ calls ∨ .shutdown ∈ calls := by
      rw [shuttingDown_after_iff]
      exact or_iff_right nofun
    split
    · next hcalled =>
      have hshut := hiff.2 hcalled
      exact ⟨register_of_shuttingDown hshut, fun more =>
        ⟨shuttingDown_after_iff.2 (.inl hshut), (connections_after_sublist hshut more).length_le⟩⟩
    · next hcalled =>
      have hopen : r.shuttingDown = false := Bool.eq_false_iff.2 (mt hiff.1 hcalled)
      rw [register_of_not_shuttingDown hopen, nextId_eq hnext]
      exact ⟨hopen, rfl⟩

/-- Of two connections one is dropped before a close and the other behind it. -/
theorem registry_after_close :
    let calls : List Call := [.register, .register, .drop 0, .close, .shutdown, .register]
    let r := initial.after calls
    initial.handedOut calls = [0, 1] ∧ (initial.handedOut calls).Nodup ∧
      r.metrics.activeConnections.toInt = 1 ∧ r.connections = [] ∧ r.close = r ∧
      1 ∈ r.cancelled ∧ 0 ∉ r.cancelled ∧ (r.drop 1).2.cancelled = r.cancelled := by
  intro calls r
  obtain ⟨-, hnodup, -, -, -, hempty, hheld, -, -, hclose, hdrop⟩ := registry_after calls
  have hfew : (initial.handedOut calls).length ≤ UInt64.size := by decide
  have hcount : (initial.handedOut calls).countP (Holds calls) = 1 := by decide
  refine ⟨by decide, hnodup.2 hfew, ?_, hempty (by decide), hclose (by decide), by decide,
    by decide, ?_⟩
  · rw [(hheld hfew).2.2.1 (by rw [hcount]; decide), hcount]
    rfl
  · rw [hdrop 1 (by rw [hempty (by decide)]; exact List.not_mem_nil)]

end Registry

end CacheServer.Native
