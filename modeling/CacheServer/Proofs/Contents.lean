import CacheServer.Proofs.Lasting
import CacheServer.Server

/-!
# What can be stored

What a server has stored came in through one of its interfaces, and it has the marks of that
(`entries_after`): no key and no value is empty, nothing has a deadline, what came over HTTP is a
text, and a key that came in a message is one line. A sweep of such a server changes nothing at all
(`Server.sweep_eq`), so sweeps can be left out of what has happened (`Server.store_after`), and what
is stored is found from the last write of each key.
-/

namespace CacheServer

open Bytes (crlf)

/-- What happens to a server: a step from one of its interfaces, or a sweep. -/
inductive Event
  | step (s : Step)
  | sweep (now : Instant)

namespace Event

/-- Whether an event performs a write; what a sweep removes is not written by anyone. -/
def Performs (event : Event) (w : Write) : Prop :=
  match event with
  | step s => s.Performs w
  | sweep _ => False

/-- The step that an event is, if it is one. -/
def step? : Event → Option Step
  | step s => some s
  | sweep _ => none

/-- The server after an event. -/
def apply (server : Server) : Event → Server
  | step s => server.withCache (s.apply server.cache)
  | sweep now => server.sweep now

end Event

/-- The server after events. -/
def Server.after (server : Server) (events : List Event) : Server :=
  events.foldl (fun s event => event.apply s) server

/-- Whether an event is the last one that writes a key. -/
def LastWriter (events : List Event) (key : String) (event : Event) : Prop :=
  ∃ earlier later, events = earlier ++ event :: later ∧
    (∃ w, event.Performs w ∧ w.Affects key) ∧
    ∀ other ∈ later, ∀ w, other.Performs w → ¬ w.Affects key

variable {server : Server} {events : List Event} {key : String} {value : Bytes}

/-! ## Sweeps -/

/-- A sweep of a store without deadlines changes nothing, the counters included. -/
theorem Server.sweep_eq (h : server.store.Lasting) (now : Instant) : server.sweep now = server := by
  have hcount : server.registry.metrics.countExpired 0 = server.registry.metrics := by
    simp [Metrics.countExpired]
  simp only [sweep, h.removeExpired_eq now, hcount]

/-- The steps among events. -/
theorem mem_filterMap_step?_iff {s : Step} :
    s ∈ events.filterMap Event.step? ↔ Event.step s ∈ events := by
  rw [List.mem_filterMap]
  constructor
  · rintro ⟨event, hevent, hstep⟩
    cases event with
    | step s => exact Option.some.inj hstep ▸ hevent
    | sweep => cases hstep
  · intro h
    exact ⟨_, h, rfl⟩

/-- Sweeps can be left out. -/
theorem Server.store_after (h : server.store.Lasting) (events : List Event) :
    (server.after events).store = (server.cache.after (events.filterMap Event.step?)).store := by
  induction events generalizing server with
  | nil => rfl
  | cons event events ih =>
    cases event with
    | step s => exact ih (s.lasting_apply h)
    | sweep now =>
      have hswept : server.after (.sweep now :: events) = (server.sweep now).after events := rfl
      rw [hswept, sweep_eq h now]
      exact ih h

/-! ## What a step can set -/

/-- Nothing empty is set. -/
theorem Step.ne_of_performs_set {step : Step} (h : step.Performs (.set key value)) :
    key ≠ "" ∧ value ≠ [] := by
  cases step with
  | message reading bytes =>
    cases h with
    | set _ hkey hvalue => exact ⟨hkey, hvalue⟩
  | request now r =>
    cases h with
    | set _ _ hkey _ htext => exact ⟨hkey, mt Bytes.ofText_eq_nil_iff.1 htext⟩

/-- Over HTTP a text is set. -/
theorem Http.exists_text_of_performs_set {r : Http.Request} (h : Performs r (.set key value)) :
    ∃ text, value = Bytes.ofText text := by
  cases h with
  | @set _ text => exact ⟨text, rfl⟩

/-- The key that a message sets is one line. -/
theorem Native.line_free_of_performs_set {message : Bytes}
    (h : Performs message (.set key value)) : ¬ crlf <:+: Bytes.ofText key := by
  cases h with
  | set hparse => exact (Protocol.Request.parse_eq_ok_iff.1 hparse).key_line_free key rfl

/-! ## What is stored -/

/-- An entry was set by a step, for good. -/
theorem exists_performs_set_of_mem {metrics : Metrics} {history : List Step}
    {entry : String × Item}
    (h : entry ∈ ((Cache.mk .empty metrics).after history).store.entries) :
    entry.2.deadline = none ∧ ∃ step ∈ history, step.Performs (.set entry.1 entry.2.data) := by
  obtain ⟨value, hitem, earlier, step, later, rfl, hset, -⟩ :=
    find?_after_eq_some_iff.1 (Store.mem_entries_iff.1 h)
  rw [hitem]
  exact ⟨rfl, step, by simp, hset⟩

/-- What is stored under a key was set by the last step that affects the key. -/
theorem eq_set_of_find?_after {cache : Cache} {earlier later : List Step} {step : Step} {w : Write}
    {item : Item} (hw : step.Performs w) (haffects : w.Affects key)
    (hlater : ∀ other ∈ later, ∀ w, other.Performs w → ¬ w.Affects key)
    (h : (cache.after (earlier ++ step :: later)).store.find? key = some item) :
    w = .set key item.data := by
  -- what comes behind the step does not count, so what is found is what its write left
  rw [Cache.after_append, Cache.after_cons, Cache.find?_after_of_not_affects hlater,
    Step.store_of_performs hw] at h
  cases w with
  | set k value =>
    obtain rfl := haffects
    rw [Write.find?_apply_set, Option.some.injEq] at h
    rw [← h]
    rfl
  | delete | purge =>
    rw [Write.find?_apply_of_affects haffects nofun] at h
    cases h

/-- What the interfaces can put into a store, with sweeps at any time: whatever is stored then has
a key and a value that are not empty and no deadline, and a sweep finds nothing to remove. An entry
that was last written over HTTP has a text for its value. If nothing came over HTTP, every key is
one line. -/
theorem entries_after (registry : Native.Registry) (events : List Event) :
    let store := ((Server.mk .empty registry).after events).store
    (∀ entry ∈ store.entries,
        entry.1 ≠ "" ∧ entry.2.data ≠ [] ∧ entry.2.deadline = none) ∧
      (∀ now, store.removeExpired now = (0, store)) ∧
      (∀ entry ∈ store.entries, ∀ now r,
        LastWriter events entry.1 (.step (.request now r)) →
          ∃ text, Text.decode? entry.2.data = some text) ∧
      ((∀ now r, Event.step (.request now r) ∉ events) →
        ∀ entry ∈ store.entries, ¬ crlf <:+: Bytes.ofText entry.1) := by
  intro store
  have hstore : store = ((Cache.mk .empty registry.metrics).after
      (events.filterMap Event.step?)).store := Server.store_after Store.lasting_empty events
  have hlasting : store.Lasting := hstore ▸ Cache.lasting_after Store.lasting_empty _
  refine ⟨fun entry hentry => ?_, hlasting.removeExpired_eq, fun entry hentry now r hlast => ?_,
    fun hnone entry hentry => ?_⟩
  · rw [hstore] at hentry
    obtain ⟨hdeadline, step, -, hset⟩ := exists_performs_set_of_mem hentry
    obtain ⟨hkey, hvalue⟩ := Step.ne_of_performs_set hset
    exact ⟨hkey, hvalue, hdeadline⟩
  · obtain ⟨earlier, later, hevents, ⟨w, hw, haffects⟩, hlater⟩ := hlast
    have hfound : store.find? entry.1 = some entry.2 := Store.mem_entries_iff.1 hentry
    rw [hstore, hevents, List.filterMap_append, List.filterMap_cons] at hfound
    have hperforms : (Step.request now r).Performs w := hw
    have hset := eq_set_of_find?_after hperforms haffects
      (fun other hother => hlater _ (mem_filterMap_step?_iff.1 hother)) hfound
    rw [hset] at hperforms
    obtain ⟨text, htext⟩ := Http.exists_text_of_performs_set hperforms
    exact ⟨text, by rw [htext, Text.decode?_ofText]⟩
  · rw [hstore] at hentry
    obtain ⟨-, step, hmem, hset⟩ := exists_performs_set_of_mem hentry
    cases step with
    | message reading bytes => exact Native.line_free_of_performs_set hset
    | request now r => exact absurd (mem_filterMap_step?_iff.1 hmem) (hnone now r)

/-- A text that was put under a key of two lines, and bytes that are no text in a message, with a
sweep between them. -/
theorem entries_after_sweep :
    let put : Http.Request := ⟨"PUT", "/SET/%0d%0a", Bytes.ofText "\x7b\"value\":\"é\"\x7d"⟩
    let setting := Protocol.Request.encode ⟨some .set, some "k", some [255]⟩
    let messages : List Event := [.step (.message ⟨⟨1⟩, 0⟩ setting), .sweep ⟨2⟩]
    let events := .step (.request ⟨0⟩ put) :: messages
    let both := (Server.initial.after events).store
    let one := (Server.initial.after messages).store
    both.entries = [("k", .lasting [255]), ("\r\n", .lasting (Bytes.ofText "é"))] ∧
      LastWriter events "\r\n" (.step (.request ⟨0⟩ put)) ∧
      (∃ text, Text.decode? (Bytes.ofText "é") = some text) ∧
      (∀ now r, Event.step (.request now r) ∉ messages) ∧
      one.entries = [("k", .lasting [255])] ∧ ¬ crlf <:+: Bytes.ofText "k" := by
  intro put setting messages events both one
  have hboth : both.entries =
      [("k", .lasting [255]), ("\r\n", .lasting (Bytes.ofText "é"))] := by decide
  have hone : one.entries = [("k", .lasting [255])] := by decide
  have hput : Http.Performs put (.set "\r\n" (Bytes.ofText "é")) :=
    .set (Http.Route.ofTarget?_eq_some_iff.1 (by decide)) rfl (by decide) (by decide) (by decide)
  have hset : Protocol.Request.parse setting = .ok ⟨some .set, some "k", some [255]⟩ := by decide
  have hlast : LastWriter events "\r\n" (.step (.request ⟨0⟩ put)) := by
    refine ⟨[], messages, rfl, ⟨_, hput, rfl⟩, fun other hother w hw haffects => ?_⟩
    rcases List.mem_pair.1 hother with rfl | rfl
    · cases hw with
      | set hparse =>
        cases hset.symm.trans hparse
        exact absurd (show "k" = "\r\n" from haffects) (by decide)
      | delete hparse | purge hparse => cases hset.symm.trans hparse
    · exact hw
  have hnone : ∀ now r, Event.step (.request now r) ∉ messages := by simp [messages]
  obtain ⟨-, -, htext, -⟩ := entries_after .initial events
  obtain ⟨-, -, -, hline⟩ := entries_after .initial messages
  have hfirst : ("\r\n", .lasting (Bytes.ofText "é")) ∈ both.entries := by simp [hboth]
  have hsecond : ("k", .lasting [255]) ∈ one.entries := by simp [hone]
  exact ⟨hboth, hlast, htext _ hfirst _ _ hlast, hnone, hone, hline hnone _ hsecond⟩

end CacheServer
