import CacheServer.Proofs.Lasting
import Mathlib.Data.List.Basic
import Mathlib.Logic.Function.Basic

/-!
# Clients with keys of their own

Several clients send messages to one cache, in any interleaving. If no message asks for the whole
store and no key is in the messages of two clients, each client is answered as if it were alone,
and finds its keys as it left them (`answered_eq_alone`).

The proof follows one client through two runs, the shared one and its own. `Alike` says that both
runs have answered the client the same and have the same stored under its keys. The client's own
messages keep that when they are taken in both runs (`Alike.own`), and those of the others keep it
when they are taken in the shared run alone (`Alike.other`).
-/

namespace CacheServer.Native

open Protocol

/-! ## What a message is about -/

/-- The verb that a message names, if it can be read and the verb is in the catalogue. -/
def verb? (message : Bytes) : Option Verb :=
  match Request.parse message with
  | .ok r => r.verb
  | .error _ => none

/-- The key of a message that is a `SET`, a `GET` or a `DELETE`, where an empty key counts as none;
the message may be refused. -/
def subject? (message : Bytes) : Option String :=
  match Request.parse message with
  | .ok r => if r.verb ∈ [some .set, some .get, some .delete] then r.givenKey else none
  | .error _ => none

/-- The keys that messages are about. -/
def subjects (messages : List Bytes) : List String := messages.filterMap subject?

/-- Whether a message leaves the store as a whole alone. -/
def Local (message : Bytes) : Prop := verb? message ∉ [some .purge, some .length, some .keys]

instance : DecidablePred Local := fun _ => inferInstanceAs (Decidable (_ ∉ _))

variable {cache cache' : Cache} {reading reading' : Reading} {message : Bytes}

/-- The keys that messages are about. -/
theorem mem_subjects_iff {messages : List Bytes} {key : String} :
    key ∈ subjects messages ↔ ∃ message ∈ messages, subject? message = some key :=
  List.mem_filterMap

/-- A local message writes at most its key. -/
theorem subject?_of_affects {w : Write} {key : String} (hlocal : Local message)
    (h : Performs message w) (haffects : w.Affects key) : subject? message = some key := by
  cases h with
  | set hparse hkey =>
    obtain rfl := haffects
    simp [subject?, hparse, Request.givenKey_some hkey]
  | delete hparse hkey =>
    obtain rfl := haffects
    simp [subject?, hparse, Request.givenKey_some hkey]
  | purge hparse => exact absurd (by simp [verb?, hparse]) hlocal

/-- What a command answers, unless it lists or counts, depends on the store only by what is found
under its key. -/
theorem perform_snd_congr {now now' : Instant} {v : Verb} {r : Request}
    (hv : v ∉ [.length, .keys])
    (hget : ∀ key, r.givenKey = some key → v = .get →
      cache.store.get now key = cache'.store.get now' key) :
    (perform cache now v r).2 = (perform cache' now' v r).2 := by
  cases v with
  | set =>
    simp only [perform, performSet]
    cases r.givenKey with
    | none => rfl
    | some key => cases r.givenValue <;> rfl
  | get =>
    simp only [perform, performGet]
    cases hkey : r.givenKey with
    | none => rfl
    | some key =>
      simp only [hget key hkey rfl]
      cases r.givenValue.isSome with
      | true => rfl
      | false => cases cache'.store.get now' key <;> rfl
  | delete =>
    simp only [perform, performDelete]
    cases r.givenKey with
    | none => rfl
    | some key => cases r.givenValue.isSome <;> rfl
  | length | keys => exact absurd (by simp) hv
  | purge | ping | close => rfl

/-- A local message is answered by what is found under its key. -/
theorem execute_snd_congr (hlocal : Local message)
    (hget : ∀ key, subject? message = some key →
      cache.store.get reading.now key = cache'.store.get reading'.now key) :
    (execute cache reading message).2 = (execute cache' reading' message).2 := by
  unfold Local verb? at hlocal
  unfold subject? at hget
  unfold execute
  cases hparse : Request.parse message with
  | error e => rfl
  | ok r =>
    rw [hparse] at hlocal hget
    dsimp only at hlocal hget ⊢
    cases hverb : r.verb with
    | none => rfl
    | some v =>
      rw [hverb] at hlocal hget
      have hv : v ∉ [.length, .keys] := fun hv =>
        hlocal (List.mem_cons_of_mem _ (by simpa using hv))
      have hfound : ∀ key, r.givenKey = some key → v = .get →
          cache.store.get reading.now key = cache'.store.get reading'.now key := by
        rintro key hkey rfl
        exact hget key (by simp [hkey])
      exact congrArg (·, flowAfter v) (perform_snd_congr hv hfound)

/-- What a message leaves under a key depends on the store only by what was stored there. -/
theorem find?_execute_congr {key : String}
    (h : cache.store.find? key = cache'.store.find? key) :
    (execute cache reading message).1.store.find? key =
      (execute cache' reading' message).1.store.find? key := by
  by_cases hwrites : ∃ w, Performs message w
  · obtain ⟨w, hw⟩ := hwrites
    rw [(execute_of_performs hw).1, (execute_of_performs hw).1]
    exact w.find?_apply_congr h
  · have hnone : ∀ w, ¬ Performs message w := fun w hw => hwrites ⟨w, hw⟩
    rw [(execute_of_not_performs hnone).1, (execute_of_not_performs hnone).1, h]

/-! ## Runs of several clients -/

/-- A message of one of several clients, with the reading of the clock at which it is executed. -/
structure Turn (ι : Type) where
  client : ι
  reading : Reading
  message : Bytes

/-- The cache that clients share, and what each has been answered so far. -/
structure Session (ι : Type) where
  cache : Cache
  answered : ι → List (Response × Flow)

/-- The messages of one client in a run. -/
def messagesOf {ι : Type} [DecidableEq ι] (i : ι) (turns : List (Turn ι)) : List Bytes :=
  (turns.filter (·.client = i)).map (·.message)

namespace Session

variable {ι : Type} [DecidableEq ι]

/-- Before anything was answered. -/
def start (cache : Cache) : Session ι := ⟨cache, fun _ => []⟩

/-- Executes one message, and answers the client that sent it. -/
def serve (s : Session ι) (t : Turn ι) : Session ι :=
  let (after, answer) := execute s.cache t.reading t.message
  ⟨after, Function.update s.answered t.client (s.answered t.client ++ [answer])⟩

/-- Executes messages one after the other. -/
def run (s : Session ι) (turns : List (Turn ι)) : Session ι := turns.foldl serve s

/-- A session goes on from what its first turn leaves. -/
theorem run_cons (s : Session ι) (t : Turn ι) (turns : List (Turn ι)) :
    s.run (t :: turns) = (s.serve t).run turns := rfl

/-- What a turn does to the cache is a step. -/
theorem cache_serve (s : Session ι) (t : Turn ι) :
    (s.serve t).cache = (Step.message t.reading t.message).apply s.cache := rfl

/-- The client of a turn gets one more answer. -/
theorem answered_serve_self (s : Session ι) (t : Turn ι) :
    (s.serve t).answered t.client =
      s.answered t.client ++ [(execute s.cache t.reading t.message).2] :=
  Function.update_self ..

/-- The others get no answer. -/
theorem answered_serve_of_ne (s : Session ι) {t : Turn ι} {i : ι} (h : i ≠ t.client) :
    (s.serve t).answered i = s.answered i :=
  Function.update_of_ne h ..

/-- A turn leaves the keys that its message is not about. -/
theorem find?_serve (s : Session ι) {t : Turn ι} {key : String} (hlocal : Local t.message)
    (h : subject? t.message ≠ some key) :
    (s.serve t).cache.store.find? key = s.cache.store.find? key := by
  rw [cache_serve]
  exact Step.find?_of_not_affects fun w hw haffects => h (subject?_of_affects hlocal hw haffects)

/-- No turn gives an entry a deadline. -/
theorem lasting_serve {s : Session ι} (h : s.cache.store.Lasting) (t : Turn ι) :
    (s.serve t).cache.store.Lasting :=
  Step.lasting_apply h (.message t.reading t.message)

/-- Two runs that a client cannot tell apart, given the keys that it owns. -/
structure Alike (i : ι) (owned : List String) (s t : Session ι) : Prop where
  answered : s.answered i = t.answered i
  stored : ∀ key ∈ owned, s.cache.store.find? key = t.cache.store.find? key
  lasting : s.cache.store.Lasting ∧ t.cache.store.Lasting

variable {i : ι} {owned : List String} {s t : Session ι} {turn turn' : Turn ι}

omit [DecidableEq ι] in
/-- A session is like itself. -/
theorem alike_refl (h : s.cache.store.Lasting) : Alike i owned s s := ⟨rfl, fun _ _ => rfl, h, h⟩

/-- A message of the client, taken in both runs. -/
theorem Alike.own (h : Alike i owned s t) (hclient : turn.client = i) (hclient' : turn'.client = i)
    (hmessage : turn.message = turn'.message) (hlocal : Local turn.message)
    (howned : ∀ key, subject? turn.message = some key → key ∈ owned) :
    Alike i owned (s.serve turn) (t.serve turn') where
  answered := by
    have hanswer : (execute s.cache turn.reading turn.message).2 =
        (execute t.cache turn'.reading turn.message).2 :=
      execute_snd_congr hlocal fun key hkey => by
        rw [h.lasting.1.get_eq, h.lasting.2.get_eq, h.stored key (howned key hkey)]
    subst hclient
    have hother := answered_serve_self t turn'
    rw [hclient'] at hother
    rw [answered_serve_self, hother, h.answered, ← hmessage, hanswer]
  stored key hkey := by
    rw [cache_serve, cache_serve, ← hmessage]
    exact find?_execute_congr (h.stored key hkey)
  lasting := ⟨lasting_serve h.lasting.1 turn, lasting_serve h.lasting.2 turn'⟩

/-- A message of another client, taken in the first run alone. -/
theorem Alike.other (h : Alike i owned s t) (hclient : turn.client ≠ i)
    (hlocal : Local turn.message) (hfree : ∀ key ∈ owned, subject? turn.message ≠ some key) :
    Alike i owned (s.serve turn) t where
  answered := (answered_serve_of_ne s hclient.symm).trans h.answered
  stored key hkey := (find?_serve s hlocal (hfree key hkey)).trans (h.stored key hkey)
  lasting := ⟨lasting_serve h.lasting.1 turn, h.lasting.2⟩

/-- A client cannot tell a run with others, who leave its keys alone, from a run of its own. -/
theorem Alike.run (h : Alike i owned s t) {turns alone : List (Turn ι)}
    (hclient : ∀ turn ∈ alone, turn.client = i)
    (hmessages : messagesOf i turns = alone.map (·.message))
    (hlocal : ∀ turn ∈ turns, Local turn.message)
    (howned : ∀ turn ∈ turns, turn.client = i → ∀ key, subject? turn.message = some key →
      key ∈ owned)
    (hfree : ∀ turn ∈ turns, turn.client ≠ i → ∀ key ∈ owned, subject? turn.message ≠ some key) :
    Alike i owned (s.run turns) (t.run alone) := by
  induction turns generalizing s t alone with
  | nil =>
    obtain rfl := List.map_eq_nil_iff.1 hmessages.symm
    exact h
  | cons turn turns ih =>
    obtain ⟨hlocalTurn, hlocal⟩ := List.forall_mem_cons.1 hlocal
    obtain ⟨hownedTurn, howned⟩ := List.forall_mem_cons.1 howned
    obtain ⟨hfreeTurn, hfree⟩ := List.forall_mem_cons.1 hfree
    rw [run_cons]
    by_cases hi : turn.client = i
    · -- the client's own turn is the next one of its lone run, at a reading of its own
      rw [messagesOf, List.filter_cons_of_pos (by simpa using hi), List.map_cons] at hmessages
      obtain ⟨turn', alone, rfl, hmessage, hrest⟩ := List.map_eq_cons_iff.1 hmessages.symm
      obtain ⟨hclientTurn, hclient⟩ := List.forall_mem_cons.1 hclient
      rw [run_cons]
      exact ih (h.own hi hclientTurn hmessage.symm hlocalTurn (hownedTurn hi)) hclient hrest.symm
        hlocal howned hfree
    · rw [messagesOf, List.filter_cons_of_neg (by simpa using hi)] at hmessages
      exact ih (h.other hi hlocalTurn (hfreeTurn hi)) hclient hmessages hlocal howned hfree

/-- A run leaves the keys that none of its messages is about. -/
theorem find?_run (s : Session ι) {turns : List (Turn ι)} {key : String}
    (hlocal : ∀ turn ∈ turns, Local turn.message)
    (hfree : ∀ turn ∈ turns, subject? turn.message ≠ some key) :
    (s.run turns).cache.store.find? key = s.cache.store.find? key := by
  induction turns generalizing s with
  | nil => rfl
  | cons turn turns ih =>
    obtain ⟨hlocalTurn, hlocal⟩ := List.forall_mem_cons.1 hlocal
    obtain ⟨hfreeTurn, hfree⟩ := List.forall_mem_cons.1 hfree
    rw [run_cons, ih _ hlocal hfree, find?_serve s hlocalTurn hfreeTurn]

end Session

/-! ## All clients -/

/-- The message of a turn is among those of its client. -/
theorem mem_messagesOf {ι : Type} [DecidableEq ι] {turns : List (Turn ι)} {turn : Turn ι}
    (h : turn ∈ turns) : turn.message ∈ messagesOf turn.client turns :=
  List.mem_map_of_mem (List.mem_filter.2 ⟨h, decide_eq_true rfl⟩)

/-- Clients that do not ask for the store as a whole, and whose messages are about different keys,
are answered in any interleaving what each would be answered alone, if nothing in the store has a
deadline. Each finds its keys as it would have left them alone, and the keys of none of them are as
they were. -/
theorem answered_eq_alone {ι : Type} [DecidableEq ι] {cache : Cache} {messages : ι → List Bytes}
    {turns : List (Turn ι)} (hlasting : cache.store.Lasting)
    (hlocal : ∀ i, ∀ message ∈ messages i, Local message)
    (hdisjoint : ∀ i j, i ≠ j → (subjects (messages i)).Disjoint (subjects (messages j)))
    (hturns : ∀ i, messagesOf i turns = messages i) :
    let shared := (Session.start cache).run turns
    (∀ i (alone : List (Turn ι)), (∀ turn ∈ alone, turn.client = i) →
      alone.map (·.message) = messages i →
        let lone := (Session.start cache).run alone
        shared.answered i = lone.answered i ∧
          ∀ key ∈ subjects (messages i),
            shared.cache.store.find? key = lone.cache.store.find? key) ∧
      ∀ key, (∀ i, key ∉ subjects (messages i)) →
        shared.cache.store.find? key = cache.store.find? key := by
  intro shared
  have hsent : ∀ turn ∈ turns, turn.message ∈ messages turn.client := fun turn hturn =>
    hturns turn.client ▸ mem_messagesOf hturn
  have hlocalTurns : ∀ turn ∈ turns, Local turn.message := fun turn hturn =>
    hlocal _ _ (hsent turn hturn)
  refine ⟨fun i alone hclient halone => ?_, fun key hkey => ?_⟩
  · have halike : (Session.start cache).Alike i (subjects (messages i)) (Session.start cache) :=
      Session.alike_refl hlasting
    have hruns := halike.run hclient ((hturns i).trans halone.symm) hlocalTurns
      (fun turn hturn hi key hkey =>
        mem_subjects_iff.2 ⟨_, hi ▸ hsent turn hturn, hkey⟩)
      (fun turn hturn hi key hkey hsubject =>
        hdisjoint i turn.client (Ne.symm hi) hkey
          (mem_subjects_iff.2 ⟨_, hsent turn hturn, hsubject⟩))
    exact ⟨hruns.answered, hruns.stored⟩
  · exact Session.find?_run _ hlocalTurns fun turn hturn hsubject =>
      hkey turn.client (mem_subjects_iff.2 ⟨_, hsent turn hturn, hsubject⟩)

/-- Two clients, with a message that cannot be read and one with an unknown verb between their
commands, on a store with an entry of neither. -/
theorem answered_eq_alone_two :
    let setting := Request.encode ⟨some .set, some "a", some [1]⟩
    let getting := Request.encode ⟨some .get, some "a", none⟩
    let deleting := Request.encode ⟨some .delete, some "b", none⟩
    let flushing := Bytes.ofText "RCSP/1.0 FLUSH\r\nKEY: a\r\n"
    let cache : Cache := ⟨Store.empty.set "c" [3], .initial⟩
    let messages : Bool → List Bytes
      | false => [setting, getting]
      | true => [flushing, deleting, []]
    let turns : List (Turn Bool) :=
      [⟨true, ⟨⟨0⟩, 0⟩, flushing⟩, ⟨false, ⟨⟨1⟩, 0⟩, setting⟩, ⟨true, ⟨⟨2⟩, 0⟩, deleting⟩,
        ⟨false, ⟨⟨3⟩, 0⟩, getting⟩, ⟨true, ⟨⟨4⟩, 0⟩, []⟩]
    let shared := (Session.start cache).run turns
    cache.store.Lasting ∧ (∀ i, ∀ message ∈ messages i, Local message) ∧
      (∀ i j, i ≠ j → (subjects (messages i)).Disjoint (subjects (messages j))) ∧
      (∀ i, messagesOf i turns = messages i) ∧
      shared.answered false = [({ Response.success .set with key := some "a" }, .proceed),
        (getReply "a" (some [1]), .proceed)] ∧
      shared.cache.store.find? "c" = some (.lasting [3]) := by
  intro setting getting deleting flushing cache messages turns shared
  have hlasting : cache.store.Lasting := Store.lasting_empty.put "c" [3]
  have hlocal : ∀ i, ∀ message ∈ messages i, Local message := by decide
  have hdisjoint : ∀ i j, i ≠ j → (subjects (messages i)).Disjoint (subjects (messages j)) := by
    have hfirst : subjects (messages false) = ["a", "a"] := by decide
    have hsecond : subjects (messages true) = ["b"] := by decide
    rintro (_ | _) (_ | _) hij
    · exact absurd rfl hij
    · simp [hfirst, hsecond]
    · simp [hfirst, hsecond]
    · exact absurd rfl hij
  have hturns : ∀ i, messagesOf i turns = messages i := by decide
  obtain ⟨hclients, hothers⟩ := answered_eq_alone hlasting hlocal hdisjoint hturns
  have halone := hclients false [⟨false, ⟨⟨7⟩, 0⟩, setting⟩, ⟨false, ⟨⟨9⟩, 0⟩, getting⟩]
    (by simp) rfl
  refine ⟨hlasting, hlocal, hdisjoint, hturns, halone.1.trans ?_, ?_⟩
  · decide
  · rw [hothers "c" (by decide)]
    rfl

end CacheServer.Native
