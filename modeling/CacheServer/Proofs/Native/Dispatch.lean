import CacheServer.Proofs.Native.Command

/-!
# The dispatch table

`Answers` is the table of the protocol: for each outcome of reading a message, the one response
that answers it, by what is live in the store. `parse_execute` says that what is written for a
message can be read by a client, and is read as the row of the table for that message. The only
thing asked of the store is that its live keys and values hold no line end; what a message itself
brings in is never a reason for a reply that cannot be read.

A response is written without its empty fields, so a row has the fields that are left
(`Response.normal`). The two rows where a field can turn out empty say so with `filled?`.
-/

namespace CacheServer

open Protocol
open Bytes (crlf)

/-- No live key and no live value holds a line end. -/
structure Store.LineFree (s : Store) (now : Instant) : Prop where
  key : ∀ entry ∈ s.live now, ¬ crlf <:+: Bytes.ofText entry.1
  value : ∀ entry ∈ s.live now, ¬ crlf <:+: entry.2.data

namespace Native

/-- The value of a field that is left out when it is empty. -/
def filled? (value : Bytes) : Option Bytes := if value = [] then none else some value

/-- The rows of the dispatch table, from the outcome of reading a message to its response. -/
inductive Answers (store : Store) (now : Instant) : Except ProtocolError Request → Response → Prop
  | unreadable {e : ProtocolError} :
      Answers store now (.error e) ⟨none, false, some e.clientMessage, none, none⟩
  | unknownVerb {key : Option String} {value : Option Bytes} :
      Answers store now (.ok ⟨none, key, value⟩)
        ⟨none, false, some "Received invalid command", none, none⟩
  /-- A key that is empty is missing. -/
  | keyMissing {verb : Verb} {key : Option String} {value : Option Bytes} :
      verb ∈ [Verb.set, .get, .delete] → (∀ k ∈ key, k = "") →
      Answers store now (.ok ⟨some verb, key, value⟩)
        ⟨some verb, false, some "Key is missing", none, none⟩
  /-- A value that is empty is missing. -/
  | valueMissing {key : String} {value : Option Bytes} : key ≠ "" → (∀ v ∈ value, v = []) →
      Answers store now (.ok ⟨some .set, some key, value⟩)
        ⟨some .set, false, some "Value is missing", some key, none⟩
  | set {key : String} {value : Bytes} : key ≠ "" → value ≠ [] →
      Answers store now (.ok ⟨some .set, some key, some value⟩)
        ⟨some .set, true, none, some key, none⟩
  | unexpectedValue {verb : Verb} {key : String} {value : Bytes} :
      verb ∈ [Verb.get, .delete] → key ≠ "" → value ≠ [] →
      Answers store now (.ok ⟨some verb, some key, some value⟩)
        ⟨some verb, false, some "Received unexpected value", some key, none⟩
  | found {key : String} {value : Option Bytes} {stored : Bytes} : key ≠ "" →
      (∀ v ∈ value, v = []) → store.get now key = some stored →
      Answers store now (.ok ⟨some .get, some key, value⟩)
        ⟨some .get, true, none, some key, filled? stored⟩
  | notFound {key : String} {value : Option Bytes} : key ≠ "" → (∀ v ∈ value, v = []) →
      store.get now key = none →
      Answers store now (.ok ⟨some .get, some key, value⟩)
        ⟨some .get, false, some "Not found", some key, none⟩
  /-- A key is deleted whether or not it was there. -/
  | delete {key : String} {value : Option Bytes} : key ≠ "" → (∀ v ∈ value, v = []) →
      Answers store now (.ok ⟨some .delete, some key, value⟩)
        ⟨some .delete, true, none, some key, none⟩
  | purge {key : Option String} {value : Option Bytes} :
      Answers store now (.ok ⟨some .purge, key, value⟩) ⟨some .purge, true, none, none, none⟩
  | length {key : Option String} {value : Option Bytes} :
      Answers store now (.ok ⟨some .length, key, value⟩)
        ⟨some .length, true, none, none, some (Bytes.ofText (Nat.repr (store.size now)))⟩
  | keys {key : Option String} {value : Option Bytes} : store.keys now ≠ [] →
      Answers store now (.ok ⟨some .keys, key, value⟩)
        ⟨some .keys, true, none, none,
          filled? (Bytes.ofText (",".intercalate (store.keys now)))⟩
  | noKeys {key : Option String} {value : Option Bytes} : store.keys now = [] →
      Answers store now (.ok ⟨some .keys, key, value⟩)
        ⟨some .keys, false, some "No keys", none, none⟩
  | ping {key : Option String} {value : Option Bytes} :
      Answers store now (.ok ⟨some .ping, key, value⟩) ⟨some .ping, true, some "PONG", none, none⟩
  | close {key : Option String} {value : Option Bytes} :
      Answers store now (.ok ⟨some .close, key, value⟩) ⟨some .close, true, none, none, none⟩

/-! ## Every response is a row -/

/-- A response all of whose fields are written. -/
structure Filled (r : Response) : Prop where
  message : r.message ≠ some ""
  key : r.key ≠ some ""
  value : r.value ≠ some []

/-- A field that is not empty is kept. -/
theorem filter_eq_self {α : Type} [DecidableEq α] {found : Option α} {empty : α}
    (h : found ≠ some empty) : found.filter (· ≠ empty) = found := by
  cases found with
  | none => rfl
  | some a =>
    have hne : a ≠ empty := fun heq => h (congrArg some heq)
    simp [Option.filter_some, hne]

/-- A response without empty fields is its own normal form. -/
theorem Filled.normal_eq {r : Response} (h : Filled r) : r.normal = r := by
  rw [Response.normal, filter_eq_self h.message, filter_eq_self h.key, filter_eq_self h.value]

/-- A bare success has no empty field. -/
theorem filled_success (v : Verb) : Filled (.success v) := ⟨nofun, nofun, nofun⟩

/-- A success with a key that is not empty has no empty field. -/
theorem filled_withKey {v : Verb} {key : String} (hkey : key ≠ "") :
    Filled { Response.success v with key := some key } :=
  ⟨nofun, by simpa using hkey, nofun⟩

/-- A success with a value that is not empty has no empty field. -/
theorem filled_withValue {v : Verb} {value : Bytes} (hvalue : value ≠ []) :
    Filled { Response.success v with value := some value } :=
  ⟨nofun, nofun, by simpa using hvalue⟩

/-- A success with a message has no empty field. -/
theorem filled_withMessage {v : Verb} {text : String} (htext : text ≠ "") :
    Filled { Response.success v with message := some text } :=
  ⟨by simpa using htext, nofun, nofun⟩

/-- A refusal with a message and no empty key has no empty field. -/
theorem filled_rejection {v : Verb} {text : String} {key : Option String} (htext : text ≠ "")
    (hkey : key ≠ some "") : Filled (.rejection v text key) :=
  ⟨by simpa [Response.rejection] using htext, hkey, nofun⟩

/-- The answer to bad data has no empty field. -/
theorem filled_protocolFailure {text : String} (htext : text ≠ "") :
    Filled (.protocolFailure text) :=
  ⟨by simpa [Response.protocolFailure] using htext, nofun, nofun⟩

/-- A value is written unless it is empty. -/
theorem normal_withValue (v : Verb) {key : Option String} (value : Bytes) (hkey : key ≠ some "") :
    Response.normal ⟨some v, true, none, key, some value⟩ =
      ⟨some v, true, none, key, filled? value⟩ := by
  have hvalue : (some value).filter (· ≠ []) = filled? value := by
    rw [Option.filter_some, filled?]
    by_cases h : value = [] <;> simp [h]
  rw [Response.normal, filter_eq_self hkey, hvalue]
  rfl

variable {store : Store} {now : Instant}

/-- A response without empty fields answers in its normal form too. -/
theorem Answers.normal {outcome : Except ProtocolError Request} {r : Response}
    (h : Answers store now outcome r) (hfilled : Filled r) :
    Answers store now outcome r.normal := by
  rwa [hfilled.normal_eq]

/-- A command without a key is answered as the table says. -/
theorem answers_keyMissing {verb : Verb} {key : Option String} {value : Option Bytes}
    (hverb : verb ∈ [Verb.set, .get, .delete])
    (hkey : Request.givenKey ⟨some verb, key, value⟩ = none) :
    Answers store now (.ok ⟨some verb, key, value⟩)
      (Response.rejection verb keyMissing none).normal :=
  .normal (.keyMissing hverb (Request.givenKey_eq_none_iff.1 hkey))
    (filled_rejection (by decide) nofun)

/-- A value that is not expected is answered as the table says. -/
theorem answers_unexpectedValue {verb : Verb} {key : String} {value : Option Bytes}
    (hverb : verb ∈ [Verb.get, .delete]) (hkey : key ≠ "")
    (hvalue : (Request.givenValue ⟨some verb, some key, value⟩).isSome) :
    Answers store now (.ok ⟨some verb, some key, value⟩)
      (Response.rejection verb unexpectedValue (some key)).normal := by
  obtain ⟨v, hvalue⟩ := Option.isSome_iff_exists.1 hvalue
  obtain ⟨rfl, hv⟩ := Request.givenValue_eq_some_iff.1 hvalue
  exact .normal (.unexpectedValue hverb hkey hv)
    (filled_rejection (by decide) (by simpa using hkey))

variable (cache : Cache) (key : Option String) (value : Option Bytes)

/-- `SET` is answered as the table says. -/
theorem answers_performSet : Answers store now (.ok ⟨some .set, key, value⟩)
    (performSet cache ⟨some .set, key, value⟩).2.normal := by
  fun_cases performSet cache ⟨some .set, key, value⟩ with
  | case1 hkey => exact answers_keyMissing (by simp) hkey
  | case2 k hkey hvalue =>
    obtain ⟨rfl, hk⟩ := Request.givenKey_eq_some_iff.1 hkey
    exact .normal (.valueMissing hk (Request.givenValue_eq_none_iff.1 hvalue))
      (filled_rejection (by decide) (by simpa using hk))
  | case3 k hkey v hvalue =>
    obtain ⟨rfl, hk⟩ := Request.givenKey_eq_some_iff.1 hkey
    obtain ⟨rfl, hv⟩ := Request.givenValue_eq_some_iff.1 hvalue
    exact .normal (.set hk hv) (filled_withKey hk)

/-- `GET` is answered as the table says. -/
theorem answers_performGet : Answers cache.store now (.ok ⟨some .get, key, value⟩)
    (performGet cache now ⟨some .get, key, value⟩).2.normal := by
  fun_cases performGet cache now ⟨some .get, key, value⟩ with
  | case1 hkey => exact answers_keyMissing (by simp) hkey
  | case2 k hkey hvalue =>
    obtain ⟨rfl, hk⟩ := Request.givenKey_eq_some_iff.1 hkey
    exact answers_unexpectedValue (by simp) hk hvalue
  | case3 k hkey hvalue found counted stored hfound =>
    obtain ⟨rfl, hk⟩ := Request.givenKey_eq_some_iff.1 hkey
    have hnone := Request.givenValue_eq_none_iff.1 (Option.not_isSome_iff_eq_none.1 hvalue)
    have hkey : some k ≠ some "" := by simpa using hk
    exact normal_withValue .get stored hkey ▸ .found hk hnone hfound
  | case4 k hkey hvalue found counted hfound =>
    obtain ⟨rfl, hk⟩ := Request.givenKey_eq_some_iff.1 hkey
    have hnone := Request.givenValue_eq_none_iff.1 (Option.not_isSome_iff_eq_none.1 hvalue)
    exact .normal (.notFound hk hnone hfound) (filled_rejection (by decide) (by simpa using hk))

/-- `DELETE` is answered as the table says. -/
theorem answers_performDelete : Answers store now (.ok ⟨some .delete, key, value⟩)
    (performDelete cache now ⟨some .delete, key, value⟩).2.normal := by
  fun_cases performDelete cache now ⟨some .delete, key, value⟩ with
  | case1 hkey => exact answers_keyMissing (by simp) hkey
  | case2 k hkey hvalue =>
    obtain ⟨rfl, hk⟩ := Request.givenKey_eq_some_iff.1 hkey
    exact answers_unexpectedValue (by simp) hk hvalue
  | case3 k hkey hvalue =>
    obtain ⟨rfl, hk⟩ := Request.givenKey_eq_some_iff.1 hkey
    have hnone := Request.givenValue_eq_none_iff.1 (Option.not_isSome_iff_eq_none.1 hvalue)
    exact .normal (.delete hk hnone) (filled_withKey hk)

/-- `KEYS` is answered as the table says. -/
theorem answers_keysResponse : Answers store now (.ok ⟨some .keys, key, value⟩)
    (keysResponse (store.keys now)).normal := by
  fun_cases keysResponse (store.keys now) with
  | case1 hnone =>
    exact .normal (.noKeys (List.isEmpty_iff.1 hnone)) (filled_rejection (by decide) (by simp))
  | case2 hsome =>
    have hkey : none ≠ some "" := by simp
    exact normal_withValue .keys _ hkey ▸ .keys (mt List.isEmpty_iff.2 hsome)

/-- A command is answered by a row of the table. -/
theorem answers_perform (v : Verb) : Answers cache.store now (.ok ⟨some v, key, value⟩)
    (perform cache now v ⟨some v, key, value⟩).2.normal := by
  cases v with
  | set => exact answers_performSet cache key value
  | get => exact answers_performGet cache key value
  | delete => exact answers_performDelete cache key value
  | purge => exact .normal .purge (filled_success _)
  | length =>
    exact .normal .length (filled_withValue (mt Bytes.ofText_eq_nil_iff.1 Nat.repr_ne_empty))
  | keys => exact answers_keysResponse key value
  | ping => exact .normal .ping (filled_withMessage (by decide))
  | close => exact .normal .close (filled_success _)

/-- A message is answered by a row of the table, its empty fields aside. -/
theorem answers_execute (cache : Cache) (reading : Reading) (message : Bytes) :
    Answers cache.store reading.now (Request.parse message)
      (execute cache reading message).2.1.normal := by
  cases hparse : Request.parse message with
  | error e =>
    have hreply : (execute cache reading message).2.1 = .protocolFailure e.clientMessage := by
      simp only [execute, hparse]
    rw [hreply]
    exact .normal .unreadable (filled_protocolFailure (by cases e <;> decide))
  | ok r =>
    obtain ⟨verb, key, value⟩ := r
    cases verb with
    | none =>
      have hreply : (execute cache reading message).2.1 = .protocolFailure invalidCommand := by
        simp only [execute, hparse]
      rw [hreply]
      exact .normal .unknownVerb (filled_protocolFailure (by decide))
    | some v =>
      rw [(execute_of_parse cache reading hparse rfl).2]
      exact answers_perform { cache with metrics := cache.metrics.countCommand v } key value v

/-! ## A row can be read -/

/-- Rows for one outcome exclude each other by what is missing, given or found. -/
theorem Answers.unique {outcome : Except ProtocolError Request} {r r' : Response}
    (h : Answers store now outcome r) (h' : Answers store now outcome r') : r = r' := by
  cases h <;> cases h' <;> simp_all

/-- Texts of one line each are one line with commas between them. -/
theorem crlf_not_infix_intercalate {keys : List String}
    (h : ∀ key ∈ keys, ¬ crlf <:+: Bytes.ofText key) :
    ¬ crlf <:+: Bytes.ofText (",".intercalate keys) := by
  have hcomma : Bytes.ofText "," = [44] := by decide
  rw [Bytes.ofText_intercalate, hcomma]
  induction keys with
  | nil => decide
  | cons key rest ih =>
    obtain ⟨hkey, hrest⟩ := List.forall_mem_cons.1 h
    cases rest with
    | nil => rwa [List.map_singleton, List.intercalate_singleton]
    | cons next rest =>
      rw [List.map_cons, List.map_cons, List.intercalate_cons_cons, List.append_assoc]
      exact Bytes.crlf_not_infix_append_cons (by decide) hkey (ih hrest)

variable {outcome : Except ProtocolError Request} {r : Response}

/-- The message of an answer is one line. -/
theorem Answers.message_line_free (h : Answers store now outcome r) :
    ∀ text ∈ r.message, ¬ crlf <:+: Bytes.ofText text := by
  have hclient : ∀ e : ProtocolError, ¬ crlf <:+: Bytes.ofText e.clientMessage := by
    intro e
    cases e <;> decide
  cases h with
  | unreadable => rintro _ ⟨⟩; exact hclient _
  | unknownVerb | keyMissing | valueMissing | unexpectedValue | notFound | noKeys | ping =>
    rintro _ ⟨⟩
    decide
  | set | found | delete | purge | length | keys | close => exact nofun

/-- The key of a row is the one that was read. -/
theorem Answers.exists_key_eq (h : Answers store now outcome r) :
    ∀ key ∈ r.key, ∃ request, outcome = .ok request ∧ key ∈ request.key := by
  cases h <;> simp

/-- The value of an answer is one line if the live entries are. -/
theorem Answers.value_line_free (h : Answers store now outcome r) (hlive : store.LineFree now) :
    ∀ value ∈ r.value, ¬ crlf <:+: value := by
  have hfilled : ∀ {bs : Bytes}, ¬ crlf <:+: bs → ∀ value ∈ filled? bs, ¬ crlf <:+: value := by
    intro bs hbs value hvalue
    rw [filled?] at hvalue
    split at hvalue
    · cases hvalue
    · cases hvalue
      exact hbs
  cases h with
  | found _ _ hfound =>
    obtain ⟨item, hitem, rfl⟩ := Option.map_eq_some_iff.1 hfound
    exact hfilled (hlive.value _ (Store.mem_live_iff.2 hitem))
  | length =>
    rintro _ ⟨⟩
    exact Bytes.crlf_not_infix_of_not_mem (Text.return_not_mem_repr _)
  | keys =>
    refine hfilled (crlf_not_infix_intercalate fun key hkey => ?_)
    obtain ⟨entry, hentry, rfl⟩ := List.mem_map.1 hkey
    exact hlive.key entry hentry
  | _ => exact nofun

/-- Whatever the message, what is written for it is read as one response, and this is the row of
the dispatch table for the message, if no live key and no live value holds a line end. -/
theorem parse_execute (cache : Cache) (reading : Reading) (message : Bytes) (buffer : ReplyBuffer)
    (hlive : cache.store.LineFree reading.now) :
    ∃ bytes r, (buffer.write (execute cache reading message).2.1).pending =
        buffer.pending ++ bytes ∧
      Response.parse bytes = .ok r ∧
      ∀ row, Answers cache.store reading.now (Request.parse message) row ↔ row = r := by
  have hrow := answers_execute cache reading message
  have hfree : Response.LineFree (execute cache reading message).2.1 := by
    refine Response.lineFree_normal_iff.1 ⟨hrow.message_line_free, fun key hkey => ?_,
      hrow.value_line_free hlive⟩
    obtain ⟨request, hparse, hmem⟩ := hrow.exists_key_eq key hkey
    exact (Request.parse_eq_ok_iff.1 hparse).key_line_free key hmem
  refine ⟨_, _, rfl, Response.parse_encode_of_lineFree hfree, fun row =>
    ⟨fun h => (hrow.unique h).symm, ?_⟩⟩
  rintro rfl
  exact hrow

/-- An expired key with a line end in it does not keep the live one from being listed. -/
theorem parse_execute_keys :
    let store := (Store.empty.setWithTtl ⟨0⟩ "\r\n" [1] ⟨10, by decide⟩).set "a" [2]
    let message := Request.encode ⟨some .keys, none, none⟩
    store.LineFree ⟨10⟩ ∧
      ∃ bytes, (ReplyBuffer.empty.write (execute ⟨store, .initial⟩ ⟨⟨10⟩, 0⟩ message).2.1).pending =
          bytes ∧
        Response.parse bytes = .ok ⟨some .keys, true, none, none, some (Bytes.ofText "a")⟩ := by
  intro store message
  have hlive : store.LineFree ⟨10⟩ := ⟨by decide, by decide⟩
  obtain ⟨bytes, r, hbytes, hparse, hrow⟩ :=
    parse_execute ⟨store, .initial⟩ ⟨⟨10⟩, 0⟩ message .empty hlive
  have hread : Request.parse message = .ok ⟨some .keys, none, none⟩ := by decide
  rw [hread] at hrow
  have hkeys : store.keys ⟨10⟩ ≠ [] := by decide
  refine ⟨hlive, bytes, hbytes, ?_⟩
  rw [hparse, ← (hrow _).1 (.keys hkeys)]
  rfl

end Native

end CacheServer
