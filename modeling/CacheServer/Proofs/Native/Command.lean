import CacheServer.Native.Command
import CacheServer.Proofs.Protocol.Request
import CacheServer.Proofs.Protocol.Response
import CacheServer.Proofs.Store.Lookup

/-!
# What a command stores and answers

What the commands on a key do to the store, and their answers (`execute_set`, `execute_get`,
`execute_delete`), and what they come to together: a value that was stored is in the answer to a
`GET` of its key. Whether a client can read that answer depends on the value. A response is cut at
every line end, so a value with one in it is stored and sent, but not read back
(`parse_get_reply_iff`).
-/

namespace CacheServer

open Protocol
open Bytes (crlf)

namespace Protocol.Request

/-- A key counts as given if it is there and not empty. -/
theorem givenKey_eq_some_iff {r : Request} {key : String} :
    r.givenKey = some key ↔ r.key = some key ∧ key ≠ "" := by
  simp [givenKey, Option.filter_eq_some_iff]

/-- No key counts as given if there is none or an empty one. -/
theorem givenKey_eq_none_iff {r : Request} : r.givenKey = none ↔ ∀ k ∈ r.key, k = "" := by
  simp [givenKey, Option.filter_eq_none_iff]

/-- A value counts as given if it is there and not empty. -/
theorem givenValue_eq_some_iff {r : Request} {value : Bytes} :
    r.givenValue = some value ↔ r.value = some value ∧ value ≠ [] := by
  simp [givenValue, Option.filter_eq_some_iff]

/-- No value counts as given if there is none or an empty one. -/
theorem givenValue_eq_none_iff {r : Request} : r.givenValue = none ↔ ∀ v ∈ r.value, v = [] := by
  simp [givenValue, Option.filter_eq_none_iff]

/-- A key that is not empty counts as given. -/
theorem givenKey_some {verb : Option Verb} {key : String} {value : Option Bytes} (h : key ≠ "") :
    givenKey ⟨verb, some key, value⟩ = some key :=
  givenKey_eq_some_iff.2 ⟨rfl, h⟩

/-- A value that is not empty counts as given. -/
theorem givenValue_some {verb : Option Verb} {key : Option String} {value : Bytes}
    (h : value ≠ []) : givenValue ⟨verb, key, some value⟩ = some value :=
  givenValue_eq_some_iff.2 ⟨rfl, h⟩

/-- A value that is missing or empty does not count as given. -/
theorem givenValue_none {verb : Option Verb} {key : Option String} {value : Option Bytes}
    (h : ∀ v ∈ value, v = []) : givenValue ⟨verb, key, value⟩ = none :=
  givenValue_eq_none_iff.2 h

end Protocol.Request

namespace Native

variable {cache : Cache} {reading : Reading} {message : Bytes}

/-- The response of a command names its verb. -/
theorem verb_perform (cache : Cache) (now : Instant) (v : Verb) (r : Request) :
    (perform cache now v r).2.verb = some v := by
  cases v with
  | set => unfold perform; fun_cases performSet cache r <;> rfl
  | get => unfold perform; fun_cases performGet cache now r <;> rfl
  | delete => unfold perform; fun_cases performDelete cache now r <;> rfl
  | keys => unfold perform; dsimp only; fun_cases keysResponse (cache.store.keys now) <;> rfl
  | purge | length | ping | close => rfl

/-- A message with a verb is one command, on a cache in which it is already counted. -/
theorem execute_of_parse (cache : Cache) (reading : Reading) {r : Request} {v : Verb}
    (h : Request.parse message = .ok r) (hv : r.verb = some v) :
    let after := perform { cache with metrics := cache.metrics.countCommand v } reading.now v r
    (execute cache reading message).1.store = after.1.store ∧
      (execute cache reading message).2.1 = after.2 := by
  unfold execute
  simp only [h, hv, and_self]

/-- A `SET` with a key and a value stores the value for good. -/
theorem execute_set {key : String} {value : Bytes}
    (h : Request.parse message = .ok ⟨some .set, some key, some value⟩) (hkey : key ≠ "")
    (hvalue : value ≠ []) :
    (execute cache reading message).1.store = cache.store.set key value ∧
      (execute cache reading message).2.1 = { Response.success .set with key := some key } := by
  obtain ⟨hstore, hreply⟩ := execute_of_parse cache reading h rfl
  rw [hstore, hreply]
  simp only [perform, performSet, Request.givenKey_some hkey, Request.givenValue_some hvalue,
    and_self]

/-- A `DELETE` with a key and no value removes the key. -/
theorem execute_delete {key : String} {value : Option Bytes}
    (h : Request.parse message = .ok ⟨some .delete, some key, value⟩) (hkey : key ≠ "")
    (hvalue : ∀ v ∈ value, v = []) :
    (execute cache reading message).1.store = (cache.store.delete reading.now key).2 ∧
      (execute cache reading message).2.1 = { Response.success .delete with key := some key } := by
  obtain ⟨hstore, hreply⟩ := execute_of_parse cache reading h rfl
  rw [hstore, hreply]
  simp only [perform, performDelete, Request.givenKey_some hkey, Request.givenValue_none hvalue,
    Option.isSome_none, Bool.false_eq_true, if_false, and_self]

/-- The answer to a `GET` of a key, by what is found. -/
def getReply (key : String) : Option Bytes → Response
  | some value => { Response.success .get with key := some key, value := some value }
  | none => .rejection .get notFound (some key)

/-- A `GET` with a key and no value is answered by what the store has, which stays as it is. -/
theorem execute_get {key : String} {value : Option Bytes}
    (h : Request.parse message = .ok ⟨some .get, some key, value⟩) (hkey : key ≠ "")
    (hvalue : ∀ v ∈ value, v = []) :
    (execute cache reading message).1.store = cache.store ∧
      (execute cache reading message).2.1 = getReply key (cache.store.get reading.now key) := by
  obtain ⟨hstore, hreply⟩ := execute_of_parse cache reading h rfl
  rw [hstore, hreply]
  simp only [perform, performGet, Request.givenKey_some hkey, Request.givenValue_none hvalue,
    Option.isSome_none, Bool.false_eq_true, if_false]
  cases cache.store.get reading.now key <;> exact ⟨rfl, rfl⟩

/-! ## Stored and read back -/

/-- A value that was stored by a message is in the answer to the next `GET` of its key, which a
client reads back as it was exactly if there is no line end in the value. -/
theorem parse_get_reply_iff (cache : Cache) (setting getting : Reading) {key : String}
    {value : Bytes} (hkey : key ≠ "") (hline : ¬ crlf <:+: Bytes.ofText key) (hvalue : value ≠ []) :
    let stored := (execute cache setting (Request.encode ⟨some .set, some key, some value⟩)).1
    let reply := (execute stored getting (Request.encode ⟨some .get, some key, none⟩)).2.1
    Response.parse reply.encode = .ok ⟨some .get, true, none, some key, some value⟩ ↔
      ¬ crlf <:+: value := by
  intro stored reply
  have hkeys : ∀ k ∈ some key, ¬ crlf <:+: Bytes.ofText k := by
    rintro _ ⟨⟩
    exact hline
  have hset : Request.parse (Request.encode ⟨some .set, some key, some value⟩) = .ok _ :=
    Request.parse_encode (fun _ => rfl) hkeys
  have hget : Request.parse (Request.encode ⟨some .get, some key, none⟩) = .ok _ :=
    Request.parse_encode (by simp) hkeys
  have hreply : reply = ⟨some .get, true, none, some key, some value⟩ := by
    have hstored : stored.store = cache.store.set key value := (execute_set hset hkey hvalue).1
    have hfound : reply = getReply key (stored.store.get getting.now key) :=
      (execute_get hget hkey (by simp)).2
    rw [hfound, hstored, Store.get_set]
    rfl
  have hnormal : reply.normal = reply := by
    rw [hreply]
    simp [Response.normal, Option.filter, hkey, hvalue]
  rw [← hreply]
  constructor
  · intro h
    have hfree := (Response.LineFree.of_parse h).value
    rw [hreply] at hfree
    exact hfree value rfl
  · intro hfree
    have hlineFree : Response.LineFree reply := by
      rw [hreply]
      refine ⟨by simp, hkeys, ?_⟩
      rintro _ ⟨⟩
      exact hfree
    rw [Response.parse_encode_of_lineFree hlineFree, hnormal]

/-- A lone carriage return is read back. -/
theorem parse_get_reply_carriage_return :
    let stored := (execute .initial ⟨⟨0⟩, 0⟩ (Request.encode ⟨some .set, some "k", some [13]⟩)).1
    let reply := (execute stored ⟨⟨1⟩, 0⟩ (Request.encode ⟨some .get, some "k", none⟩)).2.1
    "k" ≠ "" ∧ ¬ crlf <:+: Bytes.ofText "k" ∧ [13] ≠ ([] : Bytes) ∧
      Response.parse reply.encode = .ok ⟨some .get, true, none, some "k", some [13]⟩ := by
  have hkey : "k" ≠ "" := by decide
  have hline : ¬ crlf <:+: Bytes.ofText "k" := by decide
  have hvalue : [13] ≠ ([] : Bytes) := by decide
  exact ⟨hkey, hline, hvalue,
    (parse_get_reply_iff .initial ⟨⟨0⟩, 0⟩ ⟨⟨1⟩, 0⟩ hkey hline hvalue).2 (by decide)⟩

/-- A value of two lines is stored and sent, and the answer that carries it is refused. -/
theorem parse_get_reply_two_lines :
    let value := Bytes.ofText "a\r\nb"
    let stored := (execute .initial ⟨⟨0⟩, 0⟩ (Request.encode ⟨some .set, some "k", some value⟩)).1
    let reply := (execute stored ⟨⟨1⟩, 0⟩ (Request.encode ⟨some .get, some "k", none⟩)).2.1
    reply = ⟨some .get, true, none, some "k", some value⟩ ∧
      Response.parse reply.encode = .error .malformedResponse := by
  decide

end Native

end CacheServer
