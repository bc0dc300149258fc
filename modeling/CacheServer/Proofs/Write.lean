import CacheServer.Http.Gateway
import CacheServer.Proofs.Http.Route
import CacheServer.Proofs.Native.Command

/-!
# What is written to the store

A native message and a request over HTTP change the store by one write or not at all.
`Native.Performs` and `Http.Performs` say from the bytes alone which write it is; whatever they do
not list, malformed and refused messages, unknown paths, wrong methods and all that only read,
leaves the store as it is and is not answered as a write (`Native.execute_of_not_performs`,
`Http.answer_of_not_performs`).
-/

namespace CacheServer

open Protocol

/-- A change of the store. -/
inductive Write
  | set (key : String) (value : Bytes)
  | delete (key : String)
  | purge
  deriving DecidableEq

namespace Write

/-- Whether a write decides what is stored under a key. -/
def Affects (key : String) : Write → Prop
  | set k _ => k = key
  | delete k => k = key
  | purge => True

/-- The store after a write. -/
def apply (s : Store) : Write → Store
  | set key value => s.set key value
  | delete key => s.restrict (·.1 != key)
  | purge => .empty

/-- A key that was set is found with its value, without a deadline. -/
theorem find?_apply_set (s : Store) (key : String) (value : Bytes) :
    ((set key value).apply s).find? key = some (.lasting value) :=
  Store.find?_put_self s key _

/-- A write that affects a key without setting it leaves nothing there. -/
theorem find?_apply_of_affects {s : Store} {key : String} {w : Write} (h : w.Affects key)
    (hset : ∀ value, w ≠ set key value) : (w.apply s).find? key = none := by
  cases w with
  | set k value =>
    obtain rfl : k = key := h
    exact absurd rfl (hset value)
  | delete k =>
    obtain rfl : k = key := h
    have hkept := Store.find?_restrict_key s (· != k) k
    rw [bne_self_eq_false, if_neg Bool.false_ne_true] at hkept
    exact hkept
  | purge => rfl

/-- A write leaves the keys that it does not affect. -/
theorem find?_apply_of_not_affects {s : Store} {key : String} {w : Write} (h : ¬ w.Affects key) :
    (w.apply s).find? key = s.find? key := by
  cases w with
  | set k value => exact Store.find?_put_of_ne s _ (Ne.symm h)
  | delete k =>
    have hkept := Store.find?_restrict_key s (· != k) key
    rw [if_pos (bne_iff_ne.2 (Ne.symm h))] at hkept
    exact hkept
  | purge => exact absurd trivial h

/-- What a write leaves under a key depends only on what was stored there. -/
theorem find?_apply_congr {s t : Store} {key : String} (h : s.find? key = t.find? key)
    (w : Write) : (w.apply s).find? key = (w.apply t).find? key := by
  cases w with
  | set k value => simp only [apply, Store.set, Store.find?_put, h]
  | delete k => simp only [apply, Store.find?_restrict_key _ (· != k), h]
  | purge => rfl

end Write

/-! ## Native messages -/

namespace Native

/-- The messages that write, with what they write. -/
inductive Performs (message : Bytes) : Write → Prop
  | set {key : String} {value : Bytes} :
      Request.parse message = .ok ⟨some .set, some key, some value⟩ → key ≠ "" → value ≠ [] →
      Performs message (.set key value)
  | delete {key : String} {value : Option Bytes} :
      Request.parse message = .ok ⟨some .delete, some key, value⟩ → key ≠ "" →
      (∀ v ∈ value, v = []) → Performs message (.delete key)
  | purge {key : Option String} {value : Option Bytes} :
      Request.parse message = .ok ⟨some .purge, key, value⟩ → Performs message .purge

variable {cache : Cache} {reading : Reading} {message : Bytes}

/-- A message that cannot be read performs no write. -/
theorem not_performs_of_error {e : ProtocolError} (h : Request.parse message = .error e)
    (w : Write) : ¬ Performs message w := by
  intro hw
  cases hw with
  | set hparse => cases h.symm.trans hparse
  | delete hparse => cases h.symm.trans hparse
  | purge hparse => cases h.symm.trans hparse

/-- The successes of the commands that write. -/
def ReportsWrite (reply : Response) : Prop :=
  reply.ok = true ∧ reply.verb ∈ [some Verb.set, some .delete, some .purge]

/-- A write is made and reported. -/
theorem execute_of_performs {w : Write} (h : Performs message w) :
    (execute cache reading message).1.store = w.apply cache.store ∧
      ReportsWrite (execute cache reading message).2.1 := by
  cases h with
  | set hparse hkey hvalue =>
    obtain ⟨hstore, hreply⟩ := execute_set hparse hkey hvalue
    rw [hstore, hreply]
    exact ⟨rfl, rfl, by simp [Response.success]⟩
  | delete hparse hkey hvalue =>
    obtain ⟨hstore, hreply⟩ := execute_delete hparse hkey hvalue
    rw [hstore, hreply]
    exact ⟨rfl, rfl, by simp [Response.success]⟩
  | purge hparse =>
    obtain ⟨hstore, hreply⟩ := execute_of_parse cache reading hparse rfl
    rw [hstore, hreply]
    exact ⟨rfl, rfl, by simp [perform, Response.success]⟩

/-- A failure reports no write. -/
theorem not_reportsWrite_of_ok {reply : Response} (h : reply.ok = false) :
    ¬ ReportsWrite reply := by
  rintro ⟨hok, -⟩
  exact Bool.false_ne_true (h.symm.trans hok)

/-- Only the replies of three verbs report a write. -/
theorem not_reportsWrite_of_verb {reply : Response} {verb : Verb} (h : reply.verb = some verb)
    (hverb : verb ∉ [Verb.set, .delete, .purge]) : ¬ ReportsWrite reply := by
  rintro ⟨-, hmem⟩
  rw [h] at hmem
  simp only [List.mem_cons, Option.some.injEq] at hmem hverb
  exact hverb (by simpa using hmem)

/-- A `SET` that stores nothing was refused. -/
theorem performSet_of_not_performs {key : Option String} {value : Option Bytes}
    (hparse : Request.parse message = .ok ⟨some .set, key, value⟩)
    (h : ∀ w, ¬ Performs message w) :
    (performSet cache ⟨some .set, key, value⟩).1.store = cache.store ∧
      ¬ ReportsWrite (performSet cache ⟨some .set, key, value⟩).2 := by
  fun_cases performSet cache ⟨some .set, key, value⟩ with
  | case1 => exact ⟨rfl, not_reportsWrite_of_ok rfl⟩
  | case2 => exact ⟨rfl, not_reportsWrite_of_ok rfl⟩
  | case3 k hkey v hvalue =>
    obtain ⟨rfl, hk⟩ := Request.givenKey_eq_some_iff.1 hkey
    obtain ⟨rfl, hv⟩ := Request.givenValue_eq_some_iff.1 hvalue
    exact absurd (.set hparse hk hv) (h _)

/-- A `DELETE` that removes nothing was refused. -/
theorem performDelete_of_not_performs {now : Instant} {key : Option String}
    {value : Option Bytes} (hparse : Request.parse message = .ok ⟨some .delete, key, value⟩)
    (h : ∀ w, ¬ Performs message w) :
    (performDelete cache now ⟨some .delete, key, value⟩).1.store = cache.store ∧
      ¬ ReportsWrite (performDelete cache now ⟨some .delete, key, value⟩).2 := by
  fun_cases performDelete cache now ⟨some .delete, key, value⟩ with
  | case1 => exact ⟨rfl, not_reportsWrite_of_ok rfl⟩
  | case2 => exact ⟨rfl, not_reportsWrite_of_ok rfl⟩
  | case3 k hkey hvalue =>
    obtain ⟨rfl, hk⟩ := Request.givenKey_eq_some_iff.1 hkey
    have hnone := Request.givenValue_eq_none_iff.1 (Option.not_isSome_iff_eq_none.1 hvalue)
    exact absurd (.delete hparse hk hnone) (h _)

/-- A `GET` reads, whether or not it finds anything. -/
theorem performGet_not_reportsWrite (cache : Cache) (now : Instant) (r : Request) :
    (performGet cache now r).1.store = cache.store ∧ ¬ ReportsWrite (performGet cache now r).2 := by
  fun_cases performGet cache now r with
  | case3 => exact ⟨rfl, not_reportsWrite_of_verb rfl (by decide)⟩
  | _ => exact ⟨rfl, not_reportsWrite_of_ok rfl⟩

/-- A list of keys reports no write. -/
theorem keysResponse_not_reportsWrite (keys : List String) :
    ¬ ReportsWrite (keysResponse keys) := by
  fun_cases keysResponse keys with
  | case1 => exact not_reportsWrite_of_ok rfl
  | case2 => exact not_reportsWrite_of_verb rfl (by decide)

/-- A message that performs no write leaves the store as it is and reports none. -/
theorem execute_of_not_performs (h : ∀ w, ¬ Performs message w) :
    (execute cache reading message).1.store = cache.store ∧
      ¬ ReportsWrite (execute cache reading message).2.1 := by
  cases hparse : Request.parse message with
  | error e =>
    rw [execute, hparse]
    exact ⟨rfl, not_reportsWrite_of_ok rfl⟩
  | ok r =>
    obtain ⟨verb, key, value⟩ := r
    cases verb with
    | none =>
      rw [execute, hparse]
      exact ⟨rfl, not_reportsWrite_of_ok rfl⟩
    | some verb =>
      obtain ⟨hstore, hreply⟩ := execute_of_parse cache reading hparse rfl
      rw [hstore, hreply]
      cases verb with
      | set => exact performSet_of_not_performs hparse h
      | get => exact performGet_not_reportsWrite _ _ _
      | delete => exact performDelete_of_not_performs hparse h
      | purge => exact absurd (.purge hparse) (h _)
      | keys => exact ⟨rfl, keysResponse_not_reportsWrite _⟩
      | length | ping | close => exact ⟨rfl, not_reportsWrite_of_verb rfl (by decide)⟩

end Native

/-! ## Requests over HTTP -/

namespace Http

/-- The requests that write, with what they write. -/
inductive Performs (request : Request) : Write → Prop
  | set {key text : String} :
      Route.Serves (Route.path request.target) (.set key) → request.method = "PUT" → key ≠ "" →
      SetBody.read? request.body = some text → text ≠ "" →
      Performs request (.set key (Bytes.ofText text))
  | delete {key : String} :
      Route.Serves (Route.path request.target) (.delete key) → request.method = "DELETE" →
      key ≠ "" → Performs request (.delete key)
  | purge :
      Route.Serves (Route.path request.target) .purge → request.method = "DELETE" →
      Performs request .purge

variable {cache : Cache} {now : Instant} {request : Request}

/-- Nothing is written with the method `GET`, whatever the path. -/
theorem not_performs_of_get (h : request.method = "GET") (w : Write) : ¬ Performs request w := by
  intro hw
  have hne : "GET" ≠ "PUT" ∧ "GET" ≠ "DELETE" := by decide
  cases hw with
  | set _ hmethod => exact hne.1 (h.symm.trans hmethod)
  | delete _ hmethod => exact hne.2 (h.symm.trans hmethod)
  | purge _ hmethod => exact hne.2 (h.symm.trans hmethod)

/-- To count a request leaves the store alone. -/
theorem store_count (cache : Cache) (route : Route) : (count cache route).store = cache.store := by
  fun_cases count cache route <;> rfl

/-- A request to a served path with the method of its route does what the route says. -/
theorem answer_of_serves (cache : Cache) (now : Instant) {route : Route}
    (hpath : Route.Serves (Route.path request.target) route)
    (hmethod : request.method = route.method) :
    answer cache now request = perform (count cache route) now request.body route := by
  unfold answer
  rw [Route.ofTarget?_eq_some_iff.2 hpath]
  exact if_pos hmethod

/-- A write is made and answered 200. -/
theorem answer_of_performs {w : Write} (h : Performs request w) :
    (answer cache now request).1.store = w.apply cache.store ∧
      (answer cache now request).2.status = 200 := by
  cases h with
  | set hpath hmethod hkey hbody htext =>
    rw [answer_of_serves cache now hpath hmethod]
    simp only [perform, performSet, if_neg hkey, hbody, if_neg htext, store_count]
    exact ⟨rfl, rfl⟩
  | delete hpath hmethod hkey =>
    rw [answer_of_serves cache now hpath hmethod]
    simp only [perform, performDelete, if_neg hkey, store_count]
    exact ⟨rfl, rfl⟩
  | purge hpath hmethod =>
    rw [answer_of_serves cache now hpath hmethod]
    exact ⟨rfl, rfl⟩

/-- A route that performs no write only reads, or is refused. -/
theorem perform_of_not_performs {route : Route}
    (hpath : Route.Serves (Route.path request.target) route)
    (hmethod : request.method = route.method) (h : ∀ w, ¬ Performs request w) :
    (perform cache now request.body route).1.store = cache.store ∧
      (request.method = "GET" ∨ (perform cache now request.body route).2.status = 400) := by
  cases route with
  | set key =>
    simp only [perform]
    fun_cases performSet cache key request.body with
    | case4 hkey text hbody htext => exact absurd (.set hpath hmethod hkey hbody htext) (h _)
    | _ => exact ⟨rfl, .inr rfl⟩
  | get key =>
    refine ⟨?_, .inl hmethod⟩
    simp only [perform]
    fun_cases performGet cache now key <;> rfl
  | delete key =>
    simp only [perform]
    fun_cases performDelete cache now key with
    | case1 => exact ⟨rfl, .inr rfl⟩
    | case2 hkey => exact absurd (.delete hpath hmethod hkey) (h _)
  | purge => exact absurd (.purge hpath hmethod) (h _)
  | length | keys | ping | metrics => exact ⟨rfl, .inl hmethod⟩

/-- A request that performs no write leaves the store as it is; it only reads, or is refused. -/
theorem answer_of_not_performs (h : ∀ w, ¬ Performs request w) :
    (answer cache now request).1.store = cache.store ∧
      (request.method = "GET" ∨ (answer cache now request).2.status ∈ [400, 404, 405]) := by
  fun_cases answer cache now request with
  | case1 => exact ⟨rfl, .inr (by simp [Reply.notFound, Reply.plain])⟩
  | case2 route htarget hmethod =>
    have hpath := Route.ofTarget?_eq_some_iff.1 htarget
    obtain ⟨hstore, hanswer⟩ := perform_of_not_performs hpath hmethod h
    refine ⟨hstore.trans (store_count cache route), hanswer.imp_right fun hstatus => ?_⟩
    rw [hstatus]
    decide
  | case3 => exact ⟨rfl, .inr (by simp [Reply.methodNotAllowed, Reply.plain])⟩

end Http

end CacheServer
