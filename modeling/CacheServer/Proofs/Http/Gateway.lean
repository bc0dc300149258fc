import CacheServer.Proofs.Write

/-!
# How requests are answered

What a request over HTTP is answered, apart from what it writes. `status_answer_iff` separates the
requests that are taken for a route from those that are turned away, and each of the commands on a
key has its reply (`answer_set`, `answer_get`, `answer_delete`).
-/

namespace CacheServer.Http

/-- Whether a request is taken for a route: its path is served and its method is the one of the
route. -/
def Taken (r : Request) : Prop :=
  ∃ route, Route.Serves (Route.path r.target) route ∧ r.method = route.method

/-- What a route is answered: the metrics, or an envelope that says whether it was refused. -/
theorem reply_perform (cache : Cache) (now : Instant) (body : Bytes) (route : Route) :
    (perform cache now body route).2 = ⟨200, metricsType, cache.metrics.exposition⟩ ∨
      ∃ (e : Envelope) (status : UInt16), status ∈ [200, 400] ∧
        (perform cache now body route).2 = e.reply status := by
  have hserved : (200 : UInt16) ∈ [200, 400] := by decide
  have hrefused : (400 : UInt16) ∈ [200, 400] := by decide
  cases route with
  | set key =>
    simp only [perform]
    fun_cases performSet cache key body with
    | case1 | case2 | case3 => exact .inr ⟨_, _, hrefused, rfl⟩
    | case4 => exact .inr ⟨_, _, hserved, rfl⟩
  | get key =>
    simp only [perform]
    fun_cases performGet cache now key with
    | case1 => exact .inr ⟨_, _, hrefused, rfl⟩
    | case2 => exact .inr ⟨_, _, hserved, rfl⟩
  | delete key =>
    simp only [perform]
    fun_cases performDelete cache now key with
    | case1 => exact .inr ⟨_, _, hrefused, rfl⟩
    | case2 => exact .inr ⟨_, _, hserved, rfl⟩
  | purge | length | keys | ping => exact .inr ⟨_, _, hserved, rfl⟩
  | metrics => exact .inl rfl

/-- A route answers that it has been taken, or that the key or the body was refused. -/
theorem status_perform (cache : Cache) (now : Instant) (body : Bytes) (route : Route) :
    (perform cache now body route).2.status ∈ [200, 400] := by
  rcases reply_perform cache now body route with h | ⟨e, status, hstatus, h⟩
  · simp [h]
  · rwa [h]

/-- Every answer is in JSON, metrics or text. -/
theorem contentType_answer (cache : Cache) (now : Instant) (request : Request) :
    (answer cache now request).2.contentType ∈ [jsonType, metricsType, textType] := by
  fun_cases answer cache now request with
  | case1 => simp [Reply.notFound, Reply.plain]
  | case2 route =>
    rcases reply_perform (count cache route) now request.body route with h | ⟨e, status, -, h⟩
    · simp [h]
    · simp [h, Envelope.reply]
  | case3 => simp [Reply.methodNotAllowed, Reply.plain]

/-- What is not taken for a route is answered so, and changes nothing. -/
theorem answer_of_not_taken {cache : Cache} {now : Instant} {r : Request} (h : ¬ Taken r) :
    (answer cache now r).1 = cache ∧ (answer cache now r).2.status ∈ [404, 405] := by
  fun_cases answer cache now r with
  | case1 => exact ⟨rfl, by simp [Reply.notFound, Reply.plain]⟩
  | case2 route htarget hmethod =>
    exact absurd ⟨route, Route.ofTarget?_eq_some_iff.1 htarget, hmethod⟩ h
  | case3 => exact ⟨rfl, by simp [Reply.methodNotAllowed, Reply.plain]⟩

/-- The statuses 404 and 405 stand for requests that are not taken, and for no others. -/
theorem status_answer_iff {cache : Cache} {now : Instant} {r : Request} :
    (answer cache now r).2.status ∈ [404, 405] ↔ ¬ Taken r := by
  refine ⟨?_, fun h => (answer_of_not_taken h).2⟩
  rintro hstatus ⟨route, hpath, hmethod⟩
  rw [answer_of_serves cache now hpath hmethod] at hstatus
  have hperform := status_perform (count cache route) now r.body route
  rw [List.mem_pair] at hperform
  rcases hperform with h | h <;> rw [h] at hstatus <;> exact absurd hstatus (by decide)

/-- The reply to a `GET` of a key, by what is found. -/
def getReply (key : String) (found : Option Bytes) : Reply :=
  Envelope.reply ⟨.get, none, some key, found.map fun v => Json.quote (Text.decodeLossy v),
    found.isSome⟩ 200

variable {cache : Cache} {now : Instant} {request : Request} {key : String}

/-- A `GET` of a key is answered by what the store has, which stays as it is. -/
theorem answer_get (hpath : Route.Serves (Route.path request.target) (.get key))
    (hmethod : request.method = "GET") (hkey : key ≠ "") :
    (answer cache now request).1.store = cache.store ∧
      (answer cache now request).2 = getReply key (cache.store.get now key) := by
  rw [answer_of_serves cache now hpath hmethod]
  simp only [perform, performGet, if_neg hkey, store_count, getReply, and_self]

/-- A `PUT` of a key with a body that names a value stores it for good. -/
theorem answer_set {value : String} (hpath : Route.Serves (Route.path request.target) (.set key))
    (hmethod : request.method = "PUT") (hkey : key ≠ "")
    (hbody : SetBody.read? request.body = some value) (hvalue : value ≠ "") :
    (answer cache now request).1.store = cache.store.set key (Bytes.ofText value) ∧
      (answer cache now request).2 = { Envelope.success .set with key := some key }.reply 200 := by
  rw [answer_of_serves cache now hpath hmethod]
  simp only [perform, performSet, if_neg hkey, hbody, if_neg hvalue, store_count, and_self]

/-- A `DELETE` of a key removes it. -/
theorem answer_delete (hpath : Route.Serves (Route.path request.target) (.delete key))
    (hmethod : request.method = "DELETE") (hkey : key ≠ "") :
    (answer cache now request).1.store = (cache.store.delete now key).2 ∧
      (answer cache now request).2 =
        { Envelope.success .delete with key := some key }.reply 200 := by
  rw [answer_of_serves cache now hpath hmethod]
  simp only [perform, performDelete, if_neg hkey, store_count, and_self]

end CacheServer.Http
