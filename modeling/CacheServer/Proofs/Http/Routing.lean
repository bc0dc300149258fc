import CacheServer.Proofs.Http.Decoding
import CacheServer.Proofs.Http.Gateway
import CacheServer.Proofs.Http.Reply

/-!
# The table of paths

Which requests are answered how, by their path, method and body alone: `Tabled` is the table of what
is served, and `Cause` has the reasons for which a request in the table is refused, with the texts
that say so. `answer_as_tabled` says that every request is answered as these have it, whatever is
stored, that a query changes nothing, and that an escaped slash or question mark is part of the key.
-/

namespace CacheServer.Http

open Route (Serves)

/-! ## The table -/

/-- The path of a request, its target up to the first question mark. -/
def Request.path (r : Request) : String := String.ofList (Route.path r.target)

/-- The paths that stand for themselves, each with its method. -/
def plainPaths : List (String × String) :=
  [("/PURGE", "DELETE"), ("/LENGTH", "GET"), ("/KEYS", "GET"), ("/PING", "GET"),
    ("/metrics", "GET")]

/-- What stands in front of the key in the other paths, each with its method. -/
def keyPaths : List (String × String) :=
  [("/SET/", "PUT"), ("/GET/", "GET"), ("/DELETE/", "DELETE")]

/-- What is served: a path and a method. The key in a path may be empty, but has no slash in it. -/
inductive Tabled : String → String → Prop
  | plain {path method : String} : (path, method) ∈ plainPaths → Tabled path method
  | keyed {front seg method : String} : (front, method) ∈ keyPaths → '/' ∉ seg.toList →
      Tabled (front ++ seg) method

/-- Whether a request sets a key that is not empty. -/
def Request.SetsKey (r : Request) : Prop :=
  r.method = "PUT" ∧ ∃ seg, r.path = "/SET/" ++ seg ∧ seg ≠ "" ∧ '/' ∉ seg.toList

/-- The reasons for which a request in the table is refused. -/
inductive Cause (r : Request) : String → Prop
  | keyEmpty : (r.path, r.method) ∈ keyPaths → Cause r "Key cannot be empty"
  | bodyUnreadable : r.SetsKey → SetBody.read? r.body = none →
      Cause r "Failed to decode request body"
  | valueEmpty : r.SetsKey → SetBody.read? r.body = some "" → Cause r "Value cannot be empty"

/-- An answer that refuses a command and says why. -/
def Reply.Refuses (reply : Reply) (message : String) : Prop :=
  reply.status = 400 ∧ reply.member? "ok" = some (.bool false) ∧
    reply.member? "message" = some (.text message)

/-- An answer that is the one of the table. -/
structure AsTabled (r : Request) (reply : Reply) : Prop where
  notFound : reply.status = 404 ↔ ∀ method, ¬ Tabled r.path method
  methodNotAllowed :
    reply.status = 405 ↔ (∃ method, Tabled r.path method) ∧ ¬ Tabled r.path r.method
  refused : ∀ message, reply.Refuses message ↔ Cause r message
  badRequest : reply.status = 400 ↔ ∃ message, reply.Refuses message
  ok : reply.status = 200 ↔ Tabled r.path r.method ∧ ∀ message, ¬ Cause r message

/-! ## Paths and routes -/

/-- The routes with a key, behind what stands in front of the key in their paths. -/
def keyRoutes : List (String × (String → Route)) :=
  [("/SET/", .set), ("/GET/", .get), ("/DELETE/", .delete)]

/-- `SET` takes a key. -/
theorem set_mem_keyRoutes : ("/SET/", Route.set) ∈ keyRoutes := .head _
/-- `GET` takes a key. -/
theorem get_mem_keyRoutes : ("/GET/", Route.get) ∈ keyRoutes := .tail _ (.head _)
/-- `DELETE` takes a key. -/
theorem delete_mem_keyRoutes : ("/DELETE/", Route.delete) ∈ keyRoutes := .tail _ (.tail _ (.head _))

/-- The paths with a key have the methods of their routes. -/
theorem mem_keyPaths {front : String} {keyed : String → Route} (h : (front, keyed) ∈ keyRoutes)
    (key : String) : (front, (keyed key).method) ∈ keyPaths := by
  simp only [keyRoutes, List.mem_cons, Prod.mk.injEq, List.not_mem_nil, or_false] at h
  obtain ⟨rfl, rfl⟩ | ⟨rfl, rfl⟩ | ⟨rfl, rfl⟩ := h <;> simp [keyPaths, Route.method]

variable {r : Request} {route : Route}

/-- The path of a request, as a text and as its characters. -/
theorem Request.path_eq_iff {s : String} : r.path = s ↔ Route.path r.target = s.toList := by
  rw [Request.path, ← String.toList_inj, String.toList_ofList]

/-- The key of a path is what the segment behind the name is decoded to. -/
theorem serves_keyed_iff {front : String} {keyed : String → Route}
    (h : (front, keyed) ∈ keyRoutes) {key : String} :
    Serves (Route.path r.target) (keyed key) ↔ ∃ seg, r.path = front ++ seg ∧
      '/' ∉ seg.toList ∧ Percent.decode (Bytes.ofText seg) = key := by
  simp only [Request.path_eq_iff, String.toList_append]
  generalize Route.path r.target = path
  simp only [keyRoutes, List.mem_cons, Prod.mk.injEq, List.not_mem_nil, or_false] at h
  constructor
  · intro hserves
    have hseg : ∀ {segment : List Char}, '/' ∉ segment → '/' ∉ (String.ofList segment).toList := by
      intro segment hslash
      rwa [String.toList_ofList]
    rcases h with ⟨rfl, rfl⟩ | ⟨rfl, rfl⟩ | ⟨rfl, rfl⟩
    · cases hserves with
      | set hslash => exact ⟨_, by simp, hseg hslash, rfl⟩
    · cases hserves with
      | get hslash => exact ⟨_, by simp, hseg hslash, rfl⟩
    · cases hserves with
      | delete hslash => exact ⟨_, by simp, hseg hslash, rfl⟩
  · rintro ⟨seg, rfl, hslash, rfl⟩
    rw [← String.ofList_toList (s := seg), String.toList_ofList]
    rcases h with ⟨rfl, rfl⟩ | ⟨rfl, rfl⟩ | ⟨rfl, rfl⟩
    · exact .set hslash
    · exact .get hslash
    · exact .delete hslash

/-- The table has exactly the paths that stand for a route, each with the method of the route. -/
theorem tabled_iff {method : String} :
    Tabled r.path method ↔ ∃ route, Serves (Route.path r.target) route ∧ route.method = method := by
  constructor
  · generalize hpath : r.path = path
    rw [Request.path_eq_iff] at hpath
    rw [hpath]
    rintro (hmem | ⟨hmem, hslash⟩)
    · simp only [plainPaths, List.mem_cons, Prod.mk.injEq, List.not_mem_nil, or_false] at hmem
      obtain ⟨rfl, rfl⟩ | ⟨rfl, rfl⟩ | ⟨rfl, rfl⟩ | ⟨rfl, rfl⟩ | ⟨rfl, rfl⟩ := hmem
      exacts [⟨_, .purge, rfl⟩, ⟨_, .length, rfl⟩, ⟨_, .keys, rfl⟩, ⟨_, .ping, rfl⟩,
        ⟨_, .metrics, rfl⟩]
    · rw [String.toList_append]
      simp only [keyPaths, List.mem_cons, Prod.mk.injEq, List.not_mem_nil, or_false] at hmem
      obtain ⟨rfl, rfl⟩ | ⟨rfl, rfl⟩ | ⟨rfl, rfl⟩ := hmem
      exacts [⟨_, .set hslash, rfl⟩, ⟨_, .get hslash, rfl⟩, ⟨_, .delete hslash, rfl⟩]
  · rintro ⟨route, hserves, rfl⟩
    have hkeyed : ∀ {front keyed key}, (front, keyed) ∈ keyRoutes →
        Serves (Route.path r.target) (keyed key) → Tabled r.path (keyed key).method := by
      intro front keyed key hroute hserves
      obtain ⟨seg, hpath, hslash, -⟩ := (serves_keyed_iff hroute).1 hserves
      rw [hpath]
      exact .keyed (mem_keyPaths hroute key) hslash
    cases route with
    | set => exact hkeyed set_mem_keyRoutes hserves
    | get => exact hkeyed get_mem_keyRoutes hserves
    | delete => exact hkeyed delete_mem_keyRoutes hserves
    | purge | length | keys | ping | metrics =>
      refine .plain ?_
      rw [Request.path]
      generalize Route.path r.target = path at hserves
      cases hserves
      decide

/-- Only an empty segment is decoded to an empty key. -/
theorem decode_ofText_eq_empty_iff {seg : String} :
    Percent.decode (Bytes.ofText seg) = "" ↔ seg = "" := by
  rw [Percent.decode_eq_empty_iff, Bytes.ofText_eq_nil_iff]

/-- The key of a path is empty if the path ends behind the name of its route. -/
theorem serves_empty_iff {front : String} {keyed : String → Route}
    (h : (front, keyed) ∈ keyRoutes) :
    Serves (Route.path r.target) (keyed "") ↔ r.path = front := by
  rw [serves_keyed_iff h]
  constructor
  · rintro ⟨seg, hpath, -, hempty⟩
    rw [hpath, decode_ofText_eq_empty_iff.1 hempty, String.append_empty]
  · intro hpath
    exact ⟨"", by rw [hpath, String.append_empty], by simp, decode_ofText_eq_empty_iff.2 rfl⟩

/-- A request sets a key if it is a `PUT` to the route of one that is not empty. -/
theorem setsKey_iff : r.SetsKey ↔
    r.method = "PUT" ∧ ∃ key, key ≠ "" ∧ Serves (Route.path r.target) (.set key) := by
  refine and_congr_right fun _ => ⟨?_, ?_⟩
  · rintro ⟨seg, hpath, hne, hslash⟩
    exact ⟨_, mt decode_ofText_eq_empty_iff.1 hne,
      (serves_keyed_iff set_mem_keyRoutes).2 ⟨seg, hpath, hslash, rfl⟩⟩
  · rintro ⟨key, hne, hserves⟩
    obtain ⟨seg, hpath, hslash, rfl⟩ := (serves_keyed_iff set_mem_keyRoutes).1 hserves
    exact ⟨seg, hpath, mt decode_ofText_eq_empty_iff.2 hne, hslash⟩

/-! ## What a route is answered -/

/-- The key that a route is about. -/
def Route.key? : Route → Option String
  | .set key | .get key | .delete key => some key
  | .purge | .length | .keys | .ping | .metrics => none

/-- A route with an empty key is one of those that take a key. -/
theorem Route.exists_keyed (h : route.key? = some "") :
    ∃ front keyed, (front, keyed) ∈ keyRoutes ∧ route = keyed "" := by
  cases route with
  | set => cases h; exact ⟨_, _, set_mem_keyRoutes, rfl⟩
  | get => cases h; exact ⟨_, _, get_mem_keyRoutes, rfl⟩
  | delete => cases h; exact ⟨_, _, delete_mem_keyRoutes, rfl⟩
  | purge | length | keys | ping | metrics => cases h

/-- What a route refuses, by its key and the body of the request. -/
inductive Refused (body : Bytes) : Route → String → Prop
  | keyEmpty {route : Route} : route.key? = some "" → Refused body route keyEmpty
  | bodyUnreadable {key : String} : key ≠ "" → SetBody.read? body = none →
      Refused body (.set key) bodyUnreadable
  | valueEmpty {key : String} : key ≠ "" → SetBody.read? body = some "" →
      Refused body (.set key) valueEmpty

/-- The cause of a refusal by the table is the one by the route. -/
theorem cause_iff {message : String} : Cause r message ↔
    ∃ route, Serves (Route.path r.target) route ∧ r.method = route.method ∧
      Refused r.body route message := by
  constructor
  · rintro (hmem | ⟨hsets, hread⟩ | ⟨hsets, hread⟩)
    · have hkeyed : ∀ {front keyed}, (front, keyed) ∈ keyRoutes → r.path = front →
          Serves (Route.path r.target) (keyed "") := fun hroute => (serves_empty_iff hroute).2
      simp only [keyPaths, List.mem_cons, Prod.mk.injEq, List.not_mem_nil, or_false] at hmem
      obtain ⟨hpath, hmethod⟩ | ⟨hpath, hmethod⟩ | ⟨hpath, hmethod⟩ := hmem
      · exact ⟨_, hkeyed set_mem_keyRoutes hpath, hmethod, .keyEmpty rfl⟩
      · exact ⟨_, hkeyed get_mem_keyRoutes hpath, hmethod, .keyEmpty rfl⟩
      · exact ⟨_, hkeyed delete_mem_keyRoutes hpath, hmethod, .keyEmpty rfl⟩
    · obtain ⟨hmethod, key, hkey, hserves⟩ := setsKey_iff.1 hsets
      exact ⟨_, hserves, hmethod, .bodyUnreadable hkey hread⟩
    · obtain ⟨hmethod, key, hkey, hserves⟩ := setsKey_iff.1 hsets
      exact ⟨_, hserves, hmethod, .valueEmpty hkey hread⟩
  · rintro ⟨route, hserves, hmethod, hrefused⟩
    cases hrefused with
    | keyEmpty hkey =>
      obtain ⟨front, keyed, hmem, rfl⟩ := Route.exists_keyed hkey
      refine .keyEmpty ?_
      rw [(serves_empty_iff hmem).1 hserves, hmethod]
      exact mem_keyPaths hmem ""
    | bodyUnreadable hkey hread =>
      exact .bodyUnreadable (setsKey_iff.2 ⟨hmethod, _, hkey, hserves⟩) hread
    | valueEmpty hkey hread =>
      exact .valueEmpty (setsKey_iff.2 ⟨hmethod, _, hkey, hserves⟩) hread

/-- A request is refused for one reason. -/
theorem Refused.unique {body : Bytes} {message message' : String}
    (h : Refused body route message) (h' : Refused body route message') : message = message' := by
  cases h with
  | keyEmpty hempty =>
    cases h' with
    | keyEmpty => rfl
    | bodyUnreadable hkey | valueEmpty hkey => exact absurd (Option.some.inj hempty) hkey
  | bodyUnreadable hkey hread =>
    cases h' with
    | keyEmpty hempty => exact absurd (Option.some.inj hempty) hkey
    | bodyUnreadable => rfl
    | valueEmpty _ hread' => cases hread.symm.trans hread'
  | valueEmpty hkey hread =>
    cases h' with
    | keyEmpty hempty => exact absurd (Option.some.inj hempty) hkey
    | bodyUnreadable _ hread' => cases hread.symm.trans hread'
    | valueEmpty => rfl

/-- A route refuses a request, with the reason, or does what it is for. -/
theorem perform_outcome (cache : Cache) (now : Instant) (body : Bytes) (route : Route) :
    (∃ v message, Refused body route message ∧
        (perform cache now body route).2 = refuse v message) ∨
      (∀ message, ¬ Refused body route message) ∧
        (perform cache now body route).2.status = 200 := by
  cases route with
  | set key =>
    simp only [perform]
    fun_cases performSet cache key body with
    | case1 hkey => exact .inl ⟨_, _, .keyEmpty (congrArg some hkey), rfl⟩
    | case2 hkey hread => exact .inl ⟨_, _, .bodyUnreadable hkey hread, rfl⟩
    | case3 hkey hread => exact .inl ⟨_, _, .valueEmpty hkey hread, rfl⟩
    | case4 hkey value hread hvalue =>
      refine .inr ⟨?_, rfl⟩
      rintro message (hempty | ⟨-, hread'⟩ | ⟨-, hread'⟩)
      · exact hkey (Option.some.inj hempty)
      · cases hread.symm.trans hread'
      · exact hvalue (Option.some.inj (hread.symm.trans hread'))
  | get key =>
    simp only [perform]
    fun_cases performGet cache now key with
    | case1 hkey => exact .inl ⟨_, _, .keyEmpty (congrArg some hkey), rfl⟩
    | case2 hkey =>
      refine .inr ⟨?_, rfl⟩
      rintro message ⟨hempty⟩
      exact hkey (Option.some.inj hempty)
  | delete key =>
    simp only [perform]
    fun_cases performDelete cache now key with
    | case1 hkey => exact .inl ⟨_, _, .keyEmpty (congrArg some hkey), rfl⟩
    | case2 hkey =>
      refine .inr ⟨?_, rfl⟩
      rintro message ⟨hempty⟩
      exact hkey (Option.some.inj hempty)
  | purge | length | keys | ping | metrics =>
    refine .inr ⟨?_, rfl⟩
    rintro message ⟨⟨⟩⟩

/-- A refusal has one message. -/
theorem refuses_refuse_iff {v : Verb} {message message' : String} :
    (refuse v message).Refuses message' ↔ message' = message := by
  obtain ⟨-, hmessage, -, -, hok⟩ :=
    Envelope.member?_reply ⟨v, some message, none, none, false⟩ 400 .none
  constructor
  · rintro ⟨-, -, hread⟩
    exact (Datum.text.inj (Option.some.inj (hmessage.symm.trans hread))).symm
  · rintro rfl
    exact ⟨rfl, hok, hmessage⟩

/-- There is no other status than those of the table. -/
theorem AsTabled.status_mem {reply : Reply} (h : AsTabled r reply) :
    reply.status ∈ [200, 400, 404, 405] := by
  by_cases hserved : ∃ method, Tabled r.path method
  · by_cases htabled : Tabled r.path r.method
    · by_cases hcause : ∃ message, Cause r message
      · obtain ⟨message, hcause⟩ := hcause
        simp [h.badRequest.2 ⟨message, (h.refused message).2 hcause⟩]
      · simp [h.ok.2 ⟨htabled, not_exists.1 hcause⟩]
    · simp [h.methodNotAllowed.2 ⟨hserved, htabled⟩]
  · simp [h.notFound.2 (not_exists.1 hserved)]

/-! ## The answers -/

/-- Nothing but a status 400 refuses a command. -/
theorem badRequest_iff_of_ne {reply : Reply} (h : reply.status ≠ 400) :
    reply.status = 400 ↔ ∃ message, reply.Refuses message :=
  iff_of_false h fun ⟨_, hrefuses⟩ => h hrefuses.1

/-- A path that is not served is answered as the table says. -/
theorem asTabled_notFound (h : ∀ route, ¬ Serves (Route.path r.target) route) :
    AsTabled r .notFound := by
  have htabled : ∀ method, ¬ Tabled r.path method := by
    intro method htabled
    obtain ⟨route, hserves, -⟩ := tabled_iff.1 htabled
    exact h route hserves
  have hcause : ∀ message, ¬ Cause r message := by
    intro message hcause
    obtain ⟨route, hserves, -⟩ := cause_iff.1 hcause
    exact h route hserves
  exact {
    notFound := iff_of_true rfl htabled
    methodNotAllowed := iff_of_false (by decide) fun h => h.1.elim htabled
    refused := fun message => iff_of_false (fun h => absurd h.1 (by decide)) (hcause message)
    badRequest := badRequest_iff_of_ne (by decide)
    ok := iff_of_false (by decide) fun h => htabled _ h.1 }

/-- A method that is not the one of the route is answered as the table says. -/
theorem asTabled_methodNotAllowed (h : Serves (Route.path r.target) route)
    (hmethod : r.method ≠ route.method) : AsTabled r .methodNotAllowed := by
  have htabled : ¬ Tabled r.path r.method := by
    intro htabled
    obtain ⟨route', hserves, heq⟩ := tabled_iff.1 htabled
    rw [hserves.unique h] at heq
    exact hmethod heq.symm
  have hcause : ∀ message, ¬ Cause r message := by
    intro message hcause
    obtain ⟨route', hserves, heq, -⟩ := cause_iff.1 hcause
    rw [hserves.unique h] at heq
    exact hmethod heq
  have hserved : Tabled r.path route.method := tabled_iff.2 ⟨route, h, rfl⟩
  exact {
    notFound := iff_of_false (by decide) fun h => h _ hserved
    methodNotAllowed := iff_of_true rfl ⟨⟨_, hserved⟩, htabled⟩
    refused := fun message => iff_of_false (fun h => absurd h.1 (by decide)) (hcause message)
    badRequest := badRequest_iff_of_ne (by decide)
    ok := iff_of_false (by decide) fun h => htabled h.1 }

/-- A request that is taken is answered as the table says. -/
theorem asTabled_perform (cache : Cache) (now : Instant) (h : Serves (Route.path r.target) route)
    (hmethod : r.method = route.method) : AsTabled r (perform cache now r.body route).2 := by
  have htabled : Tabled r.path r.method := tabled_iff.2 ⟨route, h, hmethod.symm⟩
  have hcause : ∀ message, Cause r message ↔ Refused r.body route message := by
    intro message
    rw [cause_iff]
    constructor
    · rintro ⟨route', hserves, -, hrefused⟩
      rwa [hserves.unique h] at hrefused
    · exact fun hrefused => ⟨route, h, hmethod, hrefused⟩
  -- a refusal has one reason, so its message is the only one that the answer gives
  rcases perform_outcome cache now r.body route with
    ⟨v, message, hrefused, hreply⟩ | ⟨hrefused, hstatus⟩
  · rw [hreply]
    exact {
      notFound := iff_of_false (show (400 : UInt16) ≠ 404 by decide) fun h => h _ htabled
      methodNotAllowed := iff_of_false (show (400 : UInt16) ≠ 405 by decide) fun h => h.2 htabled
      refused := fun message' => by
        rw [refuses_refuse_iff, hcause]
        exact ⟨fun heq => heq ▸ hrefused, fun h => h.unique hrefused⟩
      badRequest := iff_of_true rfl ⟨message, refuses_refuse_iff.2 rfl⟩
      ok := iff_of_false (show (400 : UInt16) ≠ 200 by decide)
        fun h => h.2 message ((hcause message).2 hrefused) }
  · have hne : ∀ {status : UInt16}, 200 ≠ status →
        (perform cache now r.body route).2.status ≠ status := fun hne => hstatus ▸ hne
    exact {
      notFound := iff_of_false (hne (by decide)) fun h => h _ htabled
      methodNotAllowed := iff_of_false (hne (by decide)) fun h => h.2 htabled
      refused := fun message => iff_of_false (fun h => hne (by decide) h.1)
        (mt (hcause message).1 (hrefused message))
      badRequest := badRequest_iff_of_ne (hne (by decide))
      ok := iff_of_true hstatus ⟨htabled, fun message => mt (hcause message).1 (hrefused message)⟩ }

/-- The answer is the one of the table, whatever is stored. -/
theorem asTabled_answer (cache : Cache) (now : Instant) (r : Request) :
    AsTabled r (answer cache now r).2 := by
  fun_cases answer cache now r with
  | case1 htarget =>
    refine asTabled_notFound fun route hserves => ?_
    rw [Route.ofTarget?_eq_some_iff.2 hserves] at htarget
    cases htarget
  | case2 route htarget hmethod =>
    exact asTabled_perform _ now (Route.ofTarget?_eq_some_iff.1 htarget) hmethod
  | case3 route htarget hmethod =>
    exact asTabled_methodNotAllowed (Route.ofTarget?_eq_some_iff.1 htarget) hmethod

/-- A path ends in front of the first question mark, so a query is no part of it. -/
theorem path_append_query (target query : String) :
    Route.path (target ++ "?" ++ query) = Route.path target := by
  have hends : ("?".toList ++ query.toList).takeWhile (· != '?') = [] := rfl
  rw [Route.path, String.toList_append, String.toList_append, List.append_assoc,
    List.takeWhile_append, hends, List.append_nil, Route.path]
  split
  · next hlength => exact ((List.takeWhile_prefix _).eq_of_length hlength).symm
  · rfl

/-- A query makes no difference to the answer. -/
theorem answer_append_query (cache : Cache) (now : Instant) (r : Request) (query : String) :
    answer cache now { r with target := r.target ++ "?" ++ query } = answer cache now r := by
  simp only [answer, Route.ofTarget?, path_append_query]

/-- An escaped character is part of the key, and does not cut the path. -/
theorem ofTarget?_escaped {front : String} {keyed : String → Route}
    (h : (front, keyed) ∈ keyRoutes) {c : Char} (hc : c.toNat < 128)
    {before escape after : String} (hescape : Percent.Escapes (String.utf8EncodeChar c)
      (Bytes.ofText escape)) (hbefore : '/' ∉ before.toList) (hafter : '/' ∉ after.toList)
    (hpath : r.path = front ++ (before ++ escape ++ after)) :
    Route.ofTarget? r.target = some (keyed (Percent.decode (Bytes.ofText before) ++
      String.singleton c ++ Percent.decode (Bytes.ofText after))) := by
  have hslash : '/' ∉ (before ++ escape ++ after).toList := by
    simp only [String.toList_append, List.mem_append, not_or]
    exact ⟨⟨hbefore, hescape.not_mem.1⟩, hafter⟩
  rw [Route.ofTarget?_eq_some_iff, serves_keyed_iff h]
  refine ⟨_, hpath, hslash, ?_⟩
  rw [Bytes.ofText_append, Bytes.ofText_append, Percent.decode_append_escapes hc hescape]

/-- Whatever is stored, a request is answered as the table has it, by its path, its method and its
body. A query changes nothing, and an escaped slash or question mark is part of the key. -/
theorem answer_as_tabled (cache : Cache) (now : Instant) (r : Request) :
    AsTabled r (answer cache now r).2 ∧ (answer cache now r).2.status ≠ 500 ∧
      (∀ query,
        answer cache now { r with target := r.target ++ "?" ++ query } = answer cache now r) ∧
      ∀ (front : String) (keyed : String → Route) (c : Char) (before escape after : String),
        (front, keyed) ∈ keyRoutes → c ∈ ['/', '?'] →
        Percent.Escapes (String.utf8EncodeChar c) (Bytes.ofText escape) →
        '/' ∉ before.toList → '/' ∉ after.toList →
        r.path = front ++ (before ++ escape ++ after) →
        Route.ofTarget? r.target = some (keyed (Percent.decode (Bytes.ofText before) ++
          String.singleton c ++ Percent.decode (Bytes.ofText after))) := by
  have htable := asTabled_answer cache now r
  refine ⟨htable, ?_, answer_append_query cache now r, ?_⟩
  · intro hstatus
    have hmem := htable.status_mem
    rw [hstatus] at hmem
    exact absurd hmem (by decide)
  · intro front keyed c before escape after hroute hc hescape hbefore hafter hpath
    have hascii : c.toNat < 128 := by
      rcases List.mem_pair.1 hc with rfl | rfl <;> decide
    exact ofTarget?_escaped hroute hascii hescape hbefore hafter hpath

/-- A `PUT` without a body, of a key with an escaped slash, and a query with a slash in it. -/
theorem answer_as_tabled_slash :
    let r : Request := ⟨"PUT", "/SET/a%2Fb?x=/", []⟩
    (answer .initial ⟨0⟩ r).2.Refuses "Failed to decode request body" ∧
      Route.ofTarget? r.target = some (.set "a/b") := by
  intro r
  have hpath : r.path = "/SET/" ++ ("a" ++ "%2F" ++ "b") := by decide
  have hescape : Percent.Escapes (String.utf8EncodeChar '/') (Bytes.ofText "%2F") :=
    .cons (.decimal (d := 2) (by decide)) (.capital (d := 5) (by decide)) .nil
  have hsets : r.SetsKey := ⟨rfl, "a" ++ "%2F" ++ "b", hpath, by decide, by decide⟩
  obtain ⟨htable, -, -, hkey⟩ := answer_as_tabled .initial ⟨0⟩ r
  refine ⟨(htable.refused _).2 (.bodyUnreadable hsets rfl), ?_⟩
  have hroute := hkey "/SET/" .set '/' "a" "%2F" "b" set_mem_keyRoutes (by decide) hescape
    (by decide) (by decide) hpath
  have ha : Percent.decode (Bytes.ofText "a") = "a" := Text.decodeLossy_ofText "a"
  have hb : Percent.decode (Bytes.ofText "b") = "b" := Text.decodeLossy_ofText "b"
  rw [hroute, ha, hb]
  rfl

end CacheServer.Http
