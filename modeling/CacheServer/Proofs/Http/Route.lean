import CacheServer.Http.Route
import CacheServer.Proofs.Cutting

/-!
# Which paths are served

`Route.Serves` lists the paths that are served, one constructor for each kind of route.
`ofTarget?_eq_some_iff` says that a target stands for a route exactly if its path is in the list.
-/

namespace CacheServer.Http.Route

/-- The key that a segment of a path stands for. -/
def segmentKey (segment : List Char) : String :=
  Percent.decode (Bytes.ofText (String.ofList segment))

/-- Without a query, a target is its path. -/
theorem path_append {front segment : String} (hfront : '?' ∉ front.toList)
    (hsegment : '?' ∉ segment.toList) :
    path (front ++ segment) = front.toList ++ segment.toList := by
  rw [path, String.toList_append, List.takeWhile_eq_self_iff]
  intro c hc
  rw [bne_iff_ne]
  rintro rfl
  exact (List.mem_append.1 hc).elim hfront hsegment

/-- The paths that are served, with their routes. -/
inductive Serves : List Char → Route → Prop
  | purge : Serves ('/' :: "PURGE".toList) .purge
  | length : Serves ('/' :: "LENGTH".toList) .length
  | keys : Serves ('/' :: "KEYS".toList) .keys
  | ping : Serves ('/' :: "PING".toList) .ping
  | metrics : Serves ('/' :: "metrics".toList) .metrics
  | set {segment : List Char} : '/' ∉ segment →
      Serves ('/' :: ("SET".toList ++ '/' :: segment)) (.set (segmentKey segment))
  | get {segment : List Char} : '/' ∉ segment →
      Serves ('/' :: ("GET".toList ++ '/' :: segment)) (.get (segmentKey segment))
  | delete {segment : List Char} : '/' ∉ segment →
      Serves ('/' :: ("DELETE".toList ++ '/' :: segment)) (.delete (segmentKey segment))

/-- A name and a segment that make a route are a path that is served. -/
theorem serves_of_keyed? {name segment : List Char} {route : Route} (hsegment : '/' ∉ segment)
    (h : keyed? name (segmentKey segment) = some route) :
    Serves ('/' :: (name ++ '/' :: segment)) route := by
  unfold keyed? at h
  split at h
  · next hname => cases h; subst hname; exact .set hsegment
  · split at h
    · next hname => cases h; subst hname; exact .get hsegment
    · split at h
      · next hname => cases h; subst hname; exact .delete hsegment
      · cases h

/-- The path of a command on a key, as the name of the command in front of the segment. -/
theorem serves_append {front segment : String} {route : Route} (name : List Char)
    (hfront : front.toList = '/' :: (name ++ ['/'])) (hquery : '?' ∉ front.toList)
    (hslashFree : '/' ∉ segment.toList) (hqueryFree : '?' ∉ segment.toList)
    (hroute : keyed? name (segmentKey segment.toList) = some route) :
    Serves (path (front ++ segment)) route := by
  rw [path_append hquery hqueryFree, hfront, List.cons_append, List.append_assoc]
  exact serves_of_keyed? hslashFree hroute

/-- The name in front of the first slash and what is behind it are the whole. -/
theorem eq_append_of_span_eq {names name rest : List Char}
    (h : names.span (· != '/') = (name, rest)) : names = name ++ rest := by
  rw [List.span_eq_takeWhile_dropWhile, Prod.mk.injEq] at h
  rw [← h.1, ← h.2, List.takeWhile_append_dropWhile]

/-- What is routed is served by the table. -/
theorem serves_of_ofNames? {names : List Char} {route : Route} (h : ofNames? names = some route) :
    Serves ('/' :: names) route := by
  revert h
  fun_cases ofNames? names with
  | case1 hname => rintro ⟨⟩; rw [hname]; exact .purge
  | case2 _ hname => rintro ⟨⟩; rw [hname]; exact .length
  | case3 _ _ hname => rintro ⟨⟩; rw [hname]; exact .keys
  | case4 _ _ _ hname => rintro ⟨⟩; rw [hname]; exact .ping
  | case5 _ _ _ _ hname => rintro ⟨⟩; rw [hname]; exact .metrics
  | case6 => exact nofun
  | case7 _ _ _ _ _ name segment hspan hsegment =>
    intro h
    rw [eq_append_of_span_eq hspan]
    exact serves_of_keyed? (by simpa using hsegment) h
  | case8 => exact nofun

/-- A path with two names goes to the route of the first one, with the key of the second one. -/
theorem ofNames?_keyed {name segment : List Char} (hname : '/' ∉ name) (hsegment : '/' ∉ segment) :
    ofNames? (name ++ '/' :: segment) = keyed? name (segmentKey segment) := by
  have hne : ∀ single : List Char, '/' ∉ single → name ++ '/' :: segment ≠ single := by
    rintro _ hsingle rfl
    exact hsingle (by simp)
  unfold ofNames?
  rw [if_neg (hne _ (by decide)), if_neg (hne _ (by decide)), if_neg (hne _ (by decide)),
    if_neg (hne _ (by decide)), if_neg (hne _ (by decide)), span_bne_append hname]
  simp only [List.contains_eq_mem, hsegment, decide_false, Bool.false_eq_true, if_false]
  rfl

/-- A target is served exactly if its path is, and then it stands for the route of the path. -/
theorem ofTarget?_eq_some_iff {target : String} {route : Route} :
    ofTarget? target = some route ↔ Serves (path target) route := by
  unfold ofTarget?
  generalize path target = path
  constructor
  · intro h
    split at h
    · exact serves_of_ofNames? h
    · cases h
  · intro h
    cases h with
    | purge | length | keys | ping | metrics => rfl
    | set hsegment | get hsegment | delete hsegment =>
      exact (ofNames?_keyed (by decide) hsegment).trans rfl

/-- What writes is not reached with the method `GET`. -/
theorem method_ne_get {route : Route} {v : Verb} (hverb : route.verb? = some v)
    (hv : v ∈ [Verb.set, .delete, .purge]) : route.method ≠ "GET" := by
  cases route with
  | set | delete | purge => simp [method]
  | metrics => cases hverb
  | get | length | keys | ping =>
    cases hverb
    exact absurd hv (by decide)

/-- A path stands for at most one route. -/
theorem Serves.unique {target : String} {route route' : Route} (h : Serves (path target) route)
    (h' : Serves (path target) route') : route = route' := by
  have hroute := ofTarget?_eq_some_iff.2 h
  rw [ofTarget?_eq_some_iff.2 h'] at hroute
  exact (Option.some.inj hroute).symm

end CacheServer.Http.Route
