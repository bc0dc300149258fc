import CacheServer.Proofs.Http.Gateway
import CacheServer.Proofs.Http.SetBody
import CacheServer.Proofs.Json.Grammar
import CacheServer.Proofs.Json.Pieces

/-!
# Which bodies are accepted

`SetBody.Names` has the JSON values that name a value to be stored, and `read?_eq_some_iff` says
that exactly the texts of these are read so. What is documented is an object with one member `value`
(`Documented`). Besides, an array of one string is accepted, and an object in which what is skipped
holds strings that are not UTF-8; `answer_put_outcome` says that there is nothing else.
-/

namespace CacheServer.Http

open Json

namespace SetBody

/-! ## What names a value -/

/-- Whether a member has a name that is a text, and another one than `value`. -/
def Other (m : Member) : Prop := ∃ s, s ≠ "value" ∧ Reads m.1 s.toList

/-- The JSON values that name a value. -/
inductive Names (v : String) : Value → Prop
  | object {front back : List Member} {name pieces : List Piece} : Reads name "value".toList →
      Reads pieces v.toList → (∀ m ∈ front ++ back, Other m) →
      Names v (.object (front ++ (name, .string pieces) :: back))
  | array {pieces : List Piece} : Reads pieces v.toList → Names v (.array [.string pieces])

/-- A value is read as a text if it is a string of its characters. -/
theorem text?_eq_some_iff {x : Value} {v : String} :
    text? x = some v ↔ ∃ pieces, x = .string pieces ∧ Reads pieces v.toList := by
  cases x with
  | string pieces => simp [text?, decode?_eq_some_iff]
  | scalar | array | object => simp [text?]

/-- A member in front is a candidate if its name is the one that is looked for. -/
theorem candidates?_cons_eq_some_iff {m : Member} {members : List Member} {found : List Value} :
    candidates? (m :: members) = some found ↔ ∃ s rest, Reads m.1 s.toList ∧
      candidates? members = some rest ∧ found = if s = "value" then m.2 :: rest else rest := by
  have hcons : candidates? (m :: members) = (decode? m.1).bind fun s =>
      (candidates? members).bind fun rest => some (if s = "value" then m.2 :: rest else rest) := rfl
  simp only [hcons, Option.bind_eq_some_iff, decode?_eq_some_iff, Option.some.injEq]
  constructor
  · rintro ⟨s, hname, rest, hrest, rfl⟩
    exact ⟨s, rest, hname, hrest, rfl⟩
  · rintro ⟨s, rest, hname, hrest, rfl⟩
    exact ⟨s, hname, rest, hrest, rfl⟩

/-- There is no candidate if every member has another name. -/
theorem candidates?_eq_nil_iff {members : List Member} :
    candidates? members = some [] ↔ ∀ m ∈ members, Other m := by
  induction members with
  | nil => simp [candidates?]
  | cons m members ih =>
    rw [candidates?_cons_eq_some_iff, List.forall_mem_cons, ← ih]
    constructor
    · rintro ⟨s, rest, hname, hrest, hfound⟩
      split_ifs at hfound with hs
      subst hfound
      exact ⟨⟨s, hs, hname⟩, hrest⟩
    · rintro ⟨⟨s, hs, hname⟩, hrest⟩
      exact ⟨s, [], hname, hrest, (if_neg hs).symm⟩

/-- There is one candidate if one member has the name and all others have other names. -/
theorem candidates?_eq_singleton_iff {members : List Member} {x : Value} :
    candidates? members = some [x] ↔ ∃ front name back, members = front ++ (name, x) :: back ∧
      Reads name "value".toList ∧ ∀ m ∈ front ++ back, Other m := by
  induction members with
  | nil => simp [candidates?]
  | cons m members ih =>
    rw [candidates?_cons_eq_some_iff]
    constructor
    · rintro ⟨s, rest, hname, hrest, hfound⟩
      split_ifs at hfound with hs
      · cases hfound
        subst hs
        exact ⟨[], m.1, members, rfl, hname, candidates?_eq_nil_iff.1 hrest⟩
      · subst hfound
        obtain ⟨front, name, back, rfl, hvalue, hothers⟩ := ih.1 hrest
        exact ⟨m :: front, name, back, rfl, hvalue,
          List.forall_mem_cons.2 ⟨⟨s, hs, hname⟩, hothers⟩⟩
    · rintro ⟨front, name, back, hmembers, hvalue, hothers⟩
      cases front with
      | nil =>
        cases hmembers
        exact ⟨"value", [], hvalue, candidates?_eq_nil_iff.2 hothers, rfl⟩
      | cons m' front =>
        cases hmembers
        obtain ⟨⟨s, hs, hname⟩, hothers⟩ := List.forall_mem_cons.1 hothers
        exact ⟨s, [x], hname, ih.2 ⟨front, name, back, rfl, hvalue, hothers⟩, (if_neg hs).symm⟩

/-- A text that is not empty is read from the values that name it, and from no others. -/
theorem ofValue?_eq_some_iff {x : Value} {v : String} (hv : v ≠ "") :
    ofValue? x = some v ↔ Names v x := by
  constructor
  · fun_cases ofValue? x with
    | case1 | case4 => rintro ⟨⟩; exact absurd rfl hv
    | case2 members found hfound =>
      intro h
      obtain ⟨pieces, rfl, hpieces⟩ := text?_eq_some_iff.1 h
      obtain ⟨front, name, back, rfl, hname, hothers⟩ := candidates?_eq_singleton_iff.1 hfound
      exact .object hname hpieces hothers
    | case5 found =>
      intro h
      obtain ⟨pieces, rfl, hpieces⟩ := text?_eq_some_iff.1 h
      exact .array hpieces
    | case3 | case6 => exact nofun
  · intro h
    cases h with
    | @object front back name pieces hname hpieces hothers =>
      have hfound : candidates? (front ++ (name, .string pieces) :: back) = some [.string pieces] :=
        candidates?_eq_singleton_iff.2 ⟨front, name, back, rfl, hname, hothers⟩
      simp only [ofValue?, hfound]
      exact text?_eq_some_iff.2 ⟨pieces, rfl, hpieces⟩
    | array hpieces => exact text?_eq_some_iff.2 ⟨_, rfl, hpieces⟩

/-- The texts of the values that name a value are those that are read so. -/
theorem read?_eq_some_iff {body : Bytes} {v : String} (hv : v ≠ "") :
    read? body = some v ↔ ∃ x, JsonText x body ∧ Names v x := by
  simp only [read?, Option.bind_eq_some_iff, parse?_eq_some_iff, ofValue?_eq_some_iff hv]

/-! ## What is documented -/

/-- The bodies that are documented: the UTF-8 text of an object with exactly one member with the
name `value`, a string. -/
inductive Documented (v : String) : Bytes → Prop
  | mk {text : String} {front back : List Member} {name pieces : List Piece} :
      JsonText (.object (front ++ (name, .string pieces) :: back)) (Bytes.ofText text) →
      Reads name "value".toList → Reads pieces v.toList →
      (∀ m ∈ front ++ back, ¬ Reads m.1 "value".toList) → Documented v (Bytes.ofText text)

/-- A member with another name is not a candidate. -/
theorem Other.not_reads {m : Member} (h : Other m) : ¬ Reads m.1 "value".toList := by
  obtain ⟨s, hs, hname⟩ := h
  exact fun hvalue => hs (hname.unique hvalue)

/-- What is documented is UTF-8 and no array. -/
theorem Documented.isText_not_array {body : Bytes} {v : String} (h : Documented v body) :
    (∃ text, body = Bytes.ofText text) ∧ ∀ elements, ¬ JsonText (.array elements) body := by
  obtain ⟨hobject, -, -, -⟩ := h
  exact ⟨⟨_, rfl⟩, fun elements harray => nomatch hobject.unique harray⟩

/-- What is accepted is documented if it is UTF-8 and no array. -/
theorem documented_iff {x : Value} {body : Bytes} {v : String} (hbody : JsonText x body)
    (h : Names v x) : Documented v body ↔
      (∃ text, body = Bytes.ofText text) ∧ ∀ elements, ¬ JsonText (.array elements) body := by
  refine ⟨Documented.isText_not_array, ?_⟩
  rintro ⟨⟨text, rfl⟩, harray⟩
  cases h with
  | object hname hpieces hothers =>
    exact .mk hbody hname hpieces fun m hm => (hothers m hm).not_reads
  | array => exact absurd hbody (harray _)

end SetBody

/-! ## What is answered -/

variable {cache : Cache} {now : Instant} {r : Request} {key : String}

/-- A `PUT` of a key succeeds exactly if a value that is not empty is read from its body. -/
theorem status_put_iff (hpath : Route.Serves (Route.path r.target) (.set key))
    (hmethod : r.method = "PUT") (hkey : key ≠ "") :
    (answer cache now r).2.status = 200 ↔ ∃ v, v ≠ "" ∧ SetBody.read? r.body = some v := by
  constructor
  · rw [answer_of_serves cache now hpath hmethod]
    simp only [perform]
    fun_cases performSet (count cache (.set key)) key r.body with
    | case1 hempty => exact absurd hempty hkey
    | case2 | case3 => exact fun h => absurd h (show (400 : UInt16) ≠ 200 by decide)
    | case4 _ v hread hv => exact fun _ => ⟨v, hv, hread⟩
  · rintro ⟨v, hv, hread⟩
    rw [(answer_set hpath hmethod hkey hread hv).2]
    rfl

/-- A `PUT` of a key that is not empty succeeds exactly if its body is the text of a value that
names a text that is not empty, and this is then stored under the key. The body is documented if it
is UTF-8 and no array. -/
theorem answer_put_outcome (cache : Cache) (now : Instant)
    (hpath : Route.Serves (Route.path r.target) (.set key)) (hmethod : r.method = "PUT")
    (hkey : key ≠ "") :
    ((answer cache now r).2.status = 200 ↔
      ∃ v x, v ≠ "" ∧ JsonText x r.body ∧ SetBody.Names v x) ∧
    ∀ v x, v ≠ "" → JsonText x r.body → SetBody.Names v x →
      (answer cache now r).1.store = cache.store.set key (Bytes.ofText v) ∧
      (answer cache now r).1.store.find? key = some (.lasting (Bytes.ofText v)) ∧
      (SetBody.Documented v r.body ↔
        (∃ text, r.body = Bytes.ofText text) ∧
          ∀ elements, ¬ JsonText (.array elements) r.body) := by
  constructor
  · rw [status_put_iff hpath hmethod hkey]
    constructor
    · rintro ⟨v, hv, hread⟩
      obtain ⟨x, hbody, hnames⟩ := (SetBody.read?_eq_some_iff hv).1 hread
      exact ⟨v, x, hv, hbody, hnames⟩
    · rintro ⟨v, x, hv, hbody, hnames⟩
      exact ⟨v, hv, (SetBody.read?_eq_some_iff hv).2 ⟨x, hbody, hnames⟩⟩
  · intro v x hv hbody hnames
    have hread := (SetBody.read?_eq_some_iff hv).2 ⟨x, hbody, hnames⟩
    have hstore : (answer cache now r).1.store = cache.store.set key (Bytes.ofText v) :=
      (answer_set hpath hmethod hkey hread hv).1
    refine ⟨hstore, ?_, SetBody.documented_iff hbody hnames⟩
    rw [hstore]
    exact Store.find?_put_self cache.store key _

/-- The path of the examples below sets a key. -/
theorem serves_set_k : Route.Serves (Route.path "/SET/k") (.set "k") := by
  have hkey : Route.segmentKey ['k'] = "k" := Text.decodeLossy_ofText "k"
  rw [← hkey]
  exact .set (by decide)

/-- An object with a member `a` in front of the one that names the value. -/
def objectNaming (x : Value) : Value :=
  .object [((Bytes.ofText "a").map .byte, x),
    ((Bytes.ofText "value").map .byte, .string ((Bytes.ofText "v").map .byte))]

/-- The object of the examples below names its text. -/
theorem names_objectNaming (x : Value) : SetBody.Names "v" (objectNaming x) := by
  have hother : SetBody.Other ((Bytes.ofText "a").map .byte, x) :=
    ⟨"a", by decide, reads_ofText "a"⟩
  exact @SetBody.Names.object "v" [_] [] _ _ (reads_ofText "value") (reads_ofText "v")
    (List.forall_mem_singleton.2 hother)

/-- The value is stored that an object names, whatever else it has. -/
theorem answer_put_outcome_object :
    let r : Request := ⟨"PUT", "/SET/k", Bytes.ofText "\x7b\"a\":[1], \"value\":\"v\"\x7d"⟩
    (answer .initial ⟨0⟩ r).2.status = 200 ∧
      (answer .initial ⟨0⟩ r).1.store.find? "k" = some (.lasting (Bytes.ofText "v")) ∧
      SetBody.Documented "v" r.body := by
  intro r
  obtain ⟨hstatus, hstored⟩ := answer_put_outcome (r := r) .initial ⟨0⟩ serves_set_k rfl (by decide)
  have hbody : JsonText (objectNaming (.array [.scalar (.number [0x31])])) r.body :=
    parse?_eq_some_iff.1 rfl
  have harray : ∀ elements, ¬ JsonText (.array elements) r.body :=
    fun elements harray => nomatch hbody.unique harray
  have hv : "v" ≠ "" := by decide
  obtain ⟨-, hfound, hdocumented⟩ := hstored "v" _ hv hbody (names_objectNaming _)
  exact ⟨hstatus.2 ⟨"v", _, hv, hbody, names_objectNaming _⟩, hfound,
    hdocumented.2 ⟨⟨_, rfl⟩, harray⟩⟩

/-- An array is accepted, and so is an object in which a string that is skipped is not UTF-8. -/
theorem answer_put_undocumented :
    let array : Bytes := Bytes.ofText "[\"v\"]"
    let broken : Bytes :=
      Bytes.ofText "\x7b\"a\":\"" ++ 0xFF :: Bytes.ofText "\",\"value\":\"v\"\x7d"
    ∀ body ∈ [array, broken], (answer .initial ⟨0⟩ ⟨"PUT", "/SET/k", body⟩).2.status = 200 ∧
      ∀ v, ¬ SetBody.Documented v body := by
  intro array broken
  have hv : "v" ≠ "" := by decide
  have hstatus : ∀ {body x}, parse? body = some x → SetBody.Names "v" x →
      (answer .initial ⟨0⟩ ⟨"PUT", "/SET/k", body⟩).2.status = 200 := by
    intro body x hparse hnames
    refine (status_put_iff serves_set_k rfl (by decide)).2 ⟨"v", hv, ?_⟩
    exact (SetBody.read?_eq_some_iff hv).2 ⟨x, parse?_eq_some_iff.1 hparse, hnames⟩
  have harray : parse? array = some (.array [.string ((Bytes.ofText "v").map .byte)]) := rfl
  have hbroken : parse? broken = some (objectNaming (.string [.byte 0xFF])) := rfl
  intro body hmem
  rcases List.mem_pair.1 hmem with rfl | rfl
  · refine ⟨hstatus harray (.array (reads_ofText "v")), fun v hdocumented => ?_⟩
    exact hdocumented.isText_not_array.2 _ (parse?_eq_some_iff.1 harray)
  · refine ⟨hstatus hbroken (names_objectNaming _), fun v hdocumented => ?_⟩
    obtain ⟨text, htext⟩ := hdocumented.isText_not_array.1
    have hbyte : 0xFF ∈ Bytes.ofText text := htext ▸ List.mem_append_cons_self
    rw [Bytes.ofText_eq_flatMap, List.mem_flatMap] at hbyte
    obtain ⟨c, -, hmem⟩ := hbyte
    exact absurd (Text.lt_of_mem_utf8EncodeChar _ hmem) (by decide)

end CacheServer.Http
