import CacheServer.Proofs.Protocol.Field
import CacheServer.Proofs.Text.Utf8
import CacheServer.Protocol.Response

/-!
# Which messages are responses

A response is a header line and lines of fields, all of which are cut at every line end.
`parse_eq_ok_iff` says which lines are read and as what: the fields are put into the response one
after the other, so the last of a name stays. What was read holds no line end (`LineFree.of_parse`),
and a response without line ends is read back as it was written, with its empty fields left out
(`parse_encode_of_lineFree`). So a response is read back exactly if no line end is in its fields
(`parse_write_eq_ok_iff`).
-/

namespace CacheServer.Protocol

open Bytes (crlf)

namespace Response

/-- A sequence of two readers succeeds if both do. -/
theorem bind_eq_ok_iff {α β : Type} {x : Except ProtocolError α}
    {f : α → Except ProtocolError β} {b : β} :
    x >>= f = .ok b ↔ ∃ a, x = .ok a ∧ f a = .ok b := by
  cases x <;> simp [bind, Except.bind]

/-! ## The header -/

/-- The header line of a response. -/
def header (verb : Option Verb) (ok : Bool) : Bytes :=
  token ++ (verb.map fun v => space :: v.bytes).getD [] ++ space :: status ok

/-- A response with no fields. -/
def bare (verb : Option Verb) (ok : Bool) : Response := ⟨verb, ok, none, none, none⟩

/-- The two statuses are written differently. -/
theorem status_inj {ok ok' : Bool} : status ok = status ok' ↔ ok = ok' := by
  cases ok <;> cases ok' <;> decide

/-- A status is read exactly from its written form. -/
theorem readStatus_eq_ok_iff {bs : Bytes} {ok : Bool} :
    readStatus bs = .ok ok ↔ bs = status ok := by
  fun_cases readStatus bs with
  | case1 h => rw [h, status_inj, Except.ok.injEq]
  | case2 _ h => rw [h, status_inj, Except.ok.injEq]
  | case3 hok hnot =>
    refine iff_of_false nofun ?_
    cases ok with
    | true => exact hok
    | false => exact hnot

/-- A status has no space in it. -/
theorem space_not_mem_status (ok : Bool) : space ∉ status ok := by cases ok <;> decide

/-- A verb has no space in it. -/
theorem space_not_mem_bytes (v : Verb) : space ∉ v.bytes := by cases v <;> decide

/-- A header line has no carriage return in it. -/
theorem return_not_mem_header (verb : Option Verb) (ok : Bool) : 13 ∉ header verb ok := by
  cases verb with
  | none => cases ok <;> decide
  | some v => cases v <;> cases ok <;> decide

/-- The words of a header line without a verb. -/
theorem splitAt_header_none (ok : Bool) :
    Bytes.splitAt space (header none ok) = [token, status ok] := by
  rw [Bytes.splitAt_eq_iff (by simp)]
  have htoken : space ∉ token := by decide
  simp [header, htoken, space_not_mem_status]

/-- The words of a header line with a verb. -/
theorem splitAt_header_some (v : Verb) (ok : Bool) :
    Bytes.splitAt space (header (some v) ok) = [token, v.bytes, status ok] := by
  rw [Bytes.splitAt_eq_iff (by simp)]
  have htoken : space ∉ token := by decide
  simp [header, htoken, space_not_mem_status, space_not_mem_bytes]

/-- The pieces of a header determine it. -/
theorem splitAt_space_injective {line line' : Bytes}
    (h : Bytes.splitAt space line = Bytes.splitAt space line') : line = line' := by
  rw [Bytes.splitAt_eq_splitOn, Bytes.splitAt_eq_splitOn] at h
  have hline : [space].intercalate (line.splitOn space) = line := List.intercalate_splitOn space
  rw [← hline, h, List.intercalate_splitOn]

/-- A header is accepted exactly if it is the header of a verb, or of none, and a status. -/
theorem readHeader_eq_ok_iff {line : Bytes} {r : Response} :
    readHeader line = .ok r ↔ ∃ verb ok, line = header verb ok ∧ r = bare verb ok := by
  constructor
  · fun_cases readHeader line with
    | case2 first hfirst statusToken hsplit =>
      rw [bind_eq_ok_iff]
      rintro ⟨ok, hok, h⟩
      obtain rfl := not_not.1 hfirst
      obtain rfl := readStatus_eq_ok_iff.1 hok
      refine ⟨none, ok, splitAt_space_injective ?_, (Except.ok.inj h).symm⟩
      rw [hsplit, splitAt_header_none]
    | case4 first hfirst verbToken statusToken v hverb hsplit =>
      rw [bind_eq_ok_iff]
      rintro ⟨ok, hok, h⟩
      obtain rfl := not_not.1 hfirst
      obtain rfl := readStatus_eq_ok_iff.1 hok
      obtain rfl := Verb.ofBytes?_eq_some_iff.1 hverb
      refine ⟨some v, ok, splitAt_space_injective ?_, (Except.ok.inj h).symm⟩
      rw [hsplit, splitAt_header_some]
    | _ => exact nofun
  · rintro ⟨verb, ok, rfl, rfl⟩
    unfold readHeader
    cases verb with
    | none =>
      simp only [splitAt_header_none, readStatus_eq_ok_iff.2 rfl]
      rfl
    | some v =>
      simp only [splitAt_header_some, Verb.ofBytes?_eq_some_iff.2 rfl,
        readStatus_eq_ok_iff.2 rfl]
      rfl

/-- A header determines the verb and the status. -/
theorem header_inj {verb verb' : Option Verb} {ok ok' : Bool} :
    header verb ok = header verb' ok' ↔ verb = verb' ∧ ok = ok' := by
  constructor
  · intro h
    have hread := readHeader_eq_ok_iff.2 ⟨verb, ok, rfl, rfl⟩
    have hread' := readHeader_eq_ok_iff.2 ⟨verb', ok', rfl, rfl⟩
    rw [h, hread', Except.ok.injEq] at hread
    exact ⟨(congrArg Response.verb hread).symm, (congrArg Response.ok hread).symm⟩
  · rintro ⟨rfl, rfl⟩
    rfl

/-! ## The fields -/

/-- A field of a response. -/
inductive Field
  | message (text : String)
  | key (text : String)
  | value (bytes : Bytes)

namespace Field

def name : Field → Bytes
  | message _ => messageName
  | key _ => keyName
  | value _ => valueName

/-- What stands behind the separator. -/
def content : Field → Bytes
  | message text => Bytes.ofText text
  | key text => Bytes.ofText text
  | value bytes => bytes

/-- The line of a field, without its end. -/
def line (f : Field) : Bytes := fieldText f.name f.content

/-- Puts a field into a response, in the place of an earlier one of its name. -/
def put (r : Response) : Field → Response
  | message text => { r with message := some text }
  | key text => { r with key := some text }
  | value bytes => { r with value := some bytes }

/-- The names of the fields of a reply can be told from the separator. -/
theorem isFieldName_name (f : Field) : IsFieldName f.name := by
  cases f with
  | message => exact isFieldName_messageName
  | key => exact isFieldName_keyName
  | value => exact isFieldName_valueName

/-- A field line has a line end in it exactly if the content of the field has. -/
theorem crlf_infix_line {f : Field} : crlf <:+: f.line ↔ crlf <:+: f.content :=
  crlf_infix_fieldText f.isFieldName_name

end Field

/-- A text is read exactly from its bytes. -/
theorem readText_eq_ok_iff {bs : Bytes} {text : String} :
    readText bs = .ok text ↔ bs = Bytes.ofText text := by
  rw [← Text.decode?_eq_some_iff]
  unfold readText
  split <;> simp_all

/-- A line is accepted exactly if it is the line of a field that is not empty. -/
theorem addField_eq_ok_iff {r after : Response} {line : Bytes} :
    addField r line = .ok after ↔
      ∃ f : Field, f.content ≠ [] ∧ line = f.line ∧ after = f.put r := by
  constructor
  · fun_cases addField r line with
    | case3 value hvalue hsplit =>
      rw [bind_eq_ok_iff]
      rintro ⟨text, htext, h⟩
      obtain rfl := readText_eq_ok_iff.1 htext
      exact ⟨.message text, hvalue, (splitField?_eq_some_iff.1 hsplit).1, (Except.ok.inj h).symm⟩
    | case4 value hvalue hsplit =>
      rw [bind_eq_ok_iff]
      rintro ⟨text, htext, h⟩
      obtain rfl := readText_eq_ok_iff.1 htext
      exact ⟨.key text, hvalue, (splitField?_eq_some_iff.1 hsplit).1, (Except.ok.inj h).symm⟩
    | case5 value hvalue hsplit =>
      intro h
      exact ⟨.value value, hvalue, (splitField?_eq_some_iff.1 hsplit).1, (Except.ok.inj h).symm⟩
    | _ => exact nofun
  · rintro ⟨f, hcontent, rfl, rfl⟩
    have hkey : keyName ≠ messageName := by decide
    have hvalue : valueName ≠ messageName := by decide
    have hvalue' : valueName ≠ keyName := by decide
    unfold addField
    rw [Field.line, splitField?_fieldText f.isFieldName_name]
    simp only [if_neg hcontent]
    cases f with
    | message text =>
      simp only [Field.name, Field.content, ite_true, readText_eq_ok_iff.2 rfl]
      rfl
    | key text =>
      simp only [Field.name, Field.content, ite_true, if_neg hkey, readText_eq_ok_iff.2 rfl]
      rfl
    | value bytes =>
      simp only [Field.name, Field.content, ite_true, if_neg hvalue, if_neg hvalue']
      rfl

/-- Lines are accepted exactly if they are the lines of fields that are not empty. -/
theorem foldlM_addField_eq_ok_iff {r after : Response} {ls : List Bytes} :
    ls.foldlM addField r = .ok after ↔
      ∃ fs : List Field, (∀ f ∈ fs, f.content ≠ []) ∧ ls = fs.map Field.line ∧
        after = fs.foldl Field.put r := by
  induction ls generalizing r with
  | nil =>
    simp only [List.foldlM_nil]
    constructor
    · intro h
      exact ⟨[], by simp, rfl, (Except.ok.inj h).symm⟩
    · rintro ⟨fs, -, hlines, rfl⟩
      obtain rfl := List.map_eq_nil_iff.1 hlines.symm
      rfl
  | cons line ls ih =>
    rw [List.foldlM_cons, bind_eq_ok_iff]
    constructor
    · rintro ⟨mid, hmid, h⟩
      obtain ⟨f, hf, rfl, rfl⟩ := addField_eq_ok_iff.1 hmid
      obtain ⟨fs, hfs, rfl, rfl⟩ := ih.1 h
      exact ⟨f :: fs, List.forall_mem_cons.2 ⟨hf, hfs⟩, rfl, rfl⟩
    · rintro ⟨fs, hfs, hlines, rfl⟩
      obtain ⟨f, fs, rfl, rfl, rfl⟩ := List.map_eq_cons_iff.1 hlines.symm
      obtain ⟨hf, hfs⟩ := List.forall_mem_cons.1 hfs
      exact ⟨f.put r, addField_eq_ok_iff.2 ⟨f, hf, rfl, rfl⟩, ih.2 ⟨fs, hfs, rfl, rfl⟩⟩

/-! ## The whole message -/

/-- A message is accepted exactly if its lines are a header and fields that are not empty; what it
is read as has all of them put in, one after the other. -/
theorem parse_eq_ok_iff {message : Bytes} {r : Response} :
    parse message = .ok r ↔
      ∃ (verb : Option Verb) (ok : Bool) (fs : List Field), (∀ f ∈ fs, f.content ≠ []) ∧
        Bytes.lines (Bytes.dropEnding crlf message) = header verb ok :: fs.map Field.line ∧
        r = fs.foldl Field.put (bare verb ok) := by
  have hempty : Bytes.dropEnding crlf message = [] → ∀ verb ok fs,
      Bytes.lines (Bytes.dropEnding crlf message) ≠ header verb ok :: fs := by
    intro hbody verb ok fs h
    rw [hbody] at h
    have hheader : [] = header verb ok := (List.cons.inj h).1
    simp [header] at hheader
  unfold parse
  dsimp only
  split
  · next hbody =>
    refine iff_of_false nofun ?_
    rintro ⟨verb, ok, fs, -, hlines, -⟩
    exact hempty hbody verb ok _ hlines
  · split
    · next hlines =>
      refine iff_of_false nofun ?_
      rintro ⟨verb, ok, fs, -, h, -⟩
      rw [hlines] at h
      cases h
    · next line ls hlines =>
      rw [bind_eq_ok_iff, hlines]
      constructor
      · rintro ⟨first, hfirst, h⟩
        obtain ⟨verb, ok, rfl, rfl⟩ := readHeader_eq_ok_iff.1 hfirst
        obtain ⟨fs, hfs, rfl, rfl⟩ := foldlM_addField_eq_ok_iff.1 h
        exact ⟨verb, ok, fs, hfs, rfl, rfl⟩
      · rintro ⟨verb, ok, fs, hfs, h, rfl⟩
        obtain ⟨rfl, rfl⟩ := List.cons.inj h
        exact ⟨_, readHeader_eq_ok_iff.2 ⟨verb, ok, rfl, rfl⟩,
          foldlM_addField_eq_ok_iff.2 ⟨fs, hfs, rfl, rfl⟩⟩

/-! ## What is written and read -/

/-- The response as it can be read back: an empty field counts as none. -/
def normal (r : Response) : Response :=
  { r with
    message := r.message.filter (· ≠ "")
    key := r.key.filter (· ≠ "")
    value := r.value.filter (· ≠ []) }

/-- The fields of a response that are written, in the order in which they are. -/
def fields (r : Response) : List Field :=
  r.normal.message.toList.map .message ++ r.normal.key.toList.map .key ++
    r.normal.value.toList.map .value

/-- Whether a response has a field. -/
def Has (r : Response) : Field → Prop
  | .message text => text ∈ r.message
  | .key text => text ∈ r.key
  | .value bytes => bytes ∈ r.value

/-- The written fields are those that are not empty. -/
theorem mem_fields_iff {r : Response} {f : Field} : f ∈ r.fields ↔ r.Has f ∧ f.content ≠ [] := by
  cases f with
  | message text => simp [fields, normal, Has, Field.content, Option.filter_eq_some_iff]
  | key text => simp [fields, normal, Has, Field.content, Option.filter_eq_some_iff]
  | value bytes => simp [fields, normal, Has, Field.content, Option.filter_eq_some_iff]

/-- No field of the response holds a line end. -/
structure LineFree (r : Response) : Prop where
  message : ∀ text ∈ r.message, ¬ crlf <:+: Bytes.ofText text
  key : ∀ text ∈ r.key, ¬ crlf <:+: Bytes.ofText text
  value : ∀ bytes ∈ r.value, ¬ crlf <:+: bytes

/-- An optional field is written as one line, or as none if it is absent or empty. -/
theorem optionalLine_eq_flatMap (name : Bytes) (value : Option Bytes) :
    optionalLine name value =
      (value.filter (· ≠ [])).toList.flatMap fun v => fieldText name v ++ crlf := by
  cases value with
  | none => rfl
  | some v => by_cases hv : v = [] <;> simp [optionalLine, fieldLine_eq, hv, Option.filter]

/-- A text is empty exactly if its bytes are. -/
theorem filter_map_ofText (text : Option String) :
    (text.map Bytes.ofText).filter (· ≠ []) = (text.filter (· ≠ "")).map Bytes.ofText := by
  cases text with
  | none => rfl
  | some t => by_cases ht : t = "" <;> simp [Option.filter, ht]

/-- A response is written as its header and its fields, each with a line end. -/
theorem encode_eq_flatMap (r : Response) :
    r.encode = (header r.verb r.ok :: r.fields.map Field.line).flatMap (· ++ crlf) := by
  simp only [encode, optionalLine_eq_flatMap, filter_map_ofText, fields, normal, header]
  simp [List.flatMap_map, Option.toList_map, Field.line, Field.name, Field.content]

/-- What is written begins with the header, so responses of different verbs are written
differently. -/
theorem verb_eq_of_encode_eq {r s : Response} (h : r.encode = s.encode) : r.verb = s.verb := by
  have hcut : ∀ t : Response, Bytes.splitFirst crlf t.encode =
      some (header t.verb t.ok, (t.fields.map Field.line).flatMap (· ++ crlf)) := by
    intro t
    refine Bytes.splitFirst_crlf_eq_some_iff.2 ⟨?_, ?_⟩
    · rw [encode_eq_flatMap, List.flatMap_cons]
    · exact Bytes.crlf_not_infix_of_not_mem (return_not_mem_header _ _)
  have hheader := hcut r
  rw [h, hcut s, Option.some.injEq, Prod.mk.injEq] at hheader
  exact (header_inj.1 hheader.1).1.symm

/-- Putting the written fields into the bare response gives all but the empty ones. -/
theorem foldl_put_fields (r : Response) :
    r.fields.foldl Field.put (bare r.verb r.ok) = r.normal := by
  obtain ⟨verb, ok, message, key, value⟩ := r
  simp only [fields, normal, List.foldl_append, List.foldl_map]
  cases message.filter (· ≠ "") <;> cases key.filter (· ≠ "") <;>
    cases value.filter (· ≠ []) <;> rfl

/-- A response without line ends in its fields is read back, its empty fields aside. -/
theorem parse_encode_of_lineFree {r : Response} (h : LineFree r) :
    parse r.encode = .ok r.normal := by
  have hfields : ∀ f ∈ r.fields, ¬ crlf <:+: f.line := by
    intro f hf
    rw [Field.crlf_infix_line]
    have hhas : r.Has f := (mem_fields_iff.1 hf).1
    cases f with
    | message text => exact h.message text hhas
    | key text => exact h.key text hhas
    | value bytes => exact h.value bytes hhas
  refine parse_eq_ok_iff.2 ⟨r.verb, r.ok, r.fields, fun f hf => (mem_fields_iff.1 hf).2, ?_,
    (foldl_put_fields r).symm⟩
  rw [encode_eq_flatMap]
  refine Bytes.lines_dropEnding_flatMap (by simp) ?_
  rintro l hl
  rcases List.mem_cons.1 hl with rfl | hl
  · exact Bytes.crlf_not_infix_of_not_mem (return_not_mem_header _ _)
  · obtain ⟨f, hf, rfl⟩ := List.mem_map.1 hl
    exact hfields f hf

/-- A field without a line end keeps a reply free of line ends. -/
theorem LineFree.put {r : Response} (h : LineFree r) {f : Field} (hf : ¬ crlf <:+: f.content) :
    LineFree (f.put r) := by
  cases f with
  | message text => exact { h with message := by rintro _ ⟨⟩; exact hf }
  | key text => exact { h with key := by rintro _ ⟨⟩; exact hf }
  | value bytes => exact { h with value := by rintro _ ⟨⟩; exact hf }

/-- Fields without line ends keep a reply free of line ends. -/
theorem LineFree.foldl_put {r : Response} {fs : List Field} (h : LineFree r)
    (hfs : ∀ f ∈ fs, ¬ crlf <:+: f.content) : LineFree (fs.foldl Field.put r) := by
  induction fs generalizing r with
  | nil => exact h
  | cons f fs ih =>
    obtain ⟨hf, hfs⟩ := List.forall_mem_cons.1 hfs
    exact ih (h.put hf) hfs

/-- What was read holds no line end, since every line end was cut at. -/
theorem LineFree.of_parse {message : Bytes} {r : Response} (h : parse message = .ok r) :
    LineFree r := by
  obtain ⟨verb, ok, fs, -, hlines, rfl⟩ := parse_eq_ok_iff.1 h
  refine LineFree.foldl_put ⟨by simp [bare], by simp [bare], by simp [bare]⟩ fun f hf => ?_
  have hmem : f.line ∈ Bytes.lines (Bytes.dropEnding crlf message) := by
    rw [hlines]
    exact .tail _ (List.mem_map_of_mem hf)
  exact mt Field.crlf_infix_line.2 (Bytes.crlf_not_infix_of_mem_lines hmem)

/-- What holds of everything that a filter leaves out holds of all if it holds of the rest. -/
theorem forall_mem_filter_iff {α : Type} {found : Option α} {p : α → Bool} {q : α → Prop}
    (h : ∀ a, p a = false → q a) : (∀ a ∈ found.filter p, q a) ↔ ∀ a ∈ found, q a := by
  simp only [Option.mem_def, Option.filter_eq_some_iff]
  refine ⟨fun hq a ha => ?_, fun hq a ha => hq a ha.1⟩
  cases hp : p a with
  | false => exact h a hp
  | true => exact hq a ⟨ha, hp⟩

/-- The fields that are left out when they are empty hold no line end. -/
theorem lineFree_normal_iff {r : Response} : LineFree r.normal ↔ LineFree r := by
  have htext : ∀ {found : Option String},
      (∀ text ∈ found.filter (· ≠ ""), ¬ crlf <:+: Bytes.ofText text) ↔
        ∀ text ∈ found, ¬ crlf <:+: Bytes.ofText text :=
    forall_mem_filter_iff fun text hempty => by
      obtain rfl : text = "" := by simpa using hempty
      decide
  have hbytes : ∀ {found : Option Bytes},
      (∀ bytes ∈ found.filter (· ≠ []), ¬ crlf <:+: bytes) ↔ ∀ bytes ∈ found, ¬ crlf <:+: bytes :=
    forall_mem_filter_iff fun bytes hempty => by
      obtain rfl : bytes = [] := by simpa using hempty
      decide
  exact ⟨fun h => ⟨htext.1 h.message, htext.1 h.key, hbytes.1 h.value⟩,
    fun h => ⟨htext.2 h.message, htext.2 h.key, hbytes.2 h.value⟩⟩

/-- What is written for a response to an empty buffer is read as the response, its empty fields
aside, exactly if no line end is in its message, its key or its value. A line end in one of them is
never read back, since no field that was read holds one. -/
theorem parse_write_eq_ok_iff (r : Response) :
    parse (ReplyBuffer.empty.write r).pending = .ok r.normal ↔ LineFree r := by
  constructor
  · intro h
    exact lineFree_normal_iff.1 (LineFree.of_parse h)
  · intro h
    exact parse_encode_of_lineFree h

end Response

end CacheServer.Protocol
