import CacheServer.Proofs.Protocol.Response

/-!
# The lines of a response

A message is judged by its lines, the first of which is the header. `parse_lines` says what comes
of each: a message is of another protocol by its header alone, it is a response if every line behind
the header is that of a field, and otherwise it is malformed. Of the fields of one name the last
counts, so lines can change places with lines of other names (`Reorders`).
-/

namespace CacheServer.Protocol.Response

open Bytes (crlf AreLines)

/-! ## Why messages are refused -/

/-- A sequence of two readers fails in the first, or in the second on what the first has read. -/
theorem bind_eq_error_iff {α β : Type} {x : Except ProtocolError α}
    {f : α → Except ProtocolError β} {e : ProtocolError} :
    x >>= f = .error e ↔ x = .error e ∨ ∃ a, x = .ok a ∧ f a = .error e := by
  cases x <;> simp [bind, Except.bind]

/-- Reading a status has one kind of failure. -/
theorem readStatus_eq_error {bs : Bytes} {e : ProtocolError} (h : readStatus bs = .error e) :
    e = .malformedResponse := by
  revert h
  fun_cases readStatus bs with
  | case1 | case2 =>
    intro h
    cases h
  | case3 => exact fun h => (Except.error.inj h).symm

/-- Reading a text has one kind of failure. -/
theorem readText_eq_error {bs : Bytes} {e : ProtocolError} (h : readText bs = .error e) :
    e = .malformedResponse := by
  revert h
  fun_cases readText bs with
  | case1 =>
    intro h
    cases h
  | case2 => exact fun h => (Except.error.inj h).symm

/-- A header that opens with another token is one of another protocol. -/
theorem readHeader_of_takeWhile_ne {line : Bytes} (h : line.takeWhile (· ≠ space) ≠ token) :
    readHeader line = .error .unknownProtocol := by
  obtain ⟨others, hcut⟩ := Bytes.exists_splitAt_eq_cons space line
  unfold readHeader
  rw [hcut]
  exact if_pos h

/-- Behind the protocol token a header can only be malformed. -/
theorem readHeader_eq_error_of_takeWhile {line : Bytes} {e : ProtocolError}
    (hfirst : line.takeWhile (· ≠ space) = token) (h : readHeader line = .error e) :
    e = .malformedResponse := by
  obtain ⟨others, hcut⟩ := Bytes.exists_splitAt_eq_cons space line
  rw [hfirst] at hcut
  revert h
  fun_cases readHeader line with
  | case1 first others' hsplit hother =>
    rw [hcut] at hsplit
    exact absurd (List.cons.inj hsplit).1.symm hother
  | case2 first hnot statusToken hsplit =>
    intro h
    rcases bind_eq_error_iff.1 h with h | ⟨ok, -, h⟩
    · exact readStatus_eq_error h
    · cases h
  | case3 => exact fun h => (Except.error.inj h).symm
  | case4 first hnot verbToken statusToken v hverb hsplit =>
    intro h
    rcases bind_eq_error_iff.1 h with h | ⟨ok, -, h⟩
    · exact readStatus_eq_error h
    · cases h
  | case5 => exact fun h => (Except.error.inj h).symm
  | case6 hsplit =>
    rw [hcut] at hsplit
    cases hsplit

/-- The protocol is unknown exactly if the first word is not its token. -/
theorem readHeader_eq_unknownProtocol_iff {line : Bytes} :
    readHeader line = .error .unknownProtocol ↔ line.takeWhile (· ≠ space) ≠ token := by
  refine ⟨fun h hfirst => ?_, readHeader_of_takeWhile_ne⟩
  cases readHeader_eq_error_of_takeWhile hfirst h

/-- A field can only be malformed. -/
theorem addField_eq_error {r : Response} {line : Bytes} {e : ProtocolError}
    (h : addField r line = .error e) : e = .malformedResponse := by
  have htext : ∀ {bs : Bytes} {put : String → Response},
      (readText bs >>= fun text => .ok (put text)) = .error e → e = .malformedResponse := by
    intro bs put h
    rcases bind_eq_error_iff.1 h with h | ⟨text, -, h⟩
    · exact readText_eq_error h
    · cases h
  revert h
  fun_cases addField r line with
  | case1 | case2 | case6 => exact fun h => (Except.error.inj h).symm
  | case3 => exact htext
  | case4 => exact htext
  | case5 =>
    intro h
    cases h

/-- Reading field lines has one kind of failure. -/
theorem foldlM_addField_eq_error {r : Response} {ls : List Bytes} {e : ProtocolError}
    (h : ls.foldlM addField r = .error e) : e = .malformedResponse := by
  induction ls generalizing r with
  | nil => cases h
  | cons line ls ih =>
    rw [List.foldlM_cons] at h
    rcases bind_eq_error_iff.1 h with h | ⟨mid, -, h⟩
    · exact addField_eq_error h
    · exact ih h

/-! ## The order of the fields -/

/-- What the last field of a name holds. -/
def lastUnder (name : Bytes) (fs : List Field) : Option Bytes :=
  (fs.filter (·.name = name)).getLast?.map Field.content

/-- A field behind the others is the last under its own name. -/
theorem lastUnder_append_singleton (name : Bytes) (fs : List Field) (f : Field) :
    lastUnder name (fs ++ [f]) = if f.name = name then some f.content else lastUnder name fs := by
  unfold lastUnder
  rw [List.filter_append, List.filter_singleton]
  by_cases h : f.name = name <;> simp [h]

/-- Whether a response has the verb and the status of its header and, under each name, what the last
field of the name holds. -/
structure Collects (verb : Option Verb) (ok : Bool) (fs : List Field) (r : Response) : Prop where
  verb_eq : r.verb = verb
  ok_eq : r.ok = ok
  message_eq : r.message.map Bytes.ofText = lastUnder messageName fs
  key_eq : r.key.map Bytes.ofText = lastUnder keyName fs
  value_eq : r.value = lastUnder valueName fs

/-- The names of the three fields of a reply are distinct. -/
theorem names_ne :
    keyName ≠ messageName ∧ valueName ≠ messageName ∧ valueName ≠ keyName := by
  decide

/-- Putting fields in one after the other leaves the last of every name. -/
theorem collects_foldl_put (verb : Option Verb) (ok : Bool) (fs : List Field) :
    Collects verb ok fs (fs.foldl Field.put (bare verb ok)) := by
  induction fs using List.reverseRecOn with
  | nil => exact ⟨rfl, rfl, rfl, rfl, rfl⟩
  | append_singleton fs f ih =>
    obtain ⟨hkey, hvalue, hvalue'⟩ := names_ne
    rw [List.foldl_append, List.foldl_cons, List.foldl_nil]
    cases f with
    | message text =>
      refine ⟨ih.verb_eq, ih.ok_eq, ?_, ?_, ?_⟩ <;> rw [lastUnder_append_singleton]
      · rfl
      · exact ih.key_eq.trans (if_neg hkey.symm).symm
      · exact ih.value_eq.trans (if_neg hvalue.symm).symm
    | key text =>
      refine ⟨ih.verb_eq, ih.ok_eq, ?_, ?_, ?_⟩ <;> rw [lastUnder_append_singleton]
      · exact ih.message_eq.trans (if_neg hkey).symm
      · rfl
      · exact ih.value_eq.trans (if_neg hvalue'.symm).symm
    | value bytes =>
      refine ⟨ih.verb_eq, ih.ok_eq, ?_, ?_, ?_⟩ <;> rw [lastUnder_append_singleton]
      · exact ih.message_eq.trans (if_neg hvalue).symm
      · exact ih.key_eq.trans (if_neg hvalue').symm
      · rfl

/-- There is only one such response. -/
theorem Collects.unique {verb : Option Verb} {ok : Bool} {fs : List Field} {r s : Response}
    (hr : Collects verb ok fs r) (hs : Collects verb ok fs s) : r = s := by
  have htext := Option.map_injective fun _ _ => Bytes.ofText_injective
  have hmessage := htext (hr.message_eq.trans hs.message_eq.symm)
  have hkey := htext (hr.key_eq.trans hs.key_eq.symm)
  have hvalue := hr.value_eq.trans hs.value_eq.symm
  obtain ⟨verb, ok, message, key, value⟩ := r
  obtain rfl := hr.verb_eq
  obtain rfl := hr.ok_eq
  obtain ⟨verb', ok', message', key', value'⟩ := s
  obtain rfl : verb' = verb := hs.verb_eq
  obtain rfl : ok' = ok := hs.ok_eq
  simp only at hmessage hkey hvalue
  rw [hmessage, hkey, hvalue]

/-- A reply collects the last field under each name exactly if it is the fold of all of them. -/
theorem collects_iff {verb : Option Verb} {ok : Bool} {fs : List Field} {r : Response} :
    Collects verb ok fs r ↔ r = fs.foldl Field.put (bare verb ok) :=
  ⟨fun h => h.unique (collects_foldl_put verb ok fs), fun h => h ▸ collects_foldl_put verb ok fs⟩

/-- What stands before the first separator of a line, if it has one. -/
def lineName? (line : Bytes) : Option Bytes := (splitField? line).map Prod.fst

/-- The name on a written line is the name of its field. -/
theorem lineName?_line (f : Field) : lineName? f.line = some f.name := by
  rw [lineName?, Field.line, splitField?_fieldText f.isFieldName_name]
  rfl

/-- Lines in another order, in which no line has changed places with one of its own name. -/
inductive Reorders : List Bytes → List Bytes → Prop
  | refl (ls : List Bytes) : Reorders ls ls
  | swap (front : List Bytes) {line next : Bytes} (back : List Bytes) :
      lineName? line ≠ lineName? next →
      Reorders (front ++ line :: next :: back) (front ++ next :: line :: back)
  | trans {ls mid ls' : List Bytes} : Reorders ls mid → Reorders mid ls' → Reorders ls ls'

/-- Reordering neither makes nor loses lines. -/
theorem Reorders.eq_nil_iff {ls ls' : List Bytes} (h : Reorders ls ls') : ls = [] ↔ ls' = [] := by
  induction h with
  | refl => rfl
  | swap => simp
  | trans _ _ ih ih' => exact ih.trans ih'

/-- Fields with distinct names can be put into a reply in either order. -/
theorem Field.put_comm {f g : Field} (h : f.name ≠ g.name) (r : Response) :
    g.put (f.put r) = f.put (g.put r) := by
  cases f <;> cases g <;> first | rfl | exact absurd rfl h

/-- Two fields of different names are added in either order. -/
theorem addField_swap {line next : Bytes} (h : lineName? line ≠ lineName? next) {r after : Response}
    (hadded : [line, next].foldlM addField r = .ok after) :
    [next, line].foldlM addField r = .ok after := by
  obtain ⟨fs, hfs, hlines, rfl⟩ := foldlM_addField_eq_ok_iff.1 hadded
  match fs, hlines with
  | [f, g], hlines =>
    obtain ⟨rfl, rfl⟩ : line = f.line ∧ next = g.line := by simpa using hlines
    rw [lineName?_line, lineName?_line, ne_eq, Option.some.injEq] at h
    refine foldlM_addField_eq_ok_iff.2 ⟨[g, f], fun a ha => hfs a ?_, rfl, Field.put_comm h r⟩
    simpa [or_comm] using ha

/-- The order of lines with different names makes no difference, whether they are fields or not. -/
theorem foldlM_addField_of_reorders {ls ls' : List Bytes} (h : Reorders ls ls') (r : Response) :
    ls.foldlM addField r = ls'.foldlM addField r := by
  induction h generalizing r with
  | refl => rfl
  | trans _ _ ih ih' => exact (ih r).trans (ih' r)
  | @swap front line next back hname =>
    have hpair : ∀ s : Response,
        [line, next].foldlM addField s = [next, line].foldlM addField s := by
      intro s
      cases hleft : [line, next].foldlM addField s with
      | ok after => exact (addField_swap hname hleft).symm
      | error e =>
        cases hright : [next, line].foldlM addField s with
        | ok after =>
          rw [addField_swap hname.symm hright] at hleft
          cases hleft
        | error e' =>
          rw [foldlM_addField_eq_error hleft, foldlM_addField_eq_error hright]
    rw [List.foldlM_append, List.foldlM_append]
    refine bind_congr fun s => ?_
    show ([line, next] ++ back).foldlM addField s = ([next, line] ++ back).foldlM addField s
    rw [List.foldlM_append, List.foldlM_append, hpair s]

/-- No field is filtered out if none is empty. -/
theorem filter_lastUnder {fs : List Field} (hfs : ∀ f ∈ fs, f.content ≠ []) (name : Bytes) :
    (lastUnder name fs).filter (· ≠ []) = lastUnder name fs := by
  cases hlast : (fs.filter (·.name = name)).getLast? with
  | none => simp [lastUnder, hlast]
  | some f =>
    have hmem : f ∈ fs := (List.mem_filter.1 (List.mem_of_getLast? hlast)).1
    simp [lastUnder, hlast, Option.filter_some, hfs f hmem]

/-- A response without empty fields is one as it can be read back. -/
theorem Collects.normal_eq {verb : Option Verb} {ok : Bool} {fs : List Field} {r : Response}
    (h : Collects verb ok fs r) (hfs : ∀ f ∈ fs, f.content ≠ []) : r.normal = r := by
  refine Collects.unique ⟨h.verb_eq, h.ok_eq, ?_, ?_, ?_⟩ h
  · rw [← filter_lastUnder hfs, ← h.message_eq, filter_map_ofText]
    rfl
  · rw [← filter_lastUnder hfs, ← h.key_eq, filter_map_ofText]
    rfl
  · rw [← filter_lastUnder hfs, ← h.value_eq]
    rfl

/-! ## The whole message -/

/-- A message that is not empty is read line by line. -/
theorem parse_of_areLines {message first : Bytes} {others : List Bytes}
    (hlines : AreLines (first :: others) (Bytes.dropEnding crlf message))
    (hbody : Bytes.dropEnding crlf message ≠ []) :
    parse message = readHeader first >>= others.foldlM addField := by
  unfold parse
  rw [if_neg hbody, Bytes.areLines_iff.1 hlines]

/-- A message is read exactly if its lines are a header and fields that are not empty. -/
theorem parse_eq_ok_iff_collects {message first : Bytes} {others : List Bytes}
    (hlines : AreLines (first :: others) (Bytes.dropEnding crlf message)) {r : Response} :
    parse message = .ok r ↔ Bytes.dropEnding crlf message ≠ [] ∧
      ∃ verb ok fs, first = header verb ok ∧ others = fs.map Field.line ∧
        (∀ f ∈ fs, f.content ≠ []) ∧ Collects verb ok fs r := by
  simp only [collects_iff, parse_eq_ok_iff, Bytes.areLines_iff.1 hlines, List.cons.injEq]
  constructor
  · rintro ⟨verb, ok, fs, hfs, ⟨hfirst, hothers⟩, hr⟩
    refine ⟨?_, verb, ok, fs, hfirst, hothers, hfs, hr⟩
    intro hbody
    have hnil := Bytes.areLines_iff.1 hlines
    rw [hbody] at hnil
    obtain rfl : [] = first := (List.cons.inj hnil).1
    simp [header] at hfirst
  · rintro ⟨-, verb, ok, fs, hfirst, hothers, hfs, hr⟩
    exact ⟨verb, ok, fs, hfs, ⟨hfirst, hothers⟩, hr⟩

/-- The protocol is unknown exactly if there are lines and the first does not begin with the token.
-/
theorem parse_eq_unknownProtocol_iff {message first : Bytes} {others : List Bytes}
    (hlines : AreLines (first :: others) (Bytes.dropEnding crlf message)) :
    parse message = .error .unknownProtocol ↔
      Bytes.dropEnding crlf message ≠ [] ∧ first.takeWhile (· ≠ space) ≠ token := by
  by_cases hbody : Bytes.dropEnding crlf message = []
  · simp [parse, hbody]
  · rw [parse_of_areLines hlines hbody, bind_eq_error_iff, readHeader_eq_unknownProtocol_iff,
      and_iff_right hbody, or_iff_left]
    rintro ⟨r, -, hfields⟩
    cases foldlM_addField_eq_error hfields

/-- There are two ways for a message not to be a response. -/
theorem parse_eq_error {message : Bytes} {e : ProtocolError} (h : parse message = .error e) :
    e = .unknownProtocol ∨ e = .malformedResponse := by
  obtain ⟨first, others, hcut, -⟩ := Bytes.exists_lines_eq_cons (Bytes.dropEnding crlf message)
  by_cases hbody : Bytes.dropEnding crlf message = []
  · rw [parse, if_pos hbody] at h
    exact .inr (Except.error.inj h).symm
  · rw [parse_of_areLines (Bytes.areLines_iff.2 hcut) hbody, bind_eq_error_iff] at h
    rcases h with hheader | ⟨r, -, hfields⟩
    · by_cases hfirst : first.takeWhile (· ≠ space) = token
      · exact .inr (readHeader_eq_error_of_takeWhile hfirst hheader)
      · rw [readHeader_of_takeWhile_ne hfirst] at hheader
        exact .inl (Except.error.inj hheader).symm
    · exact .inr (foldlM_addField_eq_error hfields)

/-- A message is malformed exactly if it is neither read nor of an unknown protocol. -/
theorem parse_eq_malformedResponse_iff (message : Bytes) :
    parse message = .error .malformedResponse ↔
      parse message ≠ .error .unknownProtocol ∧ ∀ r, parse message ≠ .ok r := by
  constructor
  · intro h
    rw [h]
    exact ⟨nofun, nofun⟩
  · rintro ⟨hknown, hnot⟩
    cases h : parse message with
    | ok r => exact absurd h (hnot r)
    | error e =>
      rcases parse_eq_error h with rfl | rfl
      · exact absurd h hknown
      · rfl

/-- Messages whose lines behind the header differ only in their order are read as the same. -/
theorem parse_of_reorders {message message' first : Bytes} {others others' : List Bytes}
    (hlines : AreLines (first :: others) (Bytes.dropEnding crlf message))
    (hlines' : AreLines (first :: others') (Bytes.dropEnding crlf message'))
    (h : Reorders others others') : parse message' = parse message := by
  by_cases hbody : Bytes.dropEnding crlf message = []
  · have hempty := (hlines.eq_nil_iff.1 hbody)
    have hbody' := hlines'.eq_nil_iff.2 ⟨hempty.1, h.eq_nil_iff.1 hempty.2⟩
    rw [parse, parse, if_pos hbody, if_pos hbody']
  · have hbody' : Bytes.dropEnding crlf message' ≠ [] := by
      rwa [ne_eq, hlines'.eq_nil_iff, ← h.eq_nil_iff, ← hlines.eq_nil_iff]
    rw [parse_of_areLines hlines hbody, parse_of_areLines hlines' hbody']
    exact bind_congr fun r => (foldlM_addField_of_reorders h r).symm

/-- What was read is written so that it is read again. -/
theorem parse_write_of_parse {message : Bytes} {r : Response} (h : parse message = .ok r) :
    parse (ReplyBuffer.empty.write r).pending = .ok r := by
  obtain ⟨first, others, hcut, -⟩ := Bytes.exists_lines_eq_cons (Bytes.dropEnding crlf message)
  obtain ⟨-, verb, ok, fs, -, -, hfs, hcollects⟩ :=
    (parse_eq_ok_iff_collects (Bytes.areLines_iff.2 hcut)).1 h
  have hwrite : parse (ReplyBuffer.empty.write r).pending = .ok r.normal :=
    parse_encode_of_lineFree (LineFree.of_parse h)
  rwa [hcollects.normal_eq hfs] at hwrite

/-- Every message is judged by its lines: it is one of another protocol if its header opens with
another token, a response if its header is one and every line behind it is that of a field which is
not empty, and malformed otherwise. A response has what the last field of every name holds, so it is
the same with the lines in another order; and it is written so that it is read again. -/
theorem parse_lines (message : Bytes) :
    ∃ first others, AreLines (first :: others) (Bytes.dropEnding crlf message) ∧
      (parse message = .error .unknownProtocol ↔
        Bytes.dropEnding crlf message ≠ [] ∧ first.takeWhile (· ≠ space) ≠ token) ∧
      (∀ r, parse message = .ok r ↔ Bytes.dropEnding crlf message ≠ [] ∧
        ∃ verb ok fs, first = header verb ok ∧ others = fs.map Field.line ∧
          (∀ f ∈ fs, f.content ≠ []) ∧ Collects verb ok fs r) ∧
      (parse message = .error .malformedResponse ↔
        parse message ≠ .error .unknownProtocol ∧ ∀ r, parse message ≠ .ok r) ∧
      (∀ message' others', AreLines (first :: others') (Bytes.dropEnding crlf message') →
        Reorders others others' → parse message' = parse message) ∧
      ∀ r, parse message = .ok r → parse (ReplyBuffer.empty.write r).pending = .ok r := by
  obtain ⟨first, others, hcut, -⟩ := Bytes.exists_lines_eq_cons (Bytes.dropEnding crlf message)
  have hlines := Bytes.areLines_iff.2 hcut
  exact ⟨first, others, hlines, parse_eq_unknownProtocol_iff hlines,
    fun r => parse_eq_ok_iff_collects hlines, parse_eq_malformedResponse_iff message,
    fun message' others' hlines' h => parse_of_reorders hlines hlines' h,
    fun r => parse_write_of_parse⟩

/-- Of two values the last counts, wherever the key stands. -/
theorem parse_lines_key_moved :
    let message := Bytes.ofText "RCSP/1.0 GET OK\r\nVALUE: 1\r\nKEY: a\r\nVALUE: 2: 3\r\n"
    let moved := Bytes.ofText "RCSP/1.0 GET OK\r\nKEY: a\r\nVALUE: 1\r\nVALUE: 2: 3"
    let r : Response := ⟨some .get, true, none, some "a", some (Bytes.ofText "2: 3")⟩
    let header := Bytes.ofText "RCSP/1.0 GET OK"
    let others := ["VALUE: 1", "KEY: a", "VALUE: 2: 3"].map Bytes.ofText
    let others' := ["KEY: a", "VALUE: 1", "VALUE: 2: 3"].map Bytes.ofText
    AreLines (header :: others) (Bytes.dropEnding crlf message) ∧
      AreLines (header :: others') (Bytes.dropEnding crlf moved) ∧ Reorders others others' ∧
      parse message = .ok r ∧ parse moved = .ok r ∧
      parse (ReplyBuffer.empty.write r).pending = .ok r := by
  intro message moved r header others others'
  have hlines : AreLines (header :: others) (Bytes.dropEnding crlf message) :=
    Bytes.areLines_iff.2 (by decide)
  have hlines' : AreLines (header :: others') (Bytes.dropEnding crlf moved) :=
    Bytes.areLines_iff.2 (by decide)
  have hreorders : Reorders others others' := .swap [] _ (by decide)
  have hparse : parse message = .ok r := by decide
  obtain ⟨first, ls, hcut, -, -, -, hmoved, hwritten⟩ := parse_lines message
  obtain ⟨rfl, rfl⟩ : header = first ∧ others = ls :=
    List.cons.inj ((Bytes.areLines_iff.1 hlines).symm.trans (Bytes.areLines_iff.1 hcut))
  exact ⟨hlines, hlines', hreorders, hparse, (hmoved moved others' hlines' hreorders).trans hparse,
    hwritten r hparse⟩

end CacheServer.Protocol.Response
