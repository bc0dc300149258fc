import CacheServer.Proofs.Protocol.Field
import CacheServer.Proofs.Text.Utf8
import CacheServer.Protocol.Request

/-!
# Which messages are requests

`Request.Reads` is the grammar of requests: a header with one verb token, then at most a key line,
and behind a key line at most a value, which runs to the end. `parse_eq_ok_iff` says that parsing
accepts exactly what the grammar derives. From it follows when writing and reading a request gives
the same request again (`parse_encode_eq_ok_iff`): a verb is needed, a value needs a key in front
of it, and the key must not hold a line end. The value may hold anything. Reading and writing give
the same message again, up to a line end behind it, whenever the verb is known
(`encode_of_parse_eq_ok`).
-/

namespace CacheServer.Protocol.Request

open Bytes (crlf)

/-! ## The parts of a message -/

/-- A token that can stand for a verb in a header. -/
structure IsVerbToken (verb : Bytes) : Prop where
  ne_nil : verb ≠ []
  space_free : space ∉ verb
  line_free : ¬ crlf <:+: verb

/-- The header with a verb token. -/
def header (verb : Bytes) : Bytes := token ++ space :: verb

/-- A known verb is a verb token. -/
theorem isVerbToken_bytes (v : Verb) : IsVerbToken v.bytes := by
  cases v <;> exact ⟨by decide, by decide, by decide⟩

/-- A known verb is read back from its bytes. -/
theorem ofBytes?_bytes (v : Verb) : Verb.ofBytes? v.bytes = some v :=
  Verb.ofBytes?_eq_some_iff.2 rfl

/-- A header line has a line end in it exactly if its verb has. -/
theorem crlf_infix_header {verb : Bytes} : crlf <:+: header verb ↔ crlf <:+: verb := by
  have happend : header verb = (token ++ [space]) ++ verb := by simp [header]
  rw [happend]
  exact Bytes.crlf_infix_append_iff (by decide)

/-- A header is accepted exactly if it is one verb token behind the protocol token. -/
theorem readHeader_eq_ok_iff {line verb : Bytes} :
    readHeader line = .ok verb ↔ line = header verb ∧ verb ≠ [] ∧ space ∉ verb := by
  have hpieces : Bytes.splitAt space line = [token, verb] ↔
      line = header verb ∧ space ∉ verb := by
    rw [Bytes.splitAt_eq_iff (by simp)]
    have : space ∉ token := by decide
    simp [header, this]
  rw [and_comm (a := verb ≠ []), ← and_assoc, ← hpieces]
  fun_cases readHeader line with
  | case3 first hfirst verb' hne hsplit =>
    obtain rfl := not_not.1 hfirst
    rw [hsplit]
    simp only [Except.ok.injEq, List.cons.injEq, and_true, true_and]
    exact ⟨fun h => ⟨h, h ▸ hne⟩, And.left⟩
  | _ => simp_all

/-- A field line is accepted exactly if it has the name, and its value is what follows. -/
theorem readField_eq_ok_iff {name line value : Bytes} {invalid : ProtocolError}
    (h : IsFieldName name) :
    readField name invalid line = .ok value ↔ line = fieldText name value := by
  have hsplit : splitField? line = some (name, value) ↔ line = fieldText name value := by
    rw [splitField?_eq_some_iff, and_iff_left h.separator_free]
  rw [← hsplit]
  fun_cases readField name invalid line <;> simp_all

/-- A key line is accepted exactly if it is the field of a text. -/
theorem readKey_eq_ok_iff {line : Bytes} {key : String} :
    readKey line = .ok key ↔ line = fieldText keyName (Bytes.ofText key) := by
  have hfield : ∀ {bytes}, readField keyName .invalidKey line = .ok bytes ↔
      line = fieldText keyName bytes := readField_eq_ok_iff isFieldName_keyName
  rw [← hfield]
  fun_cases readKey line with
  | case1 e h => simp [h]
  | case2 bytes h key' hdecode =>
    rw [Text.decode?_eq_some_iff] at hdecode
    subst hdecode
    simp only [h, Except.ok.injEq]
    exact ⟨fun heq => heq ▸ rfl, Bytes.ofText_injective⟩
  | case3 bytes h hdecode =>
    simp only [h, Except.ok.injEq, reduceCtorEq, false_iff]
    rintro rfl
    simp at hdecode

/-! ## The grammar -/

/-- The messages, less an optional line end behind them, that are read as a request. -/
inductive Reads : Bytes → Request → Prop
  | verb {verb : Bytes} : IsVerbToken verb → Reads (header verb) ⟨Verb.ofBytes? verb, none, none⟩
  | key {verb : Bytes} {key : String} : IsVerbToken verb → ¬ crlf <:+: Bytes.ofText key →
      Reads (header verb ++ crlf ++ fieldText keyName (Bytes.ofText key))
        ⟨Verb.ofBytes? verb, some key, none⟩
  | value {verb : Bytes} {key : String} {value : Bytes} : IsVerbToken verb →
      ¬ crlf <:+: Bytes.ofText key →
      Reads (header verb ++ crlf ++ (fieldText keyName (Bytes.ofText key) ++ crlf ++
        fieldText valueName value)) ⟨Verb.ofBytes? verb, some key, some value⟩

/-- Nothing is read from an empty body. -/
theorem Reads.body_ne_nil {body : Bytes} {r : Request} (h : Reads body r) : body ≠ [] := by
  cases h <;> simp [header]

/-- Parsing accepts exactly the messages of the grammar, and gives what they are read as. -/
theorem parse_eq_ok_iff {message : Bytes} {r : Request} :
    parse message = .ok r ↔ Reads (Bytes.dropEnding crlf message) r := by
  constructor
  · intro h
    revert h
    fun_cases parse message with
    | case3 body hbody line verb hverb hline =>
      rintro ⟨⟩
      obtain ⟨hbody, hfree⟩ := splitLine_eq_none_iff.1 hline
      obtain ⟨rfl, hne, hspace⟩ := readHeader_eq_ok_iff.1 hverb
      show Reads body _
      rw [hbody]
      exact .verb ⟨hne, hspace, mt crlf_infix_header.2 hfree⟩
    | case5 body hbody line verb hverb fields keyLine key hkey hline hfields =>
      rintro ⟨⟩
      obtain ⟨hbody, hfree⟩ := splitLine_eq_some_iff.1 hline
      obtain ⟨rfl, hne, hspace⟩ := readHeader_eq_ok_iff.1 hverb
      obtain ⟨rfl, hkeyFree⟩ := splitLine_eq_none_iff.1 hfields
      obtain rfl := readKey_eq_ok_iff.1 hkey
      show Reads body _
      rw [hbody]
      exact .key ⟨hne, hspace, mt crlf_infix_header.2 hfree⟩
        (mt (crlf_infix_fieldText isFieldName_keyName).2 hkeyFree)
    | case7 body hbody line verb hverb fields keyLine key hkey valueLine value hvalue hline
        hfields =>
      rintro ⟨⟩
      obtain ⟨hbody, hfree⟩ := splitLine_eq_some_iff.1 hline
      obtain ⟨rfl, hne, hspace⟩ := readHeader_eq_ok_iff.1 hverb
      obtain ⟨rfl, hkeyFree⟩ := splitLine_eq_some_iff.1 hfields
      obtain rfl := readKey_eq_ok_iff.1 hkey
      obtain rfl := (readField_eq_ok_iff isFieldName_valueName).1 hvalue
      show Reads body _
      rw [hbody]
      exact .value ⟨hne, hspace, mt crlf_infix_header.2 hfree⟩
        (mt (crlf_infix_fieldText isFieldName_keyName).2 hkeyFree)
    | _ => exact nofun
  · intro h
    have hbody := h.body_ne_nil
    unfold parse
    generalize Bytes.dropEnding crlf message = body at h hbody
    rw [if_neg hbody]
    -- The lines are cut where the grammar put them together, and each is read.
    have hheader : ∀ {verb}, IsVerbToken verb → readHeader (header verb) = .ok verb :=
      fun hverb => readHeader_eq_ok_iff.2 ⟨rfl, hverb.ne_nil, hverb.space_free⟩
    have hfree : ∀ {verb}, IsVerbToken verb → ¬ crlf <:+: header verb :=
      fun hverb => mt crlf_infix_header.1 hverb.line_free
    cases h with
    | verb hverb => simp only [splitLine_eq_none_iff.2 ⟨rfl, hfree hverb⟩, hheader hverb]
    | key hverb hkey =>
      have hkeyFree := mt (crlf_infix_fieldText isFieldName_keyName).1 hkey
      simp only [splitLine_eq_some_iff.2 ⟨rfl, hfree hverb⟩, hheader hverb,
        splitLine_eq_none_iff.2 ⟨rfl, hkeyFree⟩, readKey_eq_ok_iff.2 rfl]
    | value hverb hkey =>
      have hkeyFree := mt (crlf_infix_fieldText isFieldName_keyName).1 hkey
      simp only [splitLine_eq_some_iff.2 ⟨rfl, hfree hverb⟩, hheader hverb,
        splitLine_eq_some_iff.2 ⟨rfl, hkeyFree⟩, readKey_eq_ok_iff.2 rfl,
        (readField_eq_ok_iff isFieldName_valueName).2 rfl]

/-! ## What is written and read -/

/-- A key that was read holds no line end. -/
theorem Reads.key_line_free {body : Bytes} {r : Request} (h : Reads body r) :
    ∀ key ∈ r.key, ¬ crlf <:+: Bytes.ofText key := by
  cases h with
  | verb => simp
  | key _ hkey | value _ hkey =>
    rintro _ ⟨⟩
    exact hkey

/-- A value is read only behind a key. -/
theorem Reads.key_of_value {body : Bytes} {r : Request} (h : Reads body r) :
    r.value.isSome → r.key.isSome := by
  cases h <;> simp

/-- What is read begins with the token of the protocol. -/
theorem Reads.exists_eq_append {body : Bytes} {r : Request} (h : Reads body r) :
    ∃ rest, body = token ++ space :: rest := by
  cases h with
  | verb => exact ⟨_, rfl⟩
  | key | value => exact ⟨_, by simp [header]; rfl⟩

/-- A request with a verb, and a key that is one line in front of its value, is written as the
grammar has it. -/
theorem exists_reads_encode {v : Verb} {key : Option String} {value : Option Bytes}
    (hvalue : value.isSome → key.isSome) (hkey : ∀ k ∈ key, ¬ crlf <:+: Bytes.ofText k) :
    ∃ body, encode ⟨some v, key, value⟩ = body ++ crlf ∧ Reads body ⟨some v, key, value⟩ := by
  have hverb := isVerbToken_bytes v
  rw [← ofBytes?_bytes v]
  match key, value with
  | none, none => exact ⟨header v.bytes, by simp [encode, header, ofBytes?_bytes], .verb hverb⟩
  | none, some value => exact absurd (hvalue rfl) (by simp)
  | some key, none =>
    refine ⟨_, ?_, .key hverb (hkey key rfl)⟩
    simp [encode, header, fieldLine_eq, ofBytes?_bytes]
  | some key, some value =>
    refine ⟨_, ?_, .value hverb (hkey key rfl)⟩
    simp [encode, header, fieldLine_eq, ofBytes?_bytes]

/-- A request with a verb, whose value has a key in front of it and whose key is one line, is read
back as it was written. -/
theorem parse_encode {v : Verb} {key : Option String} {value : Option Bytes}
    (hvalue : value.isSome → key.isSome) (hkey : ∀ k ∈ key, ¬ crlf <:+: Bytes.ofText k) :
    parse (encode ⟨some v, key, value⟩) = .ok ⟨some v, key, value⟩ := by
  obtain ⟨body, hencode, hreads⟩ := exists_reads_encode (v := v) hvalue hkey
  rw [parse_eq_ok_iff, hencode, Bytes.dropEnding_append]
  exact hreads

/-- Without a verb the protocol token ends its line, so nothing that is read is written. -/
theorem not_reads_encode_of_verb_eq_none {r s : Request} (h : r.verb = none) :
    ¬ Reads (Bytes.dropEnding crlf r.encode) s := by
  intro hreads
  obtain ⟨rest, hrest⟩ := hreads.exists_eq_append
  have hencode : ∃ fields, r.encode = token ++ 13 :: fields := by
    simp [encode, h, crlf]
  obtain ⟨fields, hencode⟩ := hencode
  have hdrop := Bytes.eq_or_eq_append_dropEnding crlf r.encode
  rw [hrest, hencode] at hdrop
  simp [space] at hdrop

/-- Writing a request and reading it gives the request back exactly if it has a verb, its value
has a key in front of it, and no line end is in its key. -/
theorem parse_encode_eq_ok_iff (r : Request) :
    parse r.encode = .ok r ↔
      r.verb.isSome ∧ (r.value.isSome → r.key.isSome) ∧
        ∀ key ∈ r.key, ¬ crlf <:+: Bytes.ofText key := by
  constructor
  · intro h
    rw [parse_eq_ok_iff] at h
    refine ⟨?_, h.key_of_value, h.key_line_free⟩
    rw [Option.isSome_iff_ne_none]
    exact fun hverb => not_reads_encode_of_verb_eq_none hverb h
  · obtain ⟨verb, key, value⟩ := r
    rintro ⟨hverb, hvalue, hkey⟩
    obtain ⟨v, rfl⟩ := Option.isSome_iff_exists.1 hverb
    exact parse_encode hvalue hkey

/-! ## What was read and is written -/

/-- A token is read as no verb exactly if it spells none. -/
theorem ofBytes?_eq_none_iff {bs : Bytes} : Verb.ofBytes? bs = none ↔ ∀ v : Verb, bs ≠ v.bytes := by
  simp only [Option.eq_none_iff_forall_ne_some, ne_eq, Verb.ofBytes?_eq_some_iff]

/-- A request that was read with a verb is written as the message it was read from. -/
theorem Reads.encode_eq {body : Bytes} {r : Request} (h : Reads body r) (hverb : r.verb ≠ none) :
    r.encode = body ++ crlf := by
  have hspelt : ∀ {verb : Bytes} {key : Option String} {value : Option Bytes},
      Verb.ofBytes? verb ≠ none → encode ⟨Verb.ofBytes? verb, key, value⟩ =
        header verb ++ crlf ++ (key.map fun k => fieldLine keyName (Bytes.ofText k)).getD [] ++
          (value.map fun v => fieldLine valueName v).getD [] := by
    intro verb key value hne
    obtain ⟨v, hv⟩ := Option.ne_none_iff_exists'.1 hne
    obtain rfl := Verb.ofBytes?_eq_some_iff.1 hv
    simp [encode, header, hv]
  cases h with
  | verb => simp [hspelt hverb]
  | key => simp [hspelt hverb, fieldLine_eq]
  | value => simp [hspelt hverb, fieldLine_eq]

/-- What was read with a verb is written as it came, with a line end behind it, so it came from no
other message. What was read without one has a token for a verb that spells none, and its fields
are the parts of the message behind that token. -/
theorem encode_of_parse_eq_ok {message : Bytes} {r : Request} (h : parse message = .ok r) :
    (r.verb ≠ none →
      r.encode = (if crlf <:+ message then message else message ++ crlf) ∧
        ∀ other, parse other = .ok r →
          Bytes.dropEnding crlf other = Bytes.dropEnding crlf message) ∧
    (r.verb = none →
      ∃ verb, IsVerbToken verb ∧ (∀ v : Verb, verb ≠ v.bytes) ∧
        let body := Bytes.dropEnding crlf message
        body = header verb ∧ r.key = none ∧ r.value = none ∨
          (∃ key, ¬ crlf <:+: Bytes.ofText key ∧
            body = header verb ++ crlf ++ fieldText keyName (Bytes.ofText key) ∧
            r.key = some key ∧ r.value = none) ∨
          ∃ key value, ¬ crlf <:+: Bytes.ofText key ∧
            body = header verb ++ crlf ++ fieldText keyName (Bytes.ofText key) ++ crlf ++
              fieldText valueName value ∧
            r.key = some key ∧ r.value = some value) := by
  have hreads := parse_eq_ok_iff.1 h
  constructor
  · intro hverb
    refine ⟨?_, fun other hother => ?_⟩
    · rw [hreads.encode_eq hverb, Bytes.dropEnding_append_ending]
    · have hsame := (parse_eq_ok_iff.1 hother).encode_eq hverb
      rw [hreads.encode_eq hverb] at hsame
      exact (List.append_cancel_right hsame).symm
  · intro hverb
    generalize Bytes.dropEnding crlf message = body at hreads
    cases hreads with
    | verb htoken => exact ⟨_, htoken, ofBytes?_eq_none_iff.1 hverb, .inl ⟨rfl, rfl, rfl⟩⟩
    | key htoken hkey =>
      exact ⟨_, htoken, ofBytes?_eq_none_iff.1 hverb, .inr (.inl ⟨_, hkey, rfl, rfl, rfl⟩)⟩
    | value htoken hkey =>
      refine ⟨_, htoken, ofBytes?_eq_none_iff.1 hverb, .inr (.inr ⟨_, _, hkey, ?_, rfl, rfl⟩)⟩
      simp

/-- A value of two lines without a line end behind it, and a verb outside the catalogue. -/
theorem encode_of_parse_two_lines :
    let known := Bytes.ofText "RCSP/1.0 SET\r\nKEY: k\r\nVALUE: a\r\nb"
    let unknown := Bytes.ofText "RCSP/1.0 FLUSH\r\nKEY: k\r\n"
    let r : Request := ⟨some .set, some "k", some (Bytes.ofText "a\r\nb")⟩
    parse known = .ok r ∧ r.verb ≠ none ∧ r.encode = known ++ crlf ∧
      parse (known ++ crlf) = .ok r ∧
      Bytes.dropEnding crlf (known ++ crlf) = Bytes.dropEnding crlf known ∧
      parse unknown = .ok ⟨none, some "k", none⟩ ∧
      ∃ verb, IsVerbToken verb ∧ (∀ v : Verb, verb ≠ v.bytes) ∧
        Bytes.dropEnding crlf unknown =
          header verb ++ crlf ++ fieldText keyName (Bytes.ofText "k") := by
  intro known unknown r
  have hknown : parse known = .ok r := by decide
  have hended : parse (known ++ crlf) = .ok r := by decide
  have hverb : r.verb ≠ none := by decide
  have hunknown : parse unknown = .ok ⟨none, some "k", none⟩ := by decide
  obtain ⟨hencode, hsame⟩ := (encode_of_parse_eq_ok hknown).1 hverb
  rw [if_neg (by decide)] at hencode
  refine ⟨hknown, hverb, hencode, hended, hsame _ hended, hunknown, ?_⟩
  obtain ⟨verb, htoken, hspells, hbody⟩ := (encode_of_parse_eq_ok hunknown).2 rfl
  refine ⟨verb, htoken, hspells, ?_⟩
  rcases hbody with ⟨-, hkey, -⟩ | ⟨key, -, hbody, hkey, -⟩ | ⟨key, value, -, -, -, hvalue⟩
  · cases hkey
  · cases hkey
    exact hbody
  · cases hvalue

end CacheServer.Protocol.Request
