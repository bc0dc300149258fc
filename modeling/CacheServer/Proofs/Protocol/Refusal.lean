import CacheServer.Proofs.Protocol.Request

/-!
# Why messages are refused

`Request.Refuses` lists the causes for which a message is no request, from the front of the message
to its end: a cause counts only if everything in front of it is in order. `parse_eq_error_iff` says
that parsing fails exactly for these causes and with the error of the cause. The verb is no cause:
what stands behind the verb token is read apart from it (`exists_parse_eq_map`), so a token that
names no verb takes nothing from the fields.
-/

namespace CacheServer.Protocol.Request

open Bytes (crlf)

/-! ## The causes -/

/-- What can be wrong with the header. -/
inductive RefusesHeader (line : Bytes) : ProtocolError → Prop
  /-- What stands before the first space is not the protocol token. -/
  | protocol : line.takeWhile (· ≠ space) ≠ token → RefusesHeader line .unknownProtocol
  /-- There is no verb token behind the protocol token, or more than that. -/
  | shape : line.takeWhile (· ≠ space) = token →
      (∀ verb, verb ≠ [] → space ∉ verb → line ≠ header verb) →
      RefusesHeader line .malformedRequest

/-- What can be wrong with a field that must have a name. -/
inductive RefusesField (name : Bytes) (invalid : ProtocolError) (line : Bytes) :
    ProtocolError → Prop
  | unseparated : ¬ fieldSeparator <:+: line → RefusesField name invalid line invalid
  | misnamed {other value : Bytes} : line = fieldText other value →
      ¬ fieldSeparator <:+: other → other ≠ name → RefusesField name invalid line .malformedRequest

/-- What can be wrong with the key line. -/
inductive RefusesKey (line : Bytes) : ProtocolError → Prop
  | field {e : ProtocolError} : RefusesField keyName .invalidKey line e → RefusesKey line e
  /-- The key is no text. -/
  | text {bytes : Bytes} : line = fieldText keyName bytes → (∀ key, bytes ≠ Bytes.ofText key) →
      RefusesKey line .invalidKey

/-- What can be wrong behind the header: with the key line, or behind a key line with the value,
which runs to the end. -/
inductive RefusesFields (fields : Bytes) : ProtocolError → Prop
  | key {line : Bytes} {e : ProtocolError} : IsFirstLine line fields → RefusesKey line e →
      RefusesFields fields e
  | value {key : String} {rest : Bytes} {e : ProtocolError} : ¬ crlf <:+: Bytes.ofText key →
      fields = fieldText keyName (Bytes.ofText key) ++ crlf ++ rest →
      RefusesField valueName .invalidValue rest e → RefusesFields fields e

/-- Why a message, less an optional line end behind it, is refused. -/
inductive Refuses (body : Bytes) : ProtocolError → Prop
  | empty : body = [] → Refuses body .malformedRequest
  | header {line : Bytes} {e : ProtocolError} : body ≠ [] → IsFirstLine line body →
      RefusesHeader line e → Refuses body e
  | fields {verb fields : Bytes} {e : ProtocolError} : IsVerbToken verb →
      body = Request.header verb ++ crlf ++ fields → RefusesFields fields e → Refuses body e

/-- A refused field of a request is never a malformed response. -/
theorem RefusesField.ne_malformedResponse {name line : Bytes} {invalid e : ProtocolError}
    (h : RefusesField name invalid line e) (hinvalid : invalid ≠ .malformedResponse) :
    e ≠ .malformedResponse := by
  cases h with
  | unseparated => exact hinvalid
  | misnamed => exact nofun

/-- No cause is one against a response. -/
theorem Refuses.ne_malformedResponse {body : Bytes} {e : ProtocolError} (h : Refuses body e) :
    e ≠ .malformedResponse := by
  cases h with
  | empty => exact nofun
  | header _ _ hheader => cases hheader <;> exact nofun
  | fields _ _ hfields =>
    cases hfields with
    | key _ hkey =>
      cases hkey with
      | field hfield => exact hfield.ne_malformedResponse nofun
      | text => exact nofun
    | value _ _ hvalue => exact hvalue.ne_malformedResponse nofun

/-! ## Each part is refused for its causes -/

/-- A header line with another token in front is of an unknown protocol. -/
theorem readHeader_of_takeWhile_ne {line : Bytes} (h : line.takeWhile (· ≠ space) ≠ token) :
    readHeader line = .error .unknownProtocol := by
  obtain ⟨others, hcut⟩ := Bytes.exists_splitAt_eq_cons space line
  unfold readHeader
  rw [hcut]
  exact if_pos h

/-- Behind the protocol token a header can be malformed in one way only. -/
theorem readHeader_of_takeWhile_eq {line : Bytes} (h : line.takeWhile (· ≠ space) = token) :
    readHeader line = .error .malformedRequest ∨ ∃ verb, readHeader line = .ok verb := by
  obtain ⟨others, hcut⟩ := Bytes.exists_splitAt_eq_cons space line
  unfold readHeader
  rw [hcut]
  simp only [h, ne_eq, not_true_eq_false, if_false]
  split
  · split
    · exact .inl rfl
    · exact .inr ⟨_, rfl⟩
  · exact .inl rfl

/-- A line is no written header exactly if no verb is read from it. -/
theorem forall_ne_header_iff {line : Bytes} :
    (∀ verb, verb ≠ [] → space ∉ verb → line ≠ header verb) ↔
      ∀ verb, readHeader line ≠ .ok verb := by
  refine forall_congr' fun verb => ?_
  rw [ne_eq (readHeader line), readHeader_eq_ok_iff]
  tauto

/-- A header line is refused with the error that `RefusesHeader` names. -/
theorem readHeader_eq_error_iff {line : Bytes} {e : ProtocolError} :
    readHeader line = .error e ↔ RefusesHeader line e := by
  constructor
  · intro h
    by_cases hfirst : line.takeWhile (· ≠ space) = token
    · rcases readHeader_of_takeWhile_eq hfirst with hmalformed | ⟨verb, hverb⟩
      · obtain rfl := Except.error.inj (h.symm.trans hmalformed)
        exact .shape hfirst (forall_ne_header_iff.2 fun verb hverb => nomatch h.symm.trans hverb)
      · cases h.symm.trans hverb
    · obtain rfl := Except.error.inj (h.symm.trans (readHeader_of_takeWhile_ne hfirst))
      exact .protocol hfirst
  · intro h
    cases h with
    | protocol hfirst => exact readHeader_of_takeWhile_ne hfirst
    | shape hfirst hnone =>
      rcases readHeader_of_takeWhile_eq hfirst with hmalformed | ⟨verb, hverb⟩
      · exact hmalformed
      · exact absurd hverb (forall_ne_header_iff.1 hnone verb)

/-- A field line is refused with the error that `RefusesField` names. -/
theorem readField_eq_error_iff {name line : Bytes} {invalid e : ProtocolError} :
    readField name invalid line = .error e ↔ RefusesField name invalid line e := by
  constructor
  · fun_cases readField name invalid line with
    | case1 hsplit =>
      rintro ⟨⟩
      exact .unseparated (splitField?_eq_none_iff.1 hsplit)
    | case2 => rintro ⟨⟩
    | case3 other value hsplit hother =>
      rintro ⟨⟩
      obtain ⟨hline, hfree⟩ := splitField?_eq_some_iff_name_free.1 hsplit
      exact .misnamed hline hfree hother
  · intro h
    unfold readField
    cases h with
    | unseparated hnone => rw [splitField?_eq_none_iff.2 hnone]
    | misnamed hline hfree hother =>
      rw [splitField?_eq_some_iff_name_free.2 ⟨hline, hfree⟩]
      exact if_neg hother

/-- A key line is refused with the error that `RefusesKey` names. -/
theorem readKey_eq_error_iff {line : Bytes} {e : ProtocolError} :
    readKey line = .error e ↔ RefusesKey line e := by
  constructor
  · fun_cases readKey line with
    | case1 e' hfield =>
      rintro ⟨⟩
      exact .field (readField_eq_error_iff.1 hfield)
    | case2 => rintro ⟨⟩
    | case3 bytes hfield hdecode =>
      rintro ⟨⟩
      refine .text ((readField_eq_ok_iff isFieldName_keyName).1 hfield) fun key hkey => ?_
      rw [hkey, Text.decode?_ofText] at hdecode
      cases hdecode
  · intro h
    unfold readKey
    cases h with
    | field hfield => rw [readField_eq_error_iff.2 hfield]
    | text hline hnone =>
      have hdecode : ∀ {bytes}, (∀ key, bytes ≠ Bytes.ofText key) → Text.decode? bytes = none :=
        fun h => Option.eq_none_iff_forall_ne_some.2 fun key hkey =>
          h key (Text.decode?_eq_some_iff.1 hkey)
      rw [(readField_eq_ok_iff isFieldName_keyName).2 hline]
      simp only [hdecode hnone]

/-! ## The fields, apart from the verb -/

/-- The key and the value in what stands behind the header. -/
def readFields : Option Bytes → Except ProtocolError (Option String × Option Bytes)
  | none => .ok (none, none)
  | some fields =>
    match readKey (splitLine fields).1 with
    | .error e => .error e
    | .ok key =>
      match (splitLine fields).2 with
      | none => .ok (some key, none)
      | some rest =>
        match readField valueName .invalidValue rest with
        | .error e => .error e
        | .ok value => .ok (some key, some value)

/-- A message with a header is a request if its fields can be read, whatever the verb. -/
theorem parse_eq_map_readFields {message header verb : Bytes} {fields : Option Bytes}
    (hbody : Bytes.dropEnding crlf message ≠ [])
    (hline : splitLine (Bytes.dropEnding crlf message) = (header, fields))
    (hverb : readHeader header = .ok verb) :
    parse message =
      (readFields fields).map fun found => ⟨Verb.ofBytes? verb, found.1, found.2⟩ := by
  unfold parse readFields
  simp only [if_neg hbody, hline, hverb]
  cases fields with
  | none => rfl
  | some fields =>
    cases hkey : readKey (splitLine fields).1 with
    | error e => simp only [hkey, Except.map]
    | ok key =>
      cases hrest : (splitLine fields).2 with
      | none => simp only [hkey, hrest, Except.map]
      | some rest =>
        simp only [hkey, hrest]
        cases readField valueName .invalidValue rest <;> rfl

/-- The lines behind the header are refused with the error that `RefusesFields` names. -/
theorem readFields_eq_error_iff {fields : Bytes} {e : ProtocolError} :
    readFields (some fields) = .error e ↔ RefusesFields fields e := by
  rcases hsplit : splitLine fields with ⟨line, rest⟩
  have hfirst : IsFirstLine line fields := isFirstLine_iff.2 (by rw [hsplit])
  constructor
  · intro h
    simp only [readFields, hsplit] at h
    cases hkey : readKey line with
    | error e' =>
      simp only [hkey] at h
      cases h
      exact .key hfirst (readKey_eq_error_iff.1 hkey)
    | ok key =>
      simp only [hkey] at h
      cases rest with
      | none => cases h
      | some rest =>
        cases hvalue : readField valueName .invalidValue rest with
        | ok value => simp only [hvalue, reduceCtorEq] at h
        | error e' =>
          simp only [hvalue] at h
          cases h
          obtain ⟨rfl, hfree⟩ := splitLine_eq_some_iff.1 hsplit
          obtain rfl := readKey_eq_ok_iff.1 hkey
          exact .value (mt (crlf_infix_fieldText isFieldName_keyName).2 hfree) rfl
            (readField_eq_error_iff.1 hvalue)
  · intro h
    unfold readFields
    cases h with
    | key hline hkey => simp only [isFirstLine_iff.1 hline, readKey_eq_error_iff.2 hkey]
    | value hfree hfields hvalue =>
      have hline := splitLine_eq_some_iff.2
        ⟨hfields, mt (crlf_infix_fieldText isFieldName_keyName).1 hfree⟩
      simp only [hline, readKey_eq_ok_iff.2 rfl, readField_eq_error_iff.2 hvalue]

/-! ## The whole message -/

/-- What is done with a result leaves the failures as they are. -/
theorem map_eq_error_iff {α β : Type} {x : Except ProtocolError α} {f : α → β}
    {e : ProtocolError} : x.map f = .error e ↔ x = .error e := by
  cases x <;> simp [Except.map]

/-- Parsing fails exactly for the causes that are listed, with the error of the cause. -/
theorem parse_eq_error_iff {message : Bytes} {e : ProtocolError} :
    parse message = .error e ↔ Refuses (Bytes.dropEnding crlf message) e := by
  constructor
  · intro h
    by_cases hbody : Bytes.dropEnding crlf message = []
    · rw [parse, if_pos hbody] at h
      cases h
      exact .empty hbody
    · rcases hsplit : splitLine (Bytes.dropEnding crlf message) with ⟨line, fields⟩
      cases hheader : readHeader line with
      | error e' =>
        have hparse : parse message = .error e' := by
          simp only [parse, if_neg hbody, hsplit, hheader]
        obtain rfl := Except.error.inj (h.symm.trans hparse)
        exact .header hbody (isFirstLine_iff.2 (by rw [hsplit])) (readHeader_eq_error_iff.1 hheader)
      | ok verb =>
        rw [parse_eq_map_readFields hbody hsplit hheader, map_eq_error_iff] at h
        cases fields with
        | none => cases h
        | some fields =>
          obtain ⟨hjoined, hfree⟩ := splitLine_eq_some_iff.1 hsplit
          obtain ⟨rfl, hne, hspace⟩ := readHeader_eq_ok_iff.1 hheader
          exact .fields ⟨hne, hspace, mt crlf_infix_header.2 hfree⟩ hjoined
            (readFields_eq_error_iff.1 h)
  · intro h
    cases h with
    | empty hbody => rw [parse, if_pos hbody]
    | header hbody hline hheader =>
      rcases hsplit : splitLine (Bytes.dropEnding crlf message) with ⟨line, fields⟩
      rw [isFirstLine_iff, hsplit] at hline
      subst hline
      simp only [parse, if_neg hbody, hsplit, readHeader_eq_error_iff.2 hheader]
    | @fields verb fields _ hverb hbody hfields =>
      have hsplit := splitLine_eq_some_iff.2 ⟨hbody, mt crlf_infix_header.1 hverb.line_free⟩
      have hne : Bytes.dropEnding crlf message ≠ [] := by rw [hbody]; simp [header]
      rw [parse_eq_map_readFields hne hsplit
        (readHeader_eq_ok_iff.2 ⟨rfl, hverb.ne_nil, hverb.space_free⟩), map_eq_error_iff]
      exact readFields_eq_error_iff.2 hfields

/-- What follows a verb token is cut off and read without it. -/
theorem exists_parse_eq_map {rest : Bytes} (hrest : rest = [] ∨ crlf <+: rest) :
    ∃ fields, ∀ verb, IsVerbToken verb → parse (header verb ++ rest) =
      (readFields fields).map fun found => ⟨Verb.ofBytes? verb, found.1, found.2⟩ := by
  have halone : ∀ verb, IsVerbToken verb → splitLine (header verb) = (header verb, none) :=
    fun verb hverb => splitLine_eq_none_iff.2 ⟨rfl, mt crlf_infix_header.1 hverb.line_free⟩
  have hcut : ∃ fields, ∀ verb, IsVerbToken verb →
      splitLine (Bytes.dropEnding crlf (header verb ++ rest)) = (header verb, fields) := by
    rcases hrest with rfl | ⟨fields, rfl⟩
    · refine ⟨none, fun verb hverb => ?_⟩
      have hnot : ¬ crlf <:+ header verb := fun hsuffix =>
        hverb.line_free (crlf_infix_header.1 hsuffix.isInfix)
      rw [List.append_nil, Bytes.dropEnding_of_not_suffix hnot, halone verb hverb]
    · -- Whether a line end is left off behind the message is decided behind the verb token.
      have hlength : crlf.length ≤ (crlf ++ fields).length := by simp
      rcases Bytes.dropEnding_crlf_append fields with hnil | ⟨left, hleft⟩
      · refine ⟨none, fun verb hverb => ?_⟩
        rw [Bytes.dropEnding_append_of_length_le _ hlength, hnil, List.append_nil,
          halone verb hverb]
      · refine ⟨some left, fun verb hverb => splitLine_eq_some_iff.2 ⟨?_, ?_⟩⟩
        · rw [Bytes.dropEnding_append_of_length_le _ hlength, hleft, List.append_assoc]
        · exact mt crlf_infix_header.1 hverb.line_free
  obtain ⟨fields, hcut⟩ := hcut
  refine ⟨fields, fun verb hverb => parse_eq_map_readFields ?_ (hcut verb hverb)
    (readHeader_eq_ok_iff.2 ⟨rfl, hverb.ne_nil, hverb.space_free⟩)⟩
  intro hnil
  have hheader := hcut verb hverb
  rw [hnil] at hheader
  have hempty : [] = header verb := congrArg Prod.fst hheader
  simp [header] at hempty

/-- A message is refused exactly for the causes that are listed, and is a request if there is none.
None of them is a cause against a response, and with another token for a verb the message is
refused for the same cause or read with the same fields. -/
theorem parse_outcome (message : Bytes) :
    (∀ e, parse message = .error e ↔ Refuses (Bytes.dropEnding crlf message) e) ∧
      ((∃ r, parse message = .ok r) ↔ ∀ e, ¬ Refuses (Bytes.dropEnding crlf message) e) ∧
      parse message ≠ .error .malformedResponse ∧
      ∀ verb other rest, message = header verb ++ rest → IsVerbToken verb → IsVerbToken other →
        (rest = [] ∨ crlf <+: rest) →
        (parse message).map (fun r => (r.key, r.value)) =
          (parse (header other ++ rest)).map (fun r => (r.key, r.value)) := by
  refine ⟨fun e => parse_eq_error_iff, ?_, ?_, ?_⟩
  · simp only [← parse_eq_error_iff]
    cases parse message <;> simp
  · exact fun h => (parse_eq_error_iff.1 h).ne_malformedResponse rfl
  · rintro verb other rest rfl hverb hother hrest
    obtain ⟨fields, hparse⟩ := exists_parse_eq_map hrest
    rw [hparse verb hverb, hparse other hother]
    cases readFields fields <;> rfl

/-- A separator that stands only behind a line end of the value still ends its name. -/
theorem parse_outcome_late_separator :
    let rest := Bytes.ofText "\r\nKEY: k\r\nVALUE\r\n: a"
    let unknown := header (Bytes.ofText "FLUSH") ++ rest
    IsVerbToken (Bytes.ofText "FLUSH") ∧ IsVerbToken Verb.set.bytes ∧ crlf <+: rest ∧
      Refuses (Bytes.dropEnding crlf unknown) .malformedRequest ∧
      (parse unknown).map (fun r => (r.key, r.value)) =
        (parse (header Verb.set.bytes ++ rest)).map (fun r => (r.key, r.value)) := by
  intro rest unknown
  have hunknown : IsVerbToken (Bytes.ofText "FLUSH") := ⟨by decide, by decide, by decide⟩
  have hrest : crlf <+: rest := by decide
  have hparse : parse unknown = .error .malformedRequest := by decide
  obtain ⟨hcauses, -, -, hverb⟩ := parse_outcome unknown
  exact ⟨hunknown, isVerbToken_bytes .set, hrest, (hcauses _).1 hparse,
    hverb _ _ rest rfl hunknown (isVerbToken_bytes .set) (.inr hrest)⟩

end CacheServer.Protocol.Request
