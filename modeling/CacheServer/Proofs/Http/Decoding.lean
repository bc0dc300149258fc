import CacheServer.Proofs.Http.Percent
import CacheServer.Proofs.Text.Lossy

/-!
# What a percent-encoded segment stands for

`Replaces` scans a segment from left to right: each escape is replaced by its byte, and every other
byte is kept, a percent sign that begins no escape included. With two hexadecimal digits for an
escape this is what an escape should be. The decoder takes a plus sign for the first of the two
digits as well (`replaces_unescape`), and `decode_eq_scanned_iff` says that this is all that keeps
it from reading every segment as it should.

An escaped character is read by itself, whatever stands on its two sides (`decode_append_escapes`).
However a text is percent-encoded, the segment is decoded to it (`decode_of_encodes`).
-/

namespace CacheServer.Http.Percent

open Json (HexDigit)

/-! ## Escapes -/

/-- The two bytes behind a percent sign in an escape, with the byte that they stand for. -/
inductive Escape : UInt8 → UInt8 → UInt8 → Prop
  | mk {high low : Nat} {first second : UInt8} : HexDigit high first → HexDigit low second →
      Escape first second (UInt8.ofNat (16 * high + low))

/-- The same with a plus sign allowed in the place of a first digit that is zero. -/
inductive SignedEscape : UInt8 → UInt8 → UInt8 → Prop
  | digits {first second b : UInt8} : Escape first second b → SignedEscape first second b
  | sign {low : Nat} {second : UInt8} : HexDigit low second →
      SignedEscape 0x2B second (UInt8.ofNat low)

/-- A byte is read as a digit if it is one, of either case. -/
theorem digit?_eq_some_iff {d : Nat} {b : UInt8} : digit? b = some d ↔ HexDigit d b := by
  refine ⟨fun h => Json.hexDigit_of_toNat ?_, digit?_of_hexDigit⟩
  have hchar : (Char.ofNat b.toNat).toNat = b.toNat := by
    rw [Char.ofNat, dif_pos (.inl (by have := b.toNat_lt; omega))]
    rfl
  unfold digit? Text.hexDigit? at h
  simp only [Bool.and_eq_true, decide_eq_true_eq, Char.le_def, UInt32.le_iff_toNat_le,
    Char.toNat_val, hchar, Char.reduceToNat] at h
  split_ifs at h <;> cases h <;> omega

/-- Two bytes are read as an escape if they are two digits, or a plus sign and a digit. -/
theorem escaped?_eq_some_iff {first second b : UInt8} :
    escaped? first second = some b ↔ SignedEscape first second b := by
  constructor
  · intro h
    unfold escaped? at h
    split at h
    · next high low hhigh hlow =>
      cases h
      have hlow := digit?_eq_some_iff.1 hlow
      split_ifs at hhigh with hsign
      · cases hhigh
        rw [hsign, Nat.mul_zero, Nat.zero_add]
        exact .sign hlow
      · exact .digits ⟨digit?_eq_some_iff.1 hhigh, hlow⟩
    · cases h
  · rintro (⟨⟨hhigh, hlow⟩⟩ | hlow)
    · exact escaped?_of_hexDigit hhigh hlow
    · simp [escaped?, digit?_of_hexDigit hlow]

/-- Two bytes stand for one byte at most. -/
theorem SignedEscape.unique {first second b c : UInt8} (h : SignedEscape first second b)
    (h' : SignedEscape first second c) : b = c :=
  Option.some.inj ((escaped?_eq_some_iff.2 h).symm.trans (escaped?_eq_some_iff.2 h'))

/-- No escape has a percent sign in it. -/
theorem SignedEscape.ne_percent {first second b : UInt8} (h : SignedEscape first second b) :
    first ≠ 0x25 ∧ second ≠ 0x25 := by
  have hdigit : ∀ {d : Nat} {b : UInt8}, HexDigit d b → b ≠ 0x25 := by
    rintro d _ h rfl
    have hnone : digit? 0x25 = none := by decide
    exact Option.some_ne_none d ((digit?_of_hexDigit h).symm.trans hnone)
  cases h with
  | digits h =>
    cases h with
    | mk hfirst hsecond => exact ⟨hdigit hfirst, hdigit hsecond⟩
  | sign hsecond => exact ⟨by decide, hdigit hsecond⟩

/-! ## Scanning -/

/-- Whether a percent sign in front of these bytes begins an escape. -/
def Begins (IsEscape : UInt8 → UInt8 → UInt8 → Prop) : Bytes → Prop
  | first :: second :: _ => ∃ b, IsEscape first second b
  | _ => False

/-- Scans a segment from left to right: an escape is replaced by its byte, and any other byte is
kept. -/
inductive Replaces (IsEscape : UInt8 → UInt8 → UInt8 → Prop) : Bytes → Bytes → Prop
  | nil : Replaces IsEscape [] []
  | escape {first second b : UInt8} {segment bytes : Bytes} :
      IsEscape first second b → Replaces IsEscape segment bytes →
      Replaces IsEscape (0x25 :: first :: second :: segment) (b :: bytes)
  | kept {b : UInt8} {segment bytes : Bytes} :
      ¬ (b = 0x25 ∧ Begins IsEscape segment) → Replaces IsEscape segment bytes →
      Replaces IsEscape (b :: segment) (b :: bytes)

/-- Every segment can be scanned. -/
theorem exists_replaces (IsEscape : UInt8 → UInt8 → UInt8 → Prop) (segment : Bytes) :
    ∃ bytes, Replaces IsEscape segment bytes := by
  induction hn : segment.length using Nat.strongRecOn generalizing segment with
  | ind n ih =>
    cases segment with
    | nil => exact ⟨[], .nil⟩
    | cons b segment =>
      by_cases hbegins : b = 0x25 ∧ Begins IsEscape segment
      · obtain ⟨rfl, hbegins⟩ := hbegins
        match segment, hbegins with
        | first :: second :: rest, ⟨c, hescape⟩ =>
          obtain ⟨bytes, hbytes⟩ := ih rest.length (by simp [← hn]; omega) rest rfl
          exact ⟨c :: bytes, .escape hescape hbytes⟩
      · obtain ⟨bytes, hbytes⟩ := ih segment.length (by simp [← hn]) segment rfl
        exact ⟨b :: bytes, .kept hbegins hbytes⟩

/-- There is one way to scan a segment if an escape stands for one byte. -/
theorem Replaces.unique {IsEscape : UInt8 → UInt8 → UInt8 → Prop} {segment bytes bytes' : Bytes}
    (h : Replaces IsEscape segment bytes) (h' : Replaces IsEscape segment bytes')
    (hunique : ∀ {first second b c}, IsEscape first second b → IsEscape first second c → b = c) :
    bytes' = bytes := by
  induction h generalizing bytes' with
  | nil => cases h'; rfl
  | escape hescape _ ih =>
    cases h' with
    | escape hescape' h' => rw [ih h', hunique hescape hescape']
    | kept hkept => exact absurd ⟨rfl, _, hescape⟩ hkept
  | kept hkept _ ih =>
    cases h' with
    | escape hescape => exact absurd ⟨rfl, _, hescape⟩ hkept
    | kept _ h' => rw [ih h']

/-- What the decoder makes of a segment, behind what it has decoded before. -/
theorem exists_unescape_eq (done segment : Bytes) : ∃ bytes, Replaces SignedEscape segment bytes ∧
    unescape done segment = done.reverse ++ bytes := by
  fun_induction unescape done segment with
  | case1 done first second rest b hescape ih =>
    obtain ⟨bytes, hbytes, heq⟩ := ih
    refine ⟨b :: bytes, .escape (escaped?_eq_some_iff.1 hescape) hbytes, ?_⟩
    rw [heq, List.reverse_cons, List.append_assoc, List.singleton_append]
  | case2 done first second rest hescape ih =>
    obtain ⟨bytes, hbytes, heq⟩ := ih
    refine ⟨0x25 :: bytes, .kept ?_ hbytes, ?_⟩
    · rintro ⟨-, b, hb⟩
      rw [escaped?_eq_some_iff.2 hb] at hescape
      cases hescape
    · rw [heq, List.reverse_cons, List.append_assoc, List.singleton_append]
  | case3 done b rest hother ih =>
    obtain ⟨bytes, hbytes, heq⟩ := ih
    refine ⟨b :: bytes, .kept ?_ hbytes, ?_⟩
    · rintro ⟨rfl, hbegins⟩
      match rest, hbegins with
      | first :: second :: rest, _ => exact hother first second rest rfl rfl
    · rw [heq, List.reverse_cons, List.append_assoc, List.singleton_append]
  | case4 done => exact ⟨[], .nil, (List.append_nil _).symm⟩

/-- The decoder takes a plus sign for a digit, and is otherwise a scan for escapes. -/
theorem replaces_unescape (segment : Bytes) :
    Replaces SignedEscape segment (unescape [] segment) := by
  obtain ⟨bytes, hbytes, heq⟩ := exists_unescape_eq [] segment
  rw [List.reverse_nil, List.nil_append] at heq
  rwa [heq]

/-- The bytes that a segment stands for are what unescaping makes of it. -/
theorem unescape_of_replaces {segment bytes : Bytes} (h : Replaces SignedEscape segment bytes) :
    unescape [] segment = bytes :=
  h.unique (replaces_unescape segment) SignedEscape.unique

/-! ## The plus sign -/

/-- Whether there is a percent sign with a plus sign and a hexadecimal digit behind it. -/
def HasSign (segment : Bytes) : Prop :=
  ∃ d b, HexDigit d b ∧ [0x25, 0x2B, b] <:+: segment

/-- A sign in an escape is at the front of a segment or behind it. -/
theorem hasSign_cons_iff {b : UInt8} {segment : Bytes} :
    HasSign (b :: segment) ↔
      (b = 0x25 ∧ ∃ d c rest, HexDigit d c ∧ segment = 0x2B :: c :: rest) ∨ HasSign segment := by
  unfold HasSign
  constructor
  · rintro ⟨d, c, hdigit, hinfix⟩
    rcases List.infix_cons_iff.1 hinfix with ⟨rest, hrest⟩ | hinfix
    · cases hrest
      exact .inl ⟨rfl, d, c, rest, hdigit, rfl⟩
    · exact .inr ⟨d, c, hdigit, hinfix⟩
  · rintro (⟨rfl, d, c, rest, hdigit, rfl⟩ | ⟨d, c, hdigit, hinfix⟩)
    · exact ⟨d, c, hdigit, [], rest, rfl⟩
    · exact ⟨d, c, hdigit, hinfix.trans (List.suffix_cons _ _).isInfix⟩

/-- A sign in an escape is not lost by a byte in front. -/
theorem HasSign.cons {segment : Bytes} (h : HasSign segment) (b : UInt8) : HasSign (b :: segment) :=
  hasSign_cons_iff.2 (.inr h)

/-- Behind a byte that begins no escape, the sign is in the rest. -/
theorem hasSign_cons_of_ne {b : UInt8} {segment : Bytes} (hb : b ≠ 0x25)
    (h : HasSign (b :: segment)) : HasSign segment :=
  (hasSign_cons_iff.1 h).resolve_left fun hsign => hb hsign.1

/-- Two digits stand for one byte. -/
theorem Escape.unique {first second b c : UInt8} (h : Escape first second b)
    (h' : Escape first second c) : b = c :=
  (SignedEscape.digits h).unique (.digits h')

/-- No escape of two digits begins with a plus sign. -/
theorem Escape.ne_plus {first second b : UInt8} (h : Escape first second b) : first ≠ 0x2B := by
  rintro rfl
  cases h with
  | mk hfirst => exact not_mem_of_hexDigit hfirst (by decide)

/-- Without a sign, no plus sign is taken for a digit. -/
theorem Replaces.signed {segment bytes : Bytes} (h : Replaces Escape segment bytes)
    (hsign : ¬ HasSign segment) : Replaces SignedEscape segment bytes := by
  induction h with
  | nil => exact .nil
  | escape hescape _ ih =>
    exact .escape (.digits hescape) (ih fun h => hsign (((h.cons _).cons _).cons _))
  | @kept b segment bytes hkept _ ih =>
    refine .kept ?_ (ih fun h => hsign (h.cons _))
    rintro ⟨rfl, hbegins⟩
    match segment, hbegins with
    | _ :: _ :: _, ⟨c, .digits hdigits⟩ => exact hkept ⟨rfl, c, hdigits⟩
    | _ :: _ :: _, ⟨_, .sign hlow⟩ =>
      exact hsign (hasSign_cons_iff.2 (.inl ⟨rfl, _, _, _, hlow, rfl⟩))

/-- Two byte strings that part at a percent sign in the one of them and a control character in the
other. -/
inductive PartsAtSign : Bytes → Bytes → Prop
  | here {low : Nat} {back back' : Bytes} : low < 16 →
      PartsAtSign (0x25 :: back) (UInt8.ofNat low :: back')
  | later {b : UInt8} {bytes bytes' : Bytes} : PartsAtSign bytes bytes' →
      PartsAtSign (b :: bytes) (b :: bytes')

/-- At the first sign in a segment, one scan keeps the percent sign and the other takes an escape
for it. -/
theorem Replaces.partsAtSign {segment bytes bytes' : Bytes} (h : Replaces Escape segment bytes)
    (h' : Replaces SignedEscape segment bytes') (hsign : HasSign segment) :
    PartsAtSign bytes bytes' := by
  induction h generalizing bytes' with
  | nil =>
    obtain ⟨_, _, _, hinfix⟩ := hsign
    exact absurd (List.infix_nil.1 hinfix) (List.cons_ne_nil _ _)
  | @escape first second b segment bytes hescape _ ih =>
    cases h' with
    | escape hescape' h' =>
      obtain ⟨hfirst, hsecond⟩ := hescape'.ne_percent
      have hbehind : HasSign (first :: second :: segment) := by
        refine (hasSign_cons_iff.1 hsign).resolve_left ?_
        rintro ⟨-, d, c, rest, -, heq⟩
        exact hescape.ne_plus (List.cons.inj heq).1
      have hrest := hasSign_cons_of_ne hsecond (hasSign_cons_of_ne hfirst hbehind)
      cases hescape' with
      | digits hdigits =>
        rw [hdigits.unique hescape]
        exact .later (ih h' hrest)
      | sign => exact absurd rfl hescape.ne_plus
    | kept hkept => exact absurd ⟨rfl, b, .digits hescape⟩ hkept
  | @kept b segment bytes hkept _ ih =>
    cases h' with
    | escape hescape' h' =>
      cases hescape' with
      | digits hdigits => exact absurd ⟨rfl, _, hdigits⟩ hkept
      | sign hlow => exact .here hlow.lt
    | kept hkept' h' =>
      refine .later (ih h' ((hasSign_cons_iff.1 hsign).resolve_left ?_))
      rintro ⟨rfl, d, c, rest, hdigit, rfl⟩
      exact hkept' ⟨rfl, _, .sign hdigit⟩

/-- Bytes that part at a sign are decoded to different texts. -/
theorem PartsAtSign.decodeLossy_ne {bytes bytes' : Bytes} (h : PartsAtSign bytes bytes') :
    Text.decodeLossy bytes ≠ Text.decodeLossy bytes' := by
  have hparts : ∃ front low back back', low < 16 ∧ bytes = front ++ 0x25 :: back ∧
      bytes' = front ++ UInt8.ofNat low :: back' := by
    induction h with
    | here hlow => exact ⟨[], _, _, _, hlow, rfl, rfl⟩
    | later _ ih =>
      obtain ⟨front, low, back, back', hlow, rfl, rfl⟩ := ih
      exact ⟨_ :: front, low, back, back', hlow, rfl, rfl⟩
  obtain ⟨front, low, back, back', hlow, rfl, rfl⟩ := hparts
  have hchar : (Char.ofNat low).toNat = low := by
    rw [Char.ofNat, dif_pos (.inl (by omega))]
    rfl
  have hne : '%' ≠ Char.ofNat low := by
    intro heq
    rw [← heq] at hchar
    exact absurd hchar.symm (Nat.ne_of_lt (Nat.lt_trans hlow (by decide)))
  have hread := Text.decodeLossy_append_cons_ne (by decide) (by omega) hne front back back'
  rwa [hchar] at hread

/-- A segment is decoded by a scan that takes a plus sign for a digit. It is decoded as it should be
exactly if there is no percent sign with a plus sign and a digit behind it. -/
theorem decode_eq_scanned_iff (segment : Bytes) :
    ∃ bytes signed, (∀ bytes', Replaces Escape segment bytes' ↔ bytes' = bytes) ∧
      (∀ bytes', Replaces SignedEscape segment bytes' ↔ bytes' = signed) ∧
      decode segment = Text.decodeLossy signed ∧
      (decode segment = Text.decodeLossy bytes ↔ ¬ HasSign segment) := by
  obtain ⟨bytes, hbytes⟩ := exists_replaces Escape segment
  have hsigned := replaces_unescape segment
  refine ⟨bytes, unescape [] segment, fun bytes' => ⟨fun h => ?_, fun h => h ▸ hbytes⟩,
    fun bytes' => ⟨fun h => (unescape_of_replaces h).symm, fun h => h ▸ hsigned⟩, rfl, ?_⟩
  · exact hbytes.unique h Escape.unique
  · constructor
    · intro hdecode hsign
      exact (hbytes.partsAtSign hsigned hsign).decodeLossy_ne hdecode.symm
    · intro hsign
      rw [decode, unescape_of_replaces (hbytes.signed hsign)]

/-- A percent sign with a plus sign behind it begins no escape, and is read as one. -/
theorem decode_plus_digit :
    let segment := Bytes.ofText "%+A"
    Replaces Escape segment segment ∧ decode segment = "\n" ∧
      decode segment ≠ Text.decodeLossy segment := by
  have hdecode : decode (Bytes.ofText "%+A") = "\n" := Text.decodeLossy_ofText "\n"
  refine ⟨.kept ?_ (.kept ?_ (.kept ?_ .nil)), hdecode, ?_⟩
  · rintro ⟨-, b, hescape⟩
    exact hescape.ne_plus rfl
  · exact fun h => absurd h.1 (by decide)
  · exact fun h => absurd h.1 (by decide)
  · rw [hdecode, Text.decodeLossy_ofText]
    decide

/-! ## Cutting a segment -/

/-- No escape reaches across a percent sign. -/
theorem Replaces.append {front back bytes bytes' : Bytes} (h : Replaces SignedEscape front bytes)
    (h' : Replaces SignedEscape (0x25 :: back) bytes') :
    Replaces SignedEscape (front ++ 0x25 :: back) (bytes ++ bytes') := by
  induction h with
  | nil => exact h'
  | escape hescape _ ih => exact .escape hescape ih
  | @kept b segment bytes hkept _ ih =>
    refine .kept ?_ ih
    rintro ⟨rfl, hbegins⟩
    match segment, hbegins with
    | [], hbegins =>
      cases back with
      | nil => exact hbegins
      | cons second back =>
        obtain ⟨c, hc⟩ := hbegins
        exact hc.ne_percent.1 rfl
    | [_], ⟨c, hc⟩ => exact hc.ne_percent.2 rfl
    | _ :: _ :: _, hbegins => exact hkept ⟨rfl, hbegins⟩

/-- An escaped ASCII character is part of what a segment stands for, and what stands on its two
sides is decoded apart. -/
theorem decode_append_escapes {c : Char} (hc : c.toNat < 128) {escape : Bytes}
    (h : Escapes (String.utf8EncodeChar c) escape) (front back : Bytes) :
    decode (front ++ escape ++ back) = decode front ++ String.singleton c ++ decode back := by
  rw [Text.utf8EncodeChar_of_lt hc] at h
  generalize hb : UInt8.ofNat c.toNat = b at h
  cases h with
  | cons hhigh hlow hnil =>
    cases hnil
    have hback := Replaces.escape (.digits ⟨hhigh, hlow⟩) (replaces_unescape back)
    have hall := (replaces_unescape front).append hback
    rw [List.append_assoc, decode, List.cons_append, List.cons_append, List.cons_append,
      List.nil_append, unescape_of_replaces hall, ← hb, Text.decodeLossy_append_cons hc]
    rfl

/-- Only the empty segment stands for the empty text. -/
theorem decode_eq_empty_iff {segment : Bytes} : decode segment = "" ↔ segment = [] := by
  rw [decode, Text.decodeLossy_eq_empty_iff]
  have h := replaces_unescape segment
  generalize unescape [] segment = bytes at h
  cases h with
  | nil => simp
  | escape | kept => exact iff_of_false (List.cons_ne_nil _ _) (List.cons_ne_nil _ _)

/-! ## Reading what was encoded -/

/-- The ways to percent-encode a text: each of its characters stands for itself, unless it is a
percent sign, or has an escape for each of its bytes. -/
inductive Encodes : List Char → Bytes → Prop
  | nil : Encodes [] []
  | itself {c : Char} {cs : List Char} {segment : Bytes} : c ≠ '%' → Encodes cs segment →
      Encodes (c :: cs) (String.utf8EncodeChar c ++ segment)
  | escaped {c : Char} {cs : List Char} {escapes segment : Bytes} :
      Escapes (String.utf8EncodeChar c) escapes → Encodes cs segment →
      Encodes (c :: cs) (escapes ++ segment)

/-- Bytes other than percent signs are kept. -/
theorem unescape_append {bytes : Bytes} (h : 0x25 ∉ bytes) (done rest : Bytes) :
    unescape done (bytes ++ rest) = unescape (bytes.reverse ++ done) rest := by
  induction bytes generalizing done with
  | nil => rfl
  | cons b bytes ih =>
    rw [List.mem_cons, not_or] at h
    rw [List.cons_append, unescape, ih h.2, List.reverse_cons, List.append_assoc,
      List.singleton_append]
    exact fun _ _ _ hb => absurd hb.symm h.1

/-- Only a percent sign has the byte of a percent sign in its encoding. -/
theorem percent_not_mem {c : Char} (h : c ≠ '%') : 0x25 ∉ String.utf8EncodeChar c :=
  fun hmem => h (Char.toNat_inj.1 (Text.toNat_of_mem_utf8EncodeChar hmem (by decide)))

/-- However a text is encoded, it is what the segment is decoded to. -/
theorem decode_of_encodes {key : String} {segment : Bytes} (h : Encodes key.toList segment) :
    decode segment = key := by
  have hbytes : ∀ {cs : List Char} {segment : Bytes}, Encodes cs segment → ∀ done,
      unescape done segment = done.reverse ++ cs.flatMap String.utf8EncodeChar := by
    intro cs segment h
    induction h with
    | nil => intro done; rw [unescape, List.flatMap_nil, List.append_nil]
    | itself hc _ ih =>
      intro done
      rw [unescape_append (percent_not_mem hc), ih, List.reverse_append, List.reverse_reverse,
        List.append_assoc, List.flatMap_cons]
    | escaped hescapes _ ih =>
      intro done
      rw [hescapes.unescape, ih, List.reverse_append, List.reverse_reverse, List.append_assoc,
        List.flatMap_cons]
  have hkey := hbytes h []
  rw [List.reverse_nil, List.nil_append, ← Bytes.ofText_eq_flatMap] at hkey
  rw [decode, hkey, Text.decodeLossy_ofText]

/-- A text in which a percent sign is followed by a plus sign and a digit, with some of its
characters written as escapes, in digits of either case. -/
theorem decode_of_encodes_mixed :
    let segment := Bytes.ofText "%61/é%25+1%c3%A9"
    Encodes "a/é%+1é".toList segment ∧ decode segment = "a/é%+1é" := by
  intro segment
  have ha : Escapes (String.utf8EncodeChar 'a') (Bytes.ofText "%61") :=
    .cons (.decimal (d := 6) (by decide)) (.decimal (d := 1) (by decide)) .nil
  have hpercent : Escapes (String.utf8EncodeChar '%') (Bytes.ofText "%25") :=
    .cons (.decimal (d := 2) (by decide)) (.decimal (d := 5) (by decide)) .nil
  have he : Escapes (String.utf8EncodeChar 'é') (Bytes.ofText "%c3%A9") :=
    .cons (.small (d := 2) (by decide)) (.decimal (d := 3) (by decide))
      (.cons (.capital (d := 0) (by decide)) (.decimal (d := 9) (by decide)) .nil)
  have hsign : ∀ {cs segment}, Encodes cs segment →
      Encodes ('+' :: '1' :: cs) (0x2B :: 0x31 :: segment) := fun h =>
    .itself (by decide) (.itself (by decide) h)
  have hencodes : Encodes "a/é%+1é".toList segment :=
    .escaped ha (.itself (by decide) (.itself (by decide) (.escaped hpercent
      (hsign (.escaped he .nil)))))
  exact ⟨hencodes, decode_of_encodes hencodes⟩

end CacheServer.Http.Percent
