import CacheServer.Http.Wire
import CacheServer.Proofs.Cutting
import CacheServer.Proofs.Text.Blank
import CacheServer.Proofs.Text.Numeral
import CacheServer.Proofs.Text.Utf8

/-!
# The lines in front of a body

What is read of a request before its body is read line by line. A line is cut off behind its line
feed, or at the end of a stream that ends as it should (`Input.Cuts`); it is text, or reading fails
there (`Input.readLine_eq_ok_iff`, `Input.readLine_eq_error_iff`). The first line has two words
(`twoWords?_eq_some_iff`). Of the header lines only those for the length of the body count
(`IsLength`): all of them must be readable, and the last decides (`announced_eq_some_iff`).
-/

namespace CacheServer.Http

open Text (isBlank trim trimEnd equalFold Numeral)

/-! ## One line -/

namespace Input

/-- A line with its line feed, the only one in it. -/
def Closed (line : Bytes) : Prop := ∃ text, 0x0A ∉ text ∧ line = text ++ [0x0A]

/-- Whether a stream with the given ending is cut behind a line: the line is closed, or it is the
last one and the stream ends properly. -/
def Cuts (ending : StreamEnd) (line rest : Bytes) : Prop :=
  Closed line ∨ 0x0A ∉ line ∧ rest = [] ∧ ending = .eof

variable {ending : StreamEnd} {bs line rest : Bytes} {text : String}

/-- A stream can be cut behind its first line, unless it fails inside that. -/
theorem exists_cuts (bs : Bytes) (ending : StreamEnd) :
    (∃ line rest, bs = line ++ rest ∧ Cuts ending line rest) ∨ 0x0A ∉ bs ∧ ending ≠ .eof := by
  by_cases hmem : 0x0A ∈ bs
  · obtain ⟨text, rest, rfl, htext⟩ := List.eq_append_cons_of_mem hmem
    exact .inl ⟨text ++ [0x0A], rest, by simp, .inl ⟨text, htext, rfl⟩⟩
  · by_cases hending : ending = .eof
    · exact .inl ⟨bs, [], by simp, .inr ⟨hmem, rfl, hending⟩⟩
    · exact .inr ⟨hmem, hending⟩

/-- Without a line feed all bytes are one line. -/
theorem cutLine_of_not_mem (h : 0x0A ∉ line) : cutLine line = (line, []) := by
  rw [cutLine, span_bne_of_not_mem h]

/-- The first line is cut off in front of the others. -/
theorem cutLine_of_cuts (h : Cuts ending line rest) : cutLine (line ++ rest) = (line, rest) := by
  rcases h with ⟨text, htext, rfl⟩ | ⟨hline, rfl, -⟩
  · rw [List.append_assoc, List.singleton_append, cutLine, span_bne_append htext]
    rfl
  · rw [List.append_nil, cutLine_of_not_mem hline]

/-- A line that is cut off is read as text or refused. -/
theorem readLine_of_cuts (h : Cuts ending line rest) :
    readLine ⟨line ++ rest, ending⟩ =
      match Text.decode? line with
      | some text => .ok (text, ⟨rest, ending⟩)
      | none => .error .invalidUtf8 := by
  have hends : ¬ (line.getLast? ≠ some 0x0A ∧ ending ≠ .eof) := by
    rintro ⟨hlast, hending⟩
    rcases h with ⟨text, -, rfl⟩ | ⟨-, -, heof⟩
    · exact hlast (by simp)
    · exact hending heof
  unfold readLine
  rw [cutLine_of_cuts h]
  exact if_neg hends

/-- Reading fails inside a line that the stream does not deliver. -/
theorem readLine_of_not_mem (h : 0x0A ∉ bs) (hending : ending ≠ .eof) :
    readLine ⟨bs, ending⟩ = .error (failure ending .earlyEof) := by
  have hlast : bs.getLast? ≠ some 0x0A := fun hlast => h (List.mem_of_getLast? hlast)
  unfold readLine
  simp only [cutLine_of_not_mem h, if_pos (And.intro hlast hending)]

/-- A line is read exactly if it can be cut off and is text. -/
theorem readLine_eq_ok_iff {after : Input} :
    readLine ⟨bs, ending⟩ = .ok (text, after) ↔
      ∃ rest, after = ⟨rest, ending⟩ ∧ bs = Bytes.ofText text ++ rest ∧
        Cuts ending (Bytes.ofText text) rest := by
  constructor
  · intro h
    rcases exists_cuts bs ending with ⟨line, rest, rfl, hcuts⟩ | ⟨hmem, hending⟩
    · rw [readLine_of_cuts hcuts] at h
      cases hdecode : Text.decode? line with
      | none => simp only [hdecode, reduceCtorEq] at h
      | some found =>
        simp only [hdecode, Except.ok.injEq, Prod.mk.injEq] at h
        obtain ⟨rfl, rfl⟩ := h
        obtain rfl := Text.decode?_eq_some_iff.1 hdecode
        exact ⟨rest, rfl, rfl, hcuts⟩
    · rw [readLine_of_not_mem hmem hending] at h
      cases h
  · rintro ⟨rest, rfl, rfl, hcuts⟩
    rw [readLine_of_cuts hcuts, Text.decode?_ofText]

/-- Reading a line fails exactly with the stream inside the line, or for a line that is no text. -/
theorem readLine_eq_error_iff {e : IoError} :
    readLine ⟨bs, ending⟩ = .error e ↔
      (0x0A ∉ bs ∧ ending ≠ .eof ∧ e = failure ending .earlyEof) ∨
        ∃ line rest, bs = line ++ rest ∧ Cuts ending line rest ∧
          (∀ text, line ≠ Bytes.ofText text) ∧ e = .invalidUtf8 := by
  constructor
  · intro h
    rcases exists_cuts bs ending with ⟨line, rest, rfl, hcuts⟩ | ⟨hmem, hending⟩
    · rw [readLine_of_cuts hcuts] at h
      cases hdecode : Text.decode? line with
      | none =>
        simp only [hdecode, Except.error.injEq] at h
        refine .inr ⟨line, rest, rfl, hcuts, fun text htext => ?_, h.symm⟩
        rw [Text.decode?_eq_some_iff.2 htext] at hdecode
        cases hdecode
      | some found => simp only [hdecode, reduceCtorEq] at h
    · rw [readLine_of_not_mem hmem hending] at h
      exact .inl ⟨hmem, hending, (Except.error.inj h).symm⟩
  · rintro (⟨hmem, hending, rfl⟩ | ⟨line, rest, rfl, hcuts, htext, rfl⟩)
    · exact readLine_of_not_mem hmem hending
    · have hdecode : Text.decode? line = none := Option.eq_none_iff_forall_ne_some.2
        fun text h => htext text (Text.decode?_eq_some_iff.1 h)
      rw [readLine_of_cuts hcuts, hdecode]

end Input

/-! ## The first line -/

/-- The two words are the first of all. -/
theorem twoWords?_eq_some_iff {line : List Char} {first second : String} :
    twoWords? line = some (first, second) ↔
      ∃ others, Text.words line = first.toList :: second.toList :: others := by
  have hwords := Text.words_eq_firstWord line
  have hnone := @Text.firstWord_snd_of_nil line
  unfold twoWords?
  generalize Text.firstWord line = cut at hwords hnone ⊢
  obtain ⟨word, rest⟩ := cut
  have hwords' := Text.words_eq_firstWord rest
  dsimp only at hwords hnone ⊢
  generalize Text.firstWord rest = cut' at hwords' ⊢
  obtain ⟨word', rest'⟩ := cut'
  dsimp only at hwords' ⊢
  by_cases hword' : word' = []
  · rw [if_pos hword'] at hwords' ⊢
    refine iff_of_false nofun ?_
    rintro ⟨others, h⟩
    rw [hwords, hwords'] at h
    split at h <;> cases h
  · rw [if_neg hword'] at hwords' ⊢
    have hword : word ≠ [] := by
      intro hnil
      rw [hnone hnil, Text.words_nil] at hwords'
      cases hwords'
    rw [hwords, if_neg hword, hwords', Option.some.injEq, Prod.mk.injEq]
    constructor
    · rintro ⟨rfl, rfl⟩
      exact ⟨Text.words rest', by simp⟩
    · rintro ⟨others, h⟩
      simp only [List.cons.injEq] at h
      simp [h.1, h.2.1]

/-! ## Header lines for the length -/

/-- Whether a line is a header for the length of the body, with the text that it has for it. -/
def IsLength (line value : List Char) : Prop :=
  ∃ name text, line = name ++ ':' :: text ∧ ':' ∉ name ∧
    equalFold (trim name) "content-length".toList = true ∧ value = trim text

/-- A line is split at its first colon. -/
theorem splitColon?_append {name : List Char} (h : ':' ∉ name) (text : List Char) :
    splitColon? (name ++ ':' :: text) = some (name, text) := by
  rw [splitColon?, span_bne_append h]
  rfl

/-- Without a colon a line is not split. -/
theorem splitColon?_of_not_mem {line : List Char} (h : ':' ∉ line) : splitColon? line = none := by
  rw [splitColon?, span_bne_of_not_mem h]

/-- The name stands in front of the first colon. -/
theorem isLength_append_cons_iff {name text value : List Char} (h : ':' ∉ name) :
    IsLength (name ++ ':' :: text) value ↔
      equalFold (trim name) "content-length".toList = true ∧ value = trim text := by
  refine ⟨?_, fun ⟨hfold, hvalue⟩ => ⟨name, text, rfl, h, hfold, hvalue⟩⟩
  rintro ⟨name', text', hline, hname', hfold, hvalue⟩
  have hsplit := splitColon?_append h text
  rw [hline, splitColon?_append hname', Option.some.injEq, Prod.mk.injEq] at hsplit
  obtain ⟨rfl, rfl⟩ := hsplit
  exact ⟨hfold, hvalue⟩

/-- A header for the length says what its text says. -/
theorem contentLength?_of_isLength {line value : List Char} (h : IsLength line value) :
    contentLength? line = some (Text.readUnsigned? (Nat.pow 2 64) value) := by
  obtain ⟨name, text, rfl, hname, hfold, rfl⟩ := h
  simp only [contentLength?, splitColon?_append hname, if_pos hfold]

/-- Any other line says nothing. -/
theorem contentLength?_of_not_isLength {line : List Char} (h : ∀ value, ¬ IsLength line value) :
    contentLength? line = none := by
  by_cases hcolon : ':' ∈ line
  · obtain ⟨name, text, rfl, hname⟩ := List.eq_append_cons_of_mem hcolon
    have hfold : ¬ equalFold (trim name) "content-length".toList = true := fun hfold =>
      h _ ((isLength_append_cons_iff hname).2 ⟨hfold, rfl⟩)
    simp only [contentLength?, splitColon?_append hname, if_neg hfold]
  · simp only [contentLength?, splitColon?_of_not_mem hcolon]

/-- Blanks at the end of a line do not matter. -/
theorem contentLength?_trimEnd (line : List Char) :
    contentLength? (trimEnd line) = contentLength? line := by
  by_cases hcolon : ':' ∈ line
  · obtain ⟨name, text, rfl, hname⟩ := List.eq_append_cons_of_mem hcolon
    rw [Text.trimEnd_append_cons (by decide), contentLength?, contentLength?,
      splitColon?_append hname, splitColon?_append hname]
    simp only [Text.trim_trimEnd]
  · have htrimmed : ':' ∉ trimEnd line := fun h =>
      hcolon ((List.rdropWhile_prefix isBlank line).subset h)
    rw [contentLength?, contentLength?, splitColon?_of_not_mem hcolon,
      splitColon?_of_not_mem htrimmed]

/-- A line announces one value at most. -/
theorem IsLength.unique {line value value' : List Char} (h : IsLength line value)
    (h' : IsLength line value') : value = value' := by
  obtain ⟨name, text, rfl, hname, -, rfl⟩ := h
  exact ((isLength_append_cons_iff hname).1 h').2.symm

/-- Whether header lines announce a body of `n` bytes: every length among them can be read, and `n`
is the last of them, or zero if there is none. -/
structure Announces (headers : List String) (n : Nat) : Prop where
  readable : ∀ line ∈ headers, ∀ value, IsLength line.toList value →
    ∃ m < Nat.pow 2 64, Numeral value m
  last : (n = 0 ∧ ∀ line ∈ headers, ∀ value, ¬ IsLength line.toList value) ∨
    ∃ front line back value, headers = front ++ line :: back ∧ IsLength line.toList value ∧
      Numeral value n ∧ ∀ line ∈ back, ∀ value, ¬ IsLength line.toList value

variable {headers : List String} {line : String} {value : List Char} {n : Nat}

/-- No headers announce no body. -/
theorem announces_nil_iff : Announces [] n ↔ n = 0 := by
  constructor
  · rintro ⟨-, ⟨hn, -⟩ | ⟨front, line, back, value, hnil, -⟩⟩
    · exact hn
    · simp at hnil
  · rintro rfl
    exact ⟨nofun, .inl ⟨rfl, nofun⟩⟩

/-- A line that announces no length changes nothing. -/
theorem announces_append_of_not_isLength (h : ∀ value, ¬ IsLength line.toList value) :
    Announces (headers ++ [line]) n ↔ Announces headers n := by
  constructor
  · rintro ⟨hreadable, hlast⟩
    refine ⟨fun l hl => hreadable l (List.mem_append_left _ hl), ?_⟩
    rcases hlast with ⟨hn, hnone⟩ | ⟨front, l, back, value, hcut, hlength, hnumeral, hback⟩
    · exact .inl ⟨hn, fun l hl => hnone l (List.mem_append_left _ hl)⟩
    · rcases append_singleton_eq_append_cons hcut with ⟨-, rfl, -⟩ | ⟨back, rfl, rfl⟩
      · exact absurd hlength (h value)
      · exact .inr ⟨front, l, back, value, rfl, hlength, hnumeral,
          fun l hl => hback l (List.mem_append_left _ hl)⟩
  · rintro ⟨hreadable, hlast⟩
    refine ⟨fun l hl v hlength => ?_, ?_⟩
    · rcases List.mem_append.1 hl with hl | hl
      · exact hreadable l hl v hlength
      · rw [List.mem_singleton.1 hl] at hlength
        exact absurd hlength (h v)
    · rcases hlast with ⟨hn, hnone⟩ | ⟨front, l, back, value, rfl, hlength, hnumeral, hback⟩
      · refine .inl ⟨hn, fun l hl => ?_⟩
        rcases List.mem_append.1 hl with hl | hl
        · exact hnone l hl
        · rwa [List.mem_singleton.1 hl]
      · refine .inr ⟨front, l, back ++ [line], value, by simp, hlength, hnumeral, fun l hl => ?_⟩
        rcases List.mem_append.1 hl with hl | hl
        · exact hback l hl
        · rwa [List.mem_singleton.1 hl]

/-- Something is announced exactly if every length can be read. -/
theorem exists_announces_iff : (∃ n, Announces headers n) ↔
    ∀ line ∈ headers, ∀ value, IsLength line.toList value →
      ∃ m < Nat.pow 2 64, Numeral value m := by
  refine ⟨fun ⟨n, h⟩ => h.readable, fun h => ?_⟩
  induction headers using List.reverseRecOn with
  | nil => exact ⟨0, announces_nil_iff.2 rfl⟩
  | append_singleton headers line ih =>
    by_cases hline : ∃ value, IsLength line.toList value
    · obtain ⟨value, hvalue⟩ := hline
      obtain ⟨m, -, hnumeral⟩ := h line (by simp) value hvalue
      exact ⟨m, h, .inr ⟨headers, line, [], value, rfl, hvalue, hnumeral, nofun⟩⟩
    · obtain ⟨n, hn⟩ := ih fun l hl => h l (List.mem_append_left _ hl)
      exact ⟨n, (announces_append_of_not_isLength (not_exists.1 hline)).2 hn⟩

/-- The last line that announces a length counts, and the others have to be numerals too. -/
theorem announces_append_of_isLength (h : IsLength line.toList value) :
    Announces (headers ++ [line]) n ↔
      (∃ m, Announces headers m) ∧ Numeral value n ∧ n < Nat.pow 2 64 := by
  constructor
  · rintro ⟨hreadable, hlast⟩
    refine ⟨exists_announces_iff.2 fun l hl => hreadable l (List.mem_append_left _ hl), ?_⟩
    rcases hlast with ⟨-, hnone⟩ | ⟨front, l, back, value', hcut, hlength, hnumeral, hback⟩
    · exact absurd h (hnone line (by simp) value)
    · rcases append_singleton_eq_append_cons hcut with ⟨-, rfl, -⟩ | ⟨back, rfl, rfl⟩
      · obtain rfl := h.unique hlength
        obtain ⟨m, hm, hnumeral'⟩ := hreadable l (by simp) value h
        obtain rfl := hnumeral.unique hnumeral'
        exact ⟨hnumeral, hm⟩
      · exact absurd h (hback line (by simp) value)
  · rintro ⟨hexists, hnumeral, hn⟩
    refine ⟨fun l hl v hlength => ?_, .inr ⟨headers, line, [], value, rfl, h, hnumeral, nofun⟩⟩
    rcases List.mem_append.1 hl with hl | hl
    · exact exists_announces_iff.1 hexists l hl v hlength
    · rw [List.mem_singleton.1 hl] at hlength
      obtain rfl := h.unique hlength
      exact ⟨n, hn, hnumeral⟩

/-- Whether exactly one header line is for the length, and has the numeral of `n` for it. -/
def OneLength (headers : List String) (n : Nat) : Prop :=
  ∃ before line after, headers = before ++ line :: after ∧
    IsLength line.toList (Nat.repr n).toList ∧
    ∀ other ∈ before ++ after, ∀ value, ¬ IsLength other.toList value

/-- A single line with a numeral in range announces this length. -/
theorem OneLength.announces (h : OneLength headers n) (hn : n < Nat.pow 2 64) :
    Announces headers n := by
  obtain ⟨before, line, after, rfl, hline, hother⟩ := h
  refine ⟨fun l hl value hvalue => ?_, .inr ⟨before, line, after, _, rfl, hline,
    Text.numeral_repr n, fun l hl => hother l (List.mem_append_right _ hl)⟩⟩
  by_cases hmem : l ∈ before ++ after
  · exact absurd hvalue (hother l hmem value)
  · obtain rfl : l = line := by
      simp only [List.mem_append, List.mem_cons, not_or] at hl hmem
      exact hl.elim (absurd · hmem.1) (·.elim id (absurd · hmem.2))
    rw [hvalue.unique hline]
    exact ⟨n, hn, Text.numeral_repr n⟩

/-- The length behind header lines, if it was `length` in front of them; there is none if one of
the lengths cannot be read. -/
def announced (length : Nat) (headers : List String) : Option Nat :=
  headers.foldlM (fun length line => (contentLength? line.toList).getD (some length)) length

/-- A header in front replaces the length so far, or leaves it. -/
theorem announced_cons (length : Nat) (line : String) (headers : List String) :
    announced length (line :: headers) =
      ((contentLength? line.toList).getD (some length)).bind fun length =>
        announced length headers :=
  List.foldlM_cons

/-- What is read line by line is what the lines announce. -/
theorem announced_eq_some_iff : announced 0 headers = some n ↔ Announces headers n := by
  -- From the end, since it is the last length that counts.
  induction headers using List.reverseRecOn generalizing n with
  | nil => rw [announces_nil_iff, eq_comm]; exact Option.some_inj
  | append_singleton headers line ih =>
    have happend : announced 0 (headers ++ [line]) = (announced 0 headers).bind fun length =>
        (contentLength? line.toList).getD (some length) := by
      simp [announced, List.foldlM_append]
    rw [happend, Option.bind_eq_some_iff]
    by_cases hline : ∃ value, IsLength line.toList value
    · obtain ⟨value, hvalue⟩ := hline
      rw [announces_append_of_isLength hvalue, contentLength?_of_isLength hvalue]
      simp only [ih, Option.getD_some, Text.readUnsigned?_eq_some_iff (Nat.two_pow_pos 64),
        exists_and_right]
    · have hline := not_exists.1 hline
      rw [announces_append_of_not_isLength hline, contentLength?_of_not_isLength hline]
      simp [ih]

end CacheServer.Http
