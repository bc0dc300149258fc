import CacheServer.Proofs.Http.Wire

/-!
# Requests as they are written

A request is written as a line with its method and target, header lines, a blank line and its
body. `readRequest_written` says that it is read as it was written, whatever comes behind it: each
line may end in either way, and the header for the length of the body may stand in any place, with
its name in any case and with blanks around name and numeral.
-/

namespace CacheServer.Http

open Input (Closed Cuts)
open Text (isBlank trim trimEnd equalFold Numeral)

/-! ## Lines -/

/-- The two ways to end a line. -/
def lineEnd (withReturn : Bool) : String := if withReturn then "\r\n" else "\n"

/-- A line end is made of blanks. -/
theorem isBlank_of_mem_lineEnd {withReturn : Bool} :
    ∀ c ∈ (lineEnd withReturn).toList, isBlank c = true :=
  List.all_eq_true.1 (by cases withReturn <;> decide)

/-- A line with its end is closed if it has no line feed before. -/
theorem closed_append_lineEnd {text : String} (h : '\n' ∉ text.toList) (withReturn : Bool) :
    Closed (Bytes.ofText (text ++ lineEnd withReturn)) := by
  have htext : 0x0A ∉ Bytes.ofText text := (Text.mem_ofText_iff (c := '\n') (by decide)).not.2 h
  rw [Bytes.ofText_append]
  cases withReturn with
  | false => exact ⟨Bytes.ofText text, htext, rfl⟩
  | true =>
    refine ⟨Bytes.ofText text ++ [0x0D], ?_, by simp; rfl⟩
    simpa using htext

/-- A line of text with its end. -/
structure Line where
  text : String
  withReturn : Bool
  text_free : '\n' ∉ text.toList

/-- The line as it is written. -/
def Line.written (l : Line) : String := l.text ++ lineEnd l.withReturn

/-- A line is written with its end, and without another one. -/
theorem Line.closed (l : Line) : Closed (Bytes.ofText l.written) :=
  closed_append_lineEnd l.text_free l.withReturn

/-! ## Header lines -/

/-- Blanks at the end of a header line do not belong to its text. -/
theorem isLength_append_iff {line blanks value : List Char} (h : ∀ c ∈ blanks, isBlank c = true) :
    IsLength (line ++ blanks) value ↔ IsLength line value := by
  by_cases hcolon : ':' ∈ line
  · obtain ⟨name, text, rfl, hname⟩ := List.eq_append_cons_of_mem hcolon
    rw [List.append_assoc, List.cons_append, isLength_append_cons_iff hname,
      isLength_append_cons_iff hname, Text.trim_append_of_forall h]
  · have hcolon' : ':' ∉ line ++ blanks := by
      rw [List.mem_append, not_or]
      exact ⟨hcolon, fun hblank => absurd (h ':' hblank) (by decide)⟩
    have hnone : ∀ {l : List Char}, ':' ∉ l → ¬ IsLength l value := by
      rintro l hl ⟨name, text, rfl, -⟩
      exact hl (by simp)
    exact iff_of_false (hnone hcolon') (hnone hcolon)

/-- A header line with something in it that is not about the length of the body. -/
structure IsPlain (l : Line) : Prop where
  filled : trimEnd l.text.toList ≠ []
  not_isLength : ∀ value, ¬ IsLength l.text.toList value

/-- A header line for a body of `n` bytes: the name in any case of its letters, and blanks around it
and the numeral. -/
inductive WritesLength (n : Nat) (l : Line) : Prop
  | mk {gap : Fin 4 → List Char} {name : List Char} : (∀ i, ∀ c ∈ gap i, isBlank c = true) →
      equalFold name "content-length".toList = true →
      l.text.toList = gap 0 ++ name ++ gap 1 ++ ':' :: (gap 2 ++ (Nat.repr n).toList ++ gap 3) →
      WritesLength n l

/-- The header lines of a request with a body of `n` bytes. -/
inductive WritesHeaders (n : Nat) : List Line → Prop
  | counted {before after : List Line} {length : Line} : (∀ l ∈ before ++ after, IsPlain l) →
      WritesLength n length → (before ++ after).length ≤ 62 →
      WritesHeaders n (before ++ length :: after)
  /-- Without a body its length can be left out. -/
  | empty {lines : List Line} : n = 0 → (∀ l ∈ lines, IsPlain l) → lines.length ≤ 63 →
      WritesHeaders n lines

/-- A plain line is not blank and announces no length, also with its end. -/
theorem IsPlain.written {l : Line} (h : IsPlain l) :
    trimEnd l.written.toList ≠ [] ∧ ∀ value, ¬ IsLength l.written.toList value := by
  rw [Line.written, String.toList_append, Text.trimEnd_append_of_forall isBlank_of_mem_lineEnd]
  exact ⟨h.filled, fun value => mt (isLength_append_iff isBlank_of_mem_lineEnd).1
    (h.not_isLength value)⟩

/-- The name of the header has no blank and no colon in it, in whatever case it is written. -/
theorem not_mem_name {name : List Char} (h : equalFold name "content-length".toList = true) :
    ∀ c ∈ name, isBlank c = false ∧ c ≠ ':' := by
  intro c hc
  have hlower : Text.lower name = "content-length".toList := beq_iff_eq.1 h
  have hmem : c.toLower ∈ "content-length".toList := hlower ▸ List.mem_map_of_mem hc
  -- A letter that is not as it stands in the name is a capital, and those are visible.
  by_cases hcapital : c.val ≥ 'A'.val ∧ c.val ≤ 'Z'.val
  · have hlow : 65 ≤ c.toNat := hcapital.1
    have hhigh : c.toNat ≤ 90 := hcapital.2
    refine ⟨Text.isBlank_of_visible (by omega) (by omega), ?_⟩
    rintro rfl
    exact absurd hlow (by decide)
  · have hname : ∀ d ∈ "content-length".toList, isBlank d = false ∧ d ≠ ':' := by
      have hall : "content-length".toList.all (fun d => !isBlank d && d != ':') = true := by decide
      simpa using hall
    have hsame : c.toLower = c := dif_neg hcapital
    exact hname c (hsame ▸ hmem)

/-- A line that writes a length announces its numeral. -/
theorem WritesLength.isLength {n : Nat} {l : Line} (h : WritesLength n l) :
    IsLength l.text.toList (Nat.repr n).toList := by
  obtain @⟨gap, name, hgap, hfold, htext⟩ := h
  refine ⟨gap 0 ++ name ++ gap 1, _, htext, ?_, ?_, ?_⟩
  · simp only [List.mem_append, not_or]
    have hblank : ∀ i, ':' ∉ gap i := fun i hmem => absurd (hgap i ':' hmem) (by decide)
    exact ⟨⟨hblank 0, fun hmem => (not_mem_name hfold ':' hmem).2 rfl⟩, hblank 1⟩
  · rwa [Text.trim_append_append (hgap 0) (fun c hc => (not_mem_name hfold c hc).1) (hgap 1)]
  · rw [Text.trim_append_append (hgap 2) Text.isBlank_of_mem_repr (hgap 3)]

/-- A line that writes a length is not blank and announces it, also with its end. -/
theorem WritesLength.written {n : Nat} {l : Line} (h : WritesLength n l) :
    trimEnd l.written.toList ≠ [] ∧ IsLength l.written.toList (Nat.repr n).toList := by
  rw [Line.written, String.toList_append, Text.trimEnd_append_of_forall isBlank_of_mem_lineEnd,
    isLength_append_iff isBlank_of_mem_lineEnd]
  refine ⟨fun hempty => ?_, h.isLength⟩
  obtain ⟨name, text, htext, -⟩ := h.isLength
  have hcolon : isBlank ':' = true := Text.trimEnd_eq_nil_iff.1 hempty ':' (by simp [htext])
  exact absurd hcolon (by decide)

/-- What is written for the header lines is read as announcing the body. -/
theorem WritesHeaders.announces {n : Nat} {lines : List Line} (h : WritesHeaders n lines)
    (hn : n < Nat.pow 2 64) : Announces (lines.map Line.written) n := by
  cases h with
  | @counted before after length hplain hlength hfew =>
    refine OneLength.announces ⟨before.map Line.written, length.written, after.map Line.written,
      by simp, hlength.written.2, fun line hline => ?_⟩ hn
    rw [← List.map_append] at hline
    obtain ⟨l, hl, rfl⟩ := List.mem_map.1 hline
    exact (hplain l hl).written.2
  | empty hzero hplain hfew =>
    have hother : ∀ line ∈ lines.map Line.written, ∀ value, ¬ IsLength line.toList value := by
      intro line hline
      obtain ⟨l, hl, rfl⟩ := List.mem_map.1 hline
      exact (hplain l hl).written.2
    exact ⟨fun line hline value hvalue => absurd hvalue (hother line hline value),
      .inl ⟨hzero, hother⟩⟩

/-- No written header is blank. -/
theorem WritesHeaders.filled {n : Nat} {lines : List Line} (h : WritesHeaders n lines) :
    ∀ l ∈ lines, trimEnd l.written.toList ≠ [] := by
  intro l hl
  cases h with
  | counted hplain hlength hfew =>
    simp only [List.mem_append, List.mem_cons] at hl
    rcases hl with hl | rfl | hl
    · exact (hplain l (List.mem_append_left _ hl)).written.1
    · exact hlength.written.1
    · exact (hplain l (List.mem_append_right _ hl)).written.1
  | empty hzero hplain hfew => exact (hplain l hl).written.1

/-- The written headers are few enough to be read. -/
theorem WritesHeaders.few {n : Nat} {lines : List Line} (h : WritesHeaders n lines) :
    lines.length < maxHeaderLines := by
  cases h with
  | counted hplain hlength hfew =>
    simp only [List.length_append, List.length_cons, maxHeaderLines] at hfew ⊢
    omega
  | empty hzero hplain hfew => exact Nat.lt_succ_of_le hfew

/-! ## The whole request -/

/-- A text that can be a word of a line: there is something in it and no blank. -/
structure IsWord (text : String) : Prop where
  ne_empty : text ≠ ""
  unblanked : ∀ c ∈ text.toList, isBlank c = false

/-- The first line of a request, without its end. -/
def firstLine (method target : String) : String := method ++ " " ++ target ++ " HTTP/1.1"

/-- The first two words of the first line are the method and the target. -/
theorem words_firstLine {method target : String} (hmethod : IsWord method) (htarget : IsWord target)
    (withReturn : Bool) : ∃ others,
      Text.words (firstLine method target ++ lineEnd withReturn).toList =
        method.toList :: target.toList :: others := by
  have hword : ∀ {w : String}, IsWord w → Text.words w.toList = [w.toList] := fun h =>
    Text.words_of_forall (by simpa using h.ne_empty) h.unblanked
  have hcut : (firstLine method target ++ lineEnd withReturn).toList = method.toList ++
      ' ' :: (target.toList ++ ' ' :: ("HTTP/1.1" ++ lineEnd withReturn).toList) := by
    simp [firstLine]
  rw [hcut, Text.words_append_cons (by decide), Text.words_append_cons (by decide), hword hmethod,
    hword htarget]
  exact ⟨_, rfl⟩

/-- The first line is one line. -/
theorem not_mem_firstLine {method target : String} (hmethod : IsWord method)
    (htarget : IsWord target) : '\n' ∉ (firstLine method target).toList := by
  have hfree : ∀ {w : String}, IsWord w → '\n' ∉ w.toList := fun h hmem =>
    absurd (h.unblanked _ hmem) (by decide)
  simp [firstLine, hfree hmethod, hfree htarget]

/-- A request that is written is read, whatever comes behind it and however the stream ends. -/
theorem readRequest_written {method target : String} {headers : List Line} {body : Bytes}
    (hmethod : IsWord method) (htarget : IsWord target)
    (hheaders : WritesHeaders body.length headers) (hsize : body.length ≤ maxBodySize)
    (withReturn withReturn' : Bool) (further : Bytes) (ending : StreamEnd) :
    readRequest ⟨Bytes.ofText (firstLine method target ++ lineEnd withReturn) ++
        headers.flatMap (Bytes.ofText ·.written) ++ Bytes.ofText (lineEnd withReturn') ++ body ++
        further, ending⟩ = .ok (some ⟨method, target, body⟩) := by
  have hhead : IsHead method target (firstLine method target ++ lineEnd withReturn)
      (headers.map Line.written) := {
    first_closed := closed_append_lineEnd (not_mem_firstLine hmethod htarget) withReturn
    two_words := words_firstLine hmethod htarget withReturn
    are_headers := ⟨by simpa using fun l _ => l.closed, by simpa using hheaders.filled⟩
    few := by simpa using hheaders.few }
  have hend : Closed (Bytes.ofText ("" ++ lineEnd withReturn')) :=
    closed_append_lineEnd (by decide) withReturn'
  have hblank : IsBlankLine ending (lineEnd withReturn') (body ++ further) := {
    cuts := .inl (by simpa using hend)
    ne_empty := by cases withReturn' <;> decide
    blank := Text.trimEnd_eq_nil_iff.2 isBlank_of_mem_lineEnd }
  have hannounces := hheaders.announces (Nat.lt_of_le_of_lt hsize (by decide))
  refine readRequest_eq_some_iff.2 (.mk ?_ hhead hblank hannounces hsize
    (List.prefix_append body further))
  simp [List.flatMap_map]

/-- The length stands between two other lines, a line ends in each of the ways, the body is no text,
and the connection breaks behind it. -/
theorem readRequest_written_between :
    let host : Line := ⟨"Host: é", true, by decide⟩
    let length : Line := ⟨"\tcONTENT-length : 3 ", false, by decide⟩
    let other : Line := ⟨"content-length", true, by decide⟩
    let headers := [host] ++ length :: [other]
    let body : Bytes := [0xFF, 0x0A, 0x0D]
    IsWord "PUT" ∧ IsWord "/SET/ключ?" ∧ WritesHeaders body.length headers ∧
      body.length ≤ maxBodySize ∧
      readRequest ⟨Bytes.ofText (firstLine "PUT" "/SET/ключ?" ++ "\n") ++
          headers.flatMap (Bytes.ofText ·.written) ++ Bytes.ofText "\r\n" ++ body ++ [0x0A],
        .reset⟩ = .ok (some ⟨"PUT", "/SET/ключ?", body⟩) := by
  intro host length other headers body
  have hplain : ∀ l : Line, trimEnd l.text.toList ≠ [] → contentLength? l.text.toList = none →
      IsPlain l := by
    refine fun l hfilled hnone => ⟨hfilled, fun value h => ?_⟩
    rw [contentLength?_of_isLength h] at hnone
    cases hnone
  have hword : ∀ {w : String}, w ≠ "" → w.toList.any isBlank = false → IsWord w :=
    fun hne hany => ⟨hne, by simpa using hany⟩
  have hmethod : IsWord "PUT" := hword (by decide) (by decide)
  have htarget : IsWord "/SET/ключ?" := hword (by decide) (by decide)
  have hgap : ∀ i : Fin 4, ∀ c ∈ (if i = 0 then ['\t'] else [' ']), isBlank c = true :=
    fun i => List.all_eq_true.1 (by split <;> decide)
  have hname : equalFold "cONTENT-length".toList "content-length".toList = true := by decide
  have hlength : WritesLength 3 length := .mk hgap hname (by decide)
  have hheaders : WritesHeaders body.length headers := by
    refine .counted (fun l hl => ?_) hlength (by decide)
    obtain rfl | rfl : l = host ∨ l = other := by simpa using hl
    · exact hplain host (by decide) (by decide)
    · exact hplain other (by decide) (by decide)
  have hsize : body.length ≤ maxBodySize := by decide
  exact ⟨hmethod, htarget, hheaders, hsize,
    readRequest_written hmethod htarget hheaders hsize false true [0x0A] .reset⟩

end CacheServer.Http
