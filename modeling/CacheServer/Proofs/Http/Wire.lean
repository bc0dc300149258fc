import CacheServer.Http.Exchange
import CacheServer.Proofs.Http.Head

/-!
# Which streams carry a request

`Carries` says what a stream has to hold for a request to be read from it, and `Fails` for which
streams reading ends in an error; `readRequest_outcome` says that these are the only two and that
every other stream is no request.

The header lines are a loop. `exists_passes` cuts what it reads into the lines that it passes and
the one at which it stops (`Stops`), and `readHeaders_append` takes it past such lines again.
-/

namespace CacheServer.Http

open Input (Closed Cuts)
open Text (trimEnd)

variable {ending : StreamEnd} {bs rest : Bytes} {headers : List String}

/-! ## Past the header lines -/

/-- Header lines that are read to their ends and are not blank. -/
structure AreHeaders (headers : List String) : Prop where
  closed : ∀ line ∈ headers, Closed (Bytes.ofText line)
  filled : ∀ line ∈ headers, trimEnd line.toList ≠ []

/-- No lines are headers. -/
theorem areHeaders_nil : AreHeaders [] := ⟨nofun, nofun⟩

/-- Lines are headers if each of them is ended and not blank. -/
theorem areHeaders_cons_iff {line : String} : AreHeaders (line :: headers) ↔
    (Closed (Bytes.ofText line) ∧ trimEnd line.toList ≠ []) ∧ AreHeaders headers := by
  constructor
  · rintro ⟨hclosed, hfilled⟩
    obtain ⟨hline, hclosed⟩ := List.forall_mem_cons.1 hclosed
    obtain ⟨hline', hfilled⟩ := List.forall_mem_cons.1 hfilled
    exact ⟨⟨hline, hline'⟩, hclosed, hfilled⟩
  · rintro ⟨⟨hline, hline'⟩, hclosed, hfilled⟩
    exact ⟨List.forall_mem_cons.2 ⟨hline, hclosed⟩, List.forall_mem_cons.2 ⟨hline', hfilled⟩⟩

/-- How the loop over the header lines ends, with a length announced and a number of lines left. -/
inductive Stops (input : Input) (length : Nat) : Nat → Except IoError (Option Bytes) → Prop
  /-- There are too many lines. -/
  | full : Stops input length 0 (.ok none)
  | failed {left : Nat} {e : IoError} : input.readLine = .error e →
      Stops input length (left + 1) (.error e)
  /-- The stream has ended in front of the blank line. -/
  | ended {left : Nat} {after : Input} : input.readLine = .ok ("", after) →
      Stops input length (left + 1) (.ok none)
  /-- The stream ends inside a line. -/
  | unclosed {left : Nat} {line : String} {after : Input} : input.readLine = .ok (line, after) →
      ¬ Closed (Bytes.ofText line) → trimEnd line.toList ≠ [] →
      Stops input length (left + 1) (.ok none)
  | unreadable {left : Nat} {line : String} {after : Input} : input.readLine = .ok (line, after) →
      trimEnd line.toList ≠ [] → contentLength? line.toList = some none →
      Stops input length (left + 1) (.ok none)
  | blank {left : Nat} {line : String} {after : Input} {result : Except IoError (Option Bytes)} :
      input.readLine = .ok (line, after) → line ≠ "" → trimEnd line.toList = [] →
      (if maxBodySize < length then .ok none else (after.readExactly length).map some) = result →
      Stops input length (left + 1) result

/-- A line that is not blank is passed if its length can be read. -/
theorem readHeaders_cons {line : String} {length next left : Nat}
    (hclosed : Closed (Bytes.ofText line)) (hfilled : trimEnd line.toList ≠ [])
    (hnext : (contentLength? line.toList).getD (some length) = some next) :
    readHeaders ⟨Bytes.ofText line ++ rest, ending⟩ length (left + 1) =
      readHeaders ⟨rest, ending⟩ next left := by
  have hread : Input.readLine ⟨Bytes.ofText line ++ rest, ending⟩ = .ok (line, ⟨rest, ending⟩) :=
    Input.readLine_eq_ok_iff.2 ⟨rest, rfl, rfl, .inl hclosed⟩
  have hne : line ≠ "" := by
    rintro rfl
    exact hfilled rfl
  rw [readHeaders, hread]
  simp only [if_neg hne, if_neg hfilled, contentLength?_trimEnd]
  cases hlength : contentLength? line.toList with
  | none =>
    rw [hlength, Option.getD_none, Option.some.injEq] at hnext
    rw [hnext]
  | some value =>
    rw [hlength, Option.getD_some] at hnext
    rw [hnext]

/-- All lines are passed whose lengths can be read. -/
theorem readHeaders_append {length next : Nat} (hheaders : AreHeaders headers)
    (hnext : announced length headers = some next) (left : Nat) :
    readHeaders ⟨headers.flatMap Bytes.ofText ++ rest, ending⟩ length (headers.length + left) =
      readHeaders ⟨rest, ending⟩ next left := by
  induction headers generalizing length with
  | nil =>
    obtain rfl : length = next := Option.some.inj hnext
    rw [List.length_nil, Nat.zero_add]
    rfl
  | cons line headers ih =>
    obtain ⟨⟨hclosed, hfilled⟩, hheaders⟩ := areHeaders_cons_iff.1 hheaders
    obtain ⟨mid, hmid, hnext⟩ := Option.bind_eq_some_iff.1 ((announced_cons ..).symm.trans hnext)
    rw [List.flatMap_cons, List.append_assoc, List.length_cons, Nat.add_right_comm,
      readHeaders_cons hclosed hfilled hmid, ih hheaders hnext]

/-- At the end of a stream there are no more lines. -/
theorem readHeaders_eof (length left : Nat) : readHeaders ⟨[], .eof⟩ length left = .ok none := by
  cases left with
  | zero => rfl
  | succ left =>
    have hread : Input.readLine ⟨[], .eof⟩ = .ok ("", ⟨[], .eof⟩) :=
      Input.readLine_eq_ok_iff.2 ⟨[], rfl, rfl, .inr ⟨nofun, rfl, rfl⟩⟩
    rw [readHeaders, hread]
    rfl

/-- Where reading stops, it comes to what `Stops` says. -/
theorem Stops.readHeaders_eq {length left : Nat} {result : Except IoError (Option Bytes)}
    (h : Stops ⟨bs, ending⟩ length left result) :
    readHeaders ⟨bs, ending⟩ length left = result := by
  cases h with
  | full => rfl
  | failed hread => rw [readHeaders, hread]
  | ended hread =>
    rw [readHeaders, hread]
    rfl
  | @unclosed left line after hread hopen hfilled =>
    have hne : line ≠ "" := by
      rintro rfl
      exact hfilled rfl
    obtain ⟨rest, rfl, -, hcuts⟩ := Input.readLine_eq_ok_iff.1 hread
    -- Behind such a line the stream has ended, so whatever it says the loop stops at the next one.
    rcases hcuts with hclosed | ⟨-, rfl, rfl⟩
    · exact absurd hclosed hopen
    · rw [readHeaders, hread]
      simp only [if_neg hne, if_neg hfilled, readHeaders_eof]
      split <;> rfl
  | @unreadable left line after hread hfilled hlength =>
    have hne : line ≠ "" := by
      rintro rfl
      exact hfilled rfl
    rw [readHeaders, hread]
    simp only [if_neg hne, if_neg hfilled, contentLength?_trimEnd, hlength]
  | blank hread hne hblank hresult =>
    rw [readHeaders, hread]
    simp only [if_neg hne, if_pos hblank, hresult]

/-- The loop over the header lines with a result: it passes some lines and stops at the next. -/
structure Passes (bs : Bytes) (ending : StreamEnd) (length lines : Nat) (headers : List String)
    (rest : Bytes) (next left : Nat) (result : Except IoError (Option Bytes)) : Prop where
  bytes_eq : bs = headers.flatMap Bytes.ofText ++ rest
  are_headers : AreHeaders headers
  announced : announced length headers = some next
  lines_eq : lines = headers.length + left
  stops : Stops ⟨rest, ending⟩ next left result

section Passes

variable {length lines next left : Nat} {result : Except IoError (Option Bytes)}

/-- Behind the headers that are passed, reading comes to what it comes to there. -/
theorem Passes.readHeaders_eq (h : Passes bs ending length lines headers rest next left result) :
    readHeaders ⟨bs, ending⟩ length lines = result := by
  rw [h.bytes_eq, h.lines_eq, readHeaders_append h.are_headers h.announced, h.stops.readHeaders_eq]

/-- To stop at once is to pass no headers. -/
theorem Stops.passes (h : Stops ⟨bs, ending⟩ length lines result) :
    Passes bs ending length lines [] bs length lines result :=
  ⟨rfl, areHeaders_nil, rfl, (Nat.zero_add _).symm, h⟩

/-- One more header in front is passed too. -/
theorem Passes.cons {line : String} {mid : Nat} (hclosed : Closed (Bytes.ofText line))
    (hfilled : trimEnd line.toList ≠ [])
    (hmid : (contentLength? line.toList).getD (some length) = some mid)
    (h : Passes bs ending mid lines headers rest next left result) :
    Passes (Bytes.ofText line ++ bs) ending length (lines + 1) (line :: headers) rest next left
      result where
  bytes_eq := by rw [h.bytes_eq, List.flatMap_cons, List.append_assoc]
  are_headers := areHeaders_cons_iff.2 ⟨⟨hclosed, hfilled⟩, h.are_headers⟩
  announced := by rw [announced_cons, hmid, Option.bind_some, h.announced]
  lines_eq := by rw [h.lines_eq, List.length_cons, Nat.add_right_comm]
  stops := h.stops

end Passes

/-- Every loop passes some lines and stops. -/
theorem exists_passes (bs : Bytes) (ending : StreamEnd) (length lines : Nat) :
    ∃ result headers rest next left,
      Passes bs ending length lines headers rest next left result := by
  induction lines generalizing bs length with
  | zero => exact ⟨_, _, _, _, _, Stops.full.passes⟩
  | succ lines ih =>
    cases hread : Input.readLine ⟨bs, ending⟩ with
    | error e => exact ⟨_, _, _, _, _, (Stops.failed hread).passes⟩
    | ok found =>
      obtain ⟨line, after⟩ := found
      by_cases hne : line = ""
      · exact ⟨_, _, _, _, _, (Stops.ended (hne ▸ hread)).passes⟩
      by_cases hblank : trimEnd line.toList = []
      · exact ⟨_, _, _, _, _, (Stops.blank hread hne hblank rfl).passes⟩
      -- Only behind a closed line is there anything to pass on to.
      by_cases hclosed : Closed (Bytes.ofText line)
      · cases hlength : (contentLength? line.toList).getD (some length) with
        | none =>
          have hunreadable : contentLength? line.toList = some none := by
            cases hvalue : contentLength? line.toList with
            | none => simp [hvalue] at hlength
            | some value => simpa [hvalue] using hlength
          exact ⟨_, _, _, _, _, (Stops.unreadable hread hblank hunreadable).passes⟩
        | some mid =>
          obtain ⟨rest, rfl, rfl, -⟩ := Input.readLine_eq_ok_iff.1 hread
          obtain ⟨result, headers, rest', next, left, hpasses⟩ := ih rest mid
          exact ⟨_, _, _, _, _, hpasses.cons hclosed hblank hlength⟩
      · exact ⟨_, _, _, _, _, (Stops.unclosed hread hclosed hblank).passes⟩

/-- What the loop gives tells at what it stops, and behind which lines. -/
theorem readHeaders_eq_iff {length lines : Nat} {result : Except IoError (Option Bytes)} :
    readHeaders ⟨bs, ending⟩ length lines = result ↔
      ∃ headers rest next left, Passes bs ending length lines headers rest next left result := by
  constructor
  · intro h
    obtain ⟨result', headers, rest, next, left, hpasses⟩ := exists_passes bs ending length lines
    obtain rfl : result' = result := hpasses.readHeaders_eq.symm.trans h
    exact ⟨headers, rest, next, left, hpasses⟩
  · rintro ⟨headers, rest, next, left, hpasses⟩
    exact hpasses.readHeaders_eq

/-! ## The body -/

namespace Input

/-- A body is read if there are enough bytes, and then it is the first of them. -/
theorem readExactly_eq_ok_iff {n : Nat} {body : Bytes} :
    readExactly ⟨bs, ending⟩ n = .ok body ↔ body <+: bs ∧ body.length = n := by
  unfold readExactly
  split
  · next hle =>
    rw [Except.ok.injEq]
    constructor
    · rintro rfl
      exact ⟨List.take_prefix n bs, List.length_take_of_le hle⟩
    · rintro ⟨hopens, rfl⟩
      exact (List.prefix_iff_eq_take.1 hopens).symm
  · next hlt =>
    refine iff_of_false nofun ?_
    rintro ⟨hopens, rfl⟩
    exact hlt hopens.length_le

/-- Reading a body fails if there are too few bytes, by the way in which the stream ends. -/
theorem readExactly_eq_error_iff {n : Nat} {e : IoError} :
    readExactly ⟨bs, ending⟩ n = .error e ↔
      bs.length < n ∧ e = failure ending .earlyEof := by
  unfold readExactly
  split
  · next hle => exact iff_of_false nofun fun h => Nat.not_le_of_lt h.1 hle
  · next hlt => simp [Nat.lt_of_not_le hlt, eq_comm]

end Input

/-- A body is read if it is not too large and the stream has all of it. -/
theorem body_eq_some_iff {n : Nat} {body : Bytes} :
    (if maxBodySize < n then .ok none else (Input.readExactly ⟨bs, ending⟩ n).map some) =
        Except.ok (some body) ↔
      n ≤ maxBodySize ∧ body <+: bs ∧ body.length = n := by
  split
  · next hsize => exact iff_of_false nofun fun h => Nat.not_le_of_lt hsize h.1
  · next hsize =>
    rw [and_iff_right (Nat.le_of_not_lt hsize), ← Input.readExactly_eq_ok_iff]
    cases Input.readExactly ⟨bs, ending⟩ n <;> simp [Except.map]

/-- Reading a body fails if it is not too large and the stream does not have all of it. -/
theorem body_eq_error_iff {n : Nat} {e : IoError} :
    (if maxBodySize < n then .ok none else (Input.readExactly ⟨bs, ending⟩ n).map some) =
        Except.error e ↔
      n ≤ maxBodySize ∧ bs.length < n ∧ e = Input.failure ending .earlyEof := by
  split
  · next hsize => exact iff_of_false nofun fun h => Nat.not_le_of_lt hsize h.1
  · next hsize =>
    rw [and_iff_right (Nat.le_of_not_lt hsize), ← Input.readExactly_eq_error_iff]
    cases Input.readExactly ⟨bs, ending⟩ n <;> simp [Except.map]

/-! ## Requests -/

/-- The first line of a request and its header lines: there are two words in the first, something
in every other, and not too many of them. -/
structure IsHead (method target first : String) (headers : List String) : Prop where
  first_closed : Closed (Bytes.ofText first)
  two_words : ∃ others, Text.words first.toList = method.toList :: target.toList :: others
  are_headers : AreHeaders headers
  few : headers.length < maxHeaderLines

/-- The blank line behind the header lines. -/
structure IsBlankLine (ending : StreamEnd) (line : String) (rest : Bytes) : Prop where
  cuts : Cuts ending (Bytes.ofText line) rest
  ne_empty : line ≠ ""
  blank : trimEnd line.toList = []

/-- The streams that carry a request. -/
inductive Carries (input : Input) (request : Request) : Prop
  | mk {first blank : String} {headers : List String} {rest : Bytes} :
      input.rest = (first :: headers).flatMap Bytes.ofText ++ Bytes.ofText blank ++ rest →
      IsHead request.method request.target first headers → IsBlankLine input.ending blank rest →
      Announces headers request.body.length → request.body.length ≤ maxBodySize →
      request.body <+: rest → Carries input request

/-- The lines behind which another is read. -/
inductive ReadsOn : List String → Prop
  | start : ReadsOn []
  | head {method target first : String} {headers : List String} {n : Nat} :
      IsHead method target first headers → Announces headers n → ReadsOn (first :: headers)

/-- The streams for which reading fails. -/
inductive Fails (input : Input) : IoError → Prop
  /-- A line is no text. -/
  | text {front : List String} {line rest : Bytes} : ReadsOn front →
      input.rest = front.flatMap Bytes.ofText ++ line ++ rest → Cuts input.ending line rest →
      (∀ text, line ≠ Bytes.ofText text) → Fails input .invalidUtf8
  /-- The stream fails inside a line. -/
  | line {front : List String} {line : Bytes} : ReadsOn front →
      input.rest = front.flatMap Bytes.ofText ++ line → 0x0A ∉ line → input.ending ≠ .eof →
      Fails input (Input.failure input.ending .earlyEof)
  /-- The stream ends or fails inside the body. -/
  | body {method target first blank : String} {headers : List String} {rest : Bytes} {n : Nat} :
      input.rest = (first :: headers).flatMap Bytes.ofText ++ Bytes.ofText blank ++ rest →
      IsHead method target first headers → IsBlankLine input.ending blank rest →
      Announces headers n → n ≤ maxBodySize → rest.length < n →
      Fails input (Input.failure input.ending .earlyEof)

/-- The loop over the header lines gives a body exactly if it comes to a blank line behind which
the announced bytes stand. -/
theorem readHeaders_eq_some_iff {body : Bytes} :
    readHeaders ⟨bs, ending⟩ 0 maxHeaderLines = .ok (some body) ↔
      ∃ headers blank rest, bs = headers.flatMap Bytes.ofText ++ (Bytes.ofText blank ++ rest) ∧
        AreHeaders headers ∧ headers.length < maxHeaderLines ∧ IsBlankLine ending blank rest ∧
        Announces headers body.length ∧ body.length ≤ maxBodySize ∧ body <+: rest := by
  rw [readHeaders_eq_iff]
  constructor
  · rintro ⟨headers, rest, n, left, rfl, hheaders, hlength, hlines, hstops⟩
    cases hstops with
    | @blank left blank after _ hread hne hblank hresult =>
      obtain ⟨rest, rfl, rfl, hcuts⟩ := Input.readLine_eq_ok_iff.1 hread
      obtain ⟨hsize, hopens, rfl⟩ := body_eq_some_iff.1 hresult
      exact ⟨headers, blank, rest, rfl, hheaders, by omega, ⟨hcuts, hne, hblank⟩,
        announced_eq_some_iff.1 hlength, hsize, hopens⟩
  · rintro ⟨headers, blank, rest, rfl, hheaders, hfew, hblank, hannounces, hsize, hopens⟩
    obtain ⟨left, hleft⟩ := Nat.exists_eq_add_of_lt hfew
    have hread := Input.readLine_eq_ok_iff.2 ⟨rest, rfl, rfl, hblank.cuts⟩
    exact ⟨headers, _, body.length, left + 1, rfl, hheaders, announced_eq_some_iff.2 hannounces,
      hleft, .blank hread hblank.ne_empty hblank.blank (body_eq_some_iff.2 ⟨hsize, hopens, rfl⟩)⟩

/-- The loop over the header lines fails exactly at a line that it comes to, or inside the body. -/
theorem readHeaders_eq_error_iff {e : IoError} :
    readHeaders ⟨bs, ending⟩ 0 maxHeaderLines = .error e ↔
      ∃ headers rest n, bs = headers.flatMap Bytes.ofText ++ rest ∧ AreHeaders headers ∧
        headers.length < maxHeaderLines ∧ Announces headers n ∧
        (Input.readLine ⟨rest, ending⟩ = .error e ∨
          ∃ blank behind, rest = Bytes.ofText blank ++ behind ∧ IsBlankLine ending blank behind ∧
            n ≤ maxBodySize ∧ behind.length < n ∧ e = Input.failure ending .earlyEof) := by
  rw [readHeaders_eq_iff]
  constructor
  · rintro ⟨headers, rest, n, left, rfl, hheaders, hlength, hlines, hstops⟩
    have hannounces := announced_eq_some_iff.1 hlength
    cases hstops with
    | failed hread => exact ⟨headers, rest, n, rfl, hheaders, by omega, hannounces, .inl hread⟩
    | @blank left blank after _ hread hne hblank hresult =>
      obtain ⟨behind, rfl, rfl, hcuts⟩ := Input.readLine_eq_ok_iff.1 hread
      exact ⟨headers, _, n, rfl, hheaders, by omega, hannounces,
        .inr ⟨blank, behind, rfl, ⟨hcuts, hne, hblank⟩, body_eq_error_iff.1 hresult⟩⟩
  · rintro ⟨headers, rest, n, rfl, hheaders, hfew, hannounces, hfails⟩
    obtain ⟨left, hleft⟩ := Nat.exists_eq_add_of_lt hfew
    refine ⟨headers, rest, n, left + 1, rfl, hheaders, announced_eq_some_iff.2 hannounces,
      hleft, ?_⟩
    rcases hfails with hread | ⟨blank, behind, rfl, hblank, hfails⟩
    · exact .failed hread
    · have hread := Input.readLine_eq_ok_iff.2 ⟨behind, rfl, rfl, hblank.cuts⟩
      exact .blank hread hblank.ne_empty hblank.blank (body_eq_error_iff.2 hfails)

/-- Behind a first line with two words the header lines are read. -/
theorem readRequest_of_closed {method target first : String}
    (hclosed : Closed (Bytes.ofText first))
    (hwords : ∃ others, Text.words first.toList = method.toList :: target.toList :: others) :
    readRequest ⟨Bytes.ofText first ++ rest, ending⟩ =
      (readHeaders ⟨rest, ending⟩ 0 maxHeaderLines).map
        (·.map fun body => ⟨method, target, body⟩) := by
  have hread : Input.readLine ⟨Bytes.ofText first ++ rest, ending⟩ = .ok (first, ⟨rest, ending⟩) :=
    Input.readLine_eq_ok_iff.2 ⟨rest, rfl, rfl, .inl hclosed⟩
  rw [readRequest, hread]
  simp only [twoWords?_eq_some_iff.2 hwords]

/-- How reading begins: the first line fails, or no request comes of it, or it is closed and has two
words. -/
theorem readRequest_first (bs : Bytes) (ending : StreamEnd) :
    (∃ e, Input.readLine ⟨bs, ending⟩ = .error e) ∨ readRequest ⟨bs, ending⟩ = .ok none ∨
      ∃ (first : String) (rest : Bytes) (method target : String),
        bs = Bytes.ofText first ++ rest ∧ Closed (Bytes.ofText first) ∧
        ∃ others, Text.words first.toList = method.toList :: target.toList :: others := by
  cases hread : Input.readLine ⟨bs, ending⟩ with
  | error e => exact .inl ⟨e, rfl⟩
  | ok found =>
    obtain ⟨first, after⟩ := found
    refine .inr ?_
    obtain ⟨rest, rfl, rfl, hcuts⟩ := Input.readLine_eq_ok_iff.1 hread
    cases hwords : twoWords? first.toList with
    | none =>
      refine .inl ?_
      rw [readRequest, hread]
      simp only [hwords]
    | some found =>
      obtain ⟨method, target⟩ := found
      rcases hcuts with hclosed | ⟨-, rfl, rfl⟩
      · exact .inr ⟨first, rest, method, target, rfl, hclosed, twoWords?_eq_some_iff.1 hwords⟩
      · refine .inl ?_
        rw [readRequest, hread]
        simp only [hwords, readHeaders_eof]
        rfl

/-- A request is read from exactly the streams that carry it. -/
theorem readRequest_eq_some_iff {input : Input} {request : Request} :
    readRequest input = .ok (some request) ↔ Carries input request := by
  obtain ⟨bs, ending⟩ := input
  obtain ⟨method, target, body⟩ := request
  constructor
  · intro h
    rcases readRequest_first bs ending with ⟨e, hread⟩ | hnone |
      ⟨first, rest, method', target', rfl, hclosed, hwords⟩
    · rw [readRequest, hread] at h
      cases h
    · rw [hnone] at h
      cases h
    · rw [readRequest_of_closed hclosed hwords] at h
      cases hheaders : readHeaders ⟨rest, ending⟩ 0 maxHeaderLines with
      | error e =>
        rw [hheaders] at h
        cases h
      | ok found =>
        rw [hheaders] at h
        obtain ⟨body', rfl, hrequest⟩ := Option.map_eq_some_iff.1 (Except.ok.inj h)
        simp only [Request.mk.injEq] at hrequest
        obtain ⟨rfl, rfl, rfl⟩ := hrequest
        obtain ⟨headers, blank, behind, rfl, hare, hfew, hblank, hannounces, hsize, hopens⟩ :=
          readHeaders_eq_some_iff.1 hheaders
        refine .mk ?_ ⟨hclosed, hwords, hare, hfew⟩ hblank hannounces hsize hopens
        simp only [List.flatMap_cons, List.append_assoc]
  · rintro ⟨hbytes, hhead, hblank, hannounces, hsize, hopens⟩
    simp only [List.flatMap_cons, List.append_assoc] at hbytes
    rw [hbytes, readRequest_of_closed hhead.first_closed hhead.two_words,
      readHeaders_eq_some_iff.2 ⟨_, _, _, rfl, hhead.are_headers, hhead.few, hblank, hannounces,
        hsize, hopens⟩]
    rfl

/-- A line that cannot be read ends the reading, wherever it is come to. -/
theorem readRequest_of_readsOn {front : List String} {e : IoError} (hfront : ReadsOn front)
    (h : Input.readLine ⟨rest, ending⟩ = .error e) :
    readRequest ⟨front.flatMap Bytes.ofText ++ rest, ending⟩ = .error e := by
  cases hfront with
  | start =>
    rw [List.flatMap_nil, List.nil_append, readRequest, h]
  | head hhead hannounces =>
    rw [List.flatMap_cons, List.append_assoc,
      readRequest_of_closed hhead.first_closed hhead.two_words,
      readHeaders_eq_error_iff.2
        ⟨_, rest, _, rfl, hhead.are_headers, hhead.few, hannounces, .inl h⟩]
    rfl

/-- A line that cannot be read behind the lines before makes reading fail. -/
theorem Fails.of_readsOn {front : List String} {e : IoError} (hfront : ReadsOn front)
    (h : Input.readLine ⟨rest, ending⟩ = .error e) :
    Fails ⟨front.flatMap Bytes.ofText ++ rest, ending⟩ e := by
  rcases Input.readLine_eq_error_iff.1 h with ⟨hmem, hending, rfl⟩ |
    ⟨line, behind, rfl, hcuts, htext, rfl⟩
  · exact .line hfront rfl hmem hending
  · exact .text hfront (List.append_assoc ..).symm hcuts htext

/-- Reading fails for exactly the streams that are listed, and with the failure that is listed. -/
theorem readRequest_eq_error_iff {input : Input} {e : IoError} :
    readRequest input = .error e ↔ Fails input e := by
  obtain ⟨bs, ending⟩ := input
  constructor
  · intro h
    rcases readRequest_first bs ending with ⟨e', hread⟩ | hnone |
      ⟨first, rest, method, target, rfl, hclosed, hwords⟩
    · rw [readRequest, hread] at h
      obtain rfl : e' = e := Except.error.inj h
      exact .of_readsOn .start hread
    · rw [hnone] at h
      cases h
    · rw [readRequest_of_closed hclosed hwords] at h
      cases hheaders : readHeaders ⟨rest, ending⟩ 0 maxHeaderLines with
      | ok found =>
        rw [hheaders] at h
        cases h
      | error e' =>
        rw [hheaders] at h
        obtain rfl : e' = e := Except.error.inj h
        obtain ⟨headers, rest, n, rfl, hare, hfew, hannounces, hfails⟩ :=
          readHeaders_eq_error_iff.1 hheaders
        have hhead : IsHead method target first headers := ⟨hclosed, hwords, hare, hfew⟩
        rcases hfails with hread | ⟨blank, behind, rfl, hblank, hsize, hshort, rfl⟩
        · rw [← List.append_assoc, ← List.flatMap_cons]
          exact .of_readsOn (.head hhead hannounces) hread
        · refine .body ?_ hhead hblank hannounces hsize hshort
          simp only [List.flatMap_cons, List.append_assoc]
  · intro h
    cases h with
    | @text front line rest hfront hbytes hcuts htext =>
      rw [show bs = _ from hbytes, List.append_assoc]
      exact readRequest_of_readsOn hfront
        (Input.readLine_eq_error_iff.2 (.inr ⟨line, rest, rfl, hcuts, htext, rfl⟩))
    | @line front line hfront hbytes hmem hending =>
      rw [show bs = _ from hbytes]
      exact readRequest_of_readsOn hfront
        (Input.readLine_eq_error_iff.2 (.inl ⟨hmem, hending, rfl⟩))
    | @body _ _ first blank headers rest n hbytes hhead hblank hannounces hsize hshort =>
      simp only [List.flatMap_cons, List.append_assoc] at hbytes
      rw [hbytes, readRequest_of_closed hhead.first_closed hhead.two_words,
        readHeaders_eq_error_iff.2 ⟨headers, _, n, rfl, hhead.are_headers, hhead.few, hannounces,
          .inr ⟨blank, rest, rfl, hblank, hsize, hshort, rfl⟩⟩]
      rfl

/-- Every stream carries a request, or reading it fails, or it is no request and is answered so. The
request that it carries and the failure are those that are read. -/
theorem readRequest_outcome (input : Input) :
    (∀ request, readRequest input = .ok (some request) ↔ Carries input request) ∧
      (∀ e, readRequest input = .error e ↔ Fails input e) ∧
      ((∃ request, Carries input request) ∨ (∃ e, Fails input e) ∨
        readRequest input = .ok none ∧ ∀ cache now failing,
          serve cache now failing input = (cache, send failing (.plain 400 "Bad Request"))) := by
  refine ⟨fun request => readRequest_eq_some_iff, fun e => readRequest_eq_error_iff, ?_⟩
  cases h : readRequest input with
  | error e => exact .inr (.inl ⟨e, readRequest_eq_error_iff.1 h⟩)
  | ok found =>
    cases found with
    | some request => exact .inl ⟨request, readRequest_eq_some_iff.1 h⟩
    | none =>
      refine .inr (.inr ⟨rfl, fun cache now failing => ?_⟩)
      rw [serve, h]
      rfl

end CacheServer.Http
