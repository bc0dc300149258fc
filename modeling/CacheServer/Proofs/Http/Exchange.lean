import CacheServer.Http.Exchange
import CacheServer.Proofs.Http.Gateway
import CacheServer.Proofs.Http.Wire

/-!
# One request and its answer

A connection carries one request, which is carried out once, and one answer. `Framed` says how an
answer stands in what is sent: its head ends at the first empty line, and what stands behind that is
the body, as long as the head says. `exchange_outcome` says which answer it is, and that the cache
is left as the request leaves it whether or not the answer can be sent.
-/

namespace CacheServer.Http

open Bytes (crlf AreLines)

/-! ## Answers in bytes -/

namespace Reply

/-- The first line of an answer. -/
def statusLine (reply : Reply) : String :=
  "HTTP/1.1 " ++ Nat.repr reply.status.toNat ++ " " ++ statusText reply.status

/-- The header lines of an answer. -/
def headers (reply : Reply) : List String :=
  ["Content-Type: " ++ reply.contentType,
    "Content-Length: " ++ Nat.repr (Bytes.ofText reply.body).length, "Connection: close"]

/-- How an answer stands in bytes: a head of lines up to the first empty line, in which exactly one
header is for the length of what stands behind it, and that is the body. -/
inductive Framed (reply : Reply) (bytes : Bytes) : Prop
  | mk {head : Bytes} {headers : List String} :
      Bytes.splitFirst (crlf ++ crlf) bytes = some (head, Bytes.ofText reply.body) →
      AreLines ((reply.statusLine :: headers).map Bytes.ofText) head →
      OneLength headers (Bytes.ofText reply.body).length → "Connection: close" ∈ headers →
      "Content-Type: " ++ reply.contentType ∈ headers → Framed reply bytes

/-- What is sent are the lines of the head, an empty line and the body. -/
theorem bytes_eq (reply : Reply) :
    reply.bytes = crlf.intercalate ((reply.statusLine :: reply.headers).map Bytes.ofText) ++
      (crlf ++ crlf) ++ Bytes.ofText reply.body := by
  have hline : Bytes.ofText "\r\n" = crlf := by decide
  have hclose : Bytes.ofText "Connection: close\r\n\r\n" =
      Bytes.ofText "Connection: close" ++ (crlf ++ crlf) :=
    Bytes.ofText_append "Connection: close" "\r\n\r\n"
  have hsize : reply.body.utf8ByteSize = (Bytes.ofText reply.body).length := by
    simp [Bytes.ofText]
  unfold bytes head statusLine headers
  simp only [hsize, Bytes.ofText_append, hline, hclose, List.map_cons, List.map_nil,
    List.intercalate_cons_cons, List.intercalate_singleton, List.append_assoc]

/-- The text of a status is on one line. -/
theorem return_not_mem_statusText (status : UInt16) : 13 ∉ Bytes.ofText (statusText status) := by
  unfold statusText
  split_ifs <;> decide

/-- No line of the head is empty, and there is no carriage return in it. -/
theorem lines_free {reply : Reply} (htype : 13 ∉ Bytes.ofText reply.contentType) :
    ∀ line ∈ (reply.statusLine :: reply.headers).map Bytes.ofText, line ≠ [] ∧ 13 ∉ line := by
  have hline : ∀ {lead rest : String}, lead ≠ "" → 13 ∉ Bytes.ofText lead → 13 ∉ Bytes.ofText rest →
      Bytes.ofText (lead ++ rest) ≠ [] ∧ 13 ∉ Bytes.ofText (lead ++ rest) := by
    intro lead rest hne hlead hrest
    rw [Bytes.ofText_append, List.mem_append, not_or]
    exact ⟨List.append_ne_nil_of_left_ne_nil (mt Bytes.ofText_eq_nil_iff.1 hne) _, hlead, hrest⟩
  have hstatus :
      13 ∉ Bytes.ofText (Nat.repr reply.status.toNat ++ (" " ++ statusText reply.status)) := by
    simp only [Bytes.ofText_append, List.mem_append, not_or]
    exact ⟨Text.return_not_mem_repr _, by decide, return_not_mem_statusText _⟩
  simp only [headers, List.map_cons, List.map_nil, List.forall_mem_cons]
  refine ⟨?_, hline (by decide) (by decide) htype,
    hline (by decide) (by decide) (Text.return_not_mem_repr _), by decide, nofun⟩
  rw [statusLine, String.append_assoc, String.append_assoc]
  exact hline (by decide) (by decide) hstatus

/-- Among the headers of a reply one announces a length, which is that of its body. -/
theorem oneLength_headers (reply : Reply) :
    OneLength reply.headers (Bytes.ofText reply.body).length := by
  have htype : ("Content-Type: " ++ reply.contentType).toList =
      "Content-Type".toList ++ ':' :: (' ' :: reply.contentType.toList) := by simp
  have hlength : ∀ n, ("Content-Length: " ++ Nat.repr n).toList =
      "Content-Length".toList ++ ':' :: ([' '] ++ (Nat.repr n).toList ++ []) := by simp
  have hclose : "Connection: close".toList = "Connection".toList ++ ':' :: " close".toList := by
    decide
  refine ⟨["Content-Type: " ++ reply.contentType], _, ["Connection: close"], rfl, ?_, ?_⟩
  · rw [hlength, isLength_append_cons_iff (by decide),
      Text.trim_append_append (List.forall_mem_singleton.2 (by decide)) Text.isBlank_of_mem_repr
        (by simp)]
    exact ⟨by decide, rfl⟩
  · simp only [List.singleton_append, List.forall_mem_cons]
    refine ⟨fun value h => ?_, fun value h => ?_, nofun⟩
    · rw [htype, isLength_append_cons_iff (by decide)] at h
      exact absurd h.1 (by decide)
    · rw [hclose, isLength_append_cons_iff (by decide)] at h
      exact absurd h.1 (by decide)

/-- An answer is framed, whatever its status and its body are. -/
theorem framed {reply : Reply} (htype : 13 ∉ Bytes.ofText reply.contentType) :
    Framed reply reply.bytes := by
  have hfree := lines_free htype
  have hne : (reply.statusLine :: reply.headers).map Bytes.ofText ≠ [] := List.cons_ne_nil _ _
  have hcut := Bytes.splitFirst_empty_line hne hfree (Bytes.ofText reply.body)
  refine .mk (reply.bytes_eq ▸ hcut) ⟨hne, rfl, fun line hline => ?_⟩ reply.oneLength_headers
    (by simp [headers]) (by simp [headers])
  exact Bytes.crlf_not_infix_of_not_mem (hfree line hline).2

end Reply

/-! ## The exchange -/

/-- How a stream that can be read to its end is answered, and the cache behind it: a request is
carried out, and what is no request is refused. -/
inductive Answers (cache : Cache) (now : Instant) (input : Input) : Cache → Reply → Prop
  | request {request : Request} : Carries input request →
      Answers cache now input (answer cache now request).1 (answer cache now request).2
  | refused : (∀ request, ¬ Carries input request) → (∀ e, ¬ Fails input e) →
      Answers cache now input cache (.plain 400 "Bad Request")

variable {cache after : Cache} {now : Instant} {failing : Bool} {input : Input} {reply : Reply}

/-- If reading fails, nothing is done and nothing is sent. -/
theorem serve_of_fails {e : IoError} (h : Fails input e) :
    serve cache now failing input = (cache, .nothing e) := by
  rw [serve, readRequest_eq_error_iff.2 h]

/-- The answer is sent, and the cache does not depend on that. -/
theorem Answers.serve_eq (h : Answers cache now input after reply) :
    serve cache now failing input = (after, send failing reply) := by
  cases h with
  | request hrequest =>
    rw [serve, readRequest_eq_some_iff.2 hrequest]
    rfl
  | refused hcarries hfails =>
    have hread : readRequest input = .ok none := by
      cases h : readRequest input with
      | error e => exact absurd (readRequest_eq_error_iff.1 h) (hfails e)
      | ok found =>
        cases found with
        | none => rfl
        | some request => exact absurd (readRequest_eq_some_iff.1 h) (hcarries request)
    rw [serve, hread]
    rfl

/-- The content type of an answer is on one line. -/
theorem Answers.return_not_mem (h : Answers cache now input after reply) :
    13 ∉ Bytes.ofText reply.contentType := by
  have htypes : ∀ type ∈ [jsonType, metricsType, textType], 13 ∉ Bytes.ofText type := by decide
  cases h with
  | request => exact htypes _ (contentType_answer ..)
  | refused => exact htypes textType (by simp)

/-- A stream for which reading fails has no answer and no effect. Every other stream has one answer,
which is framed when it is sent; and if it cannot be sent the effect is the same. -/
theorem exchange_outcome (cache : Cache) (now : Instant) (input : Input) :
    (∀ e, Fails input e → ∀ failing, serve cache now failing input = (cache, .nothing e)) ∧
      (∀ after reply, Answers cache now input after reply →
        serve cache now false input = (after, ⟨.ok (), some reply.bytes, true⟩) ∧
        serve cache now true input = (after, .nothing .brokenPipe) ∧
        reply.Framed reply.bytes) ∧
      ((∃ e, Fails input e) ∨ ∃ after reply, Answers cache now input after reply) := by
  refine ⟨fun e h failing => serve_of_fails h, fun after reply h => ?_, ?_⟩
  · rw [h.serve_eq, h.serve_eq]
    exact ⟨rfl, rfl, Reply.framed h.return_not_mem⟩
  · by_cases hfails : ∃ e, Fails input e
    · exact .inl hfails
    · by_cases hcarries : ∃ request, Carries input request
      · obtain ⟨request, hrequest⟩ := hcarries
        exact .inr ⟨_, _, .request hrequest⟩
      · exact .inr ⟨_, _, .refused (not_exists.1 hcarries) (not_exists.1 hfails)⟩

/-- A `GET` of a value that is longer in bytes than in characters and has an empty line in it, and a
`PUT` with a body that is shorter than announced. -/
theorem exchange_outcome_get :
    let cache : Cache := ⟨Store.empty.set "k" (Bytes.ofText "é\r\n\r\n"), .initial⟩
    let get : Input := ⟨Bytes.ofText "GET /GET/k HTTP/1.1\r\n\r\n", .reset⟩
    let put : Input := ⟨Bytes.ofText "PUT /SET/k HTTP/1.1\nContent-Length: 5\n\nabc", .eof⟩
    let answered := answer cache ⟨0⟩ ⟨"GET", "/GET/k", []⟩
    Answers cache ⟨0⟩ get answered.1 answered.2 ∧ Fails put .earlyEof ∧
      serve cache ⟨0⟩ false get = (answered.1, ⟨.ok (), some answered.2.bytes, true⟩) ∧
      serve cache ⟨0⟩ true get = (answered.1, .nothing .brokenPipe) ∧
      answered.2.Framed answered.2.bytes ∧
      serve cache ⟨0⟩ true put = (cache, .nothing .earlyEof) := by
  intro cache get put answered
  have hcarries : Carries get ⟨"GET", "/GET/k", []⟩ := readRequest_eq_some_iff.1 (by decide)
  have hget : Answers cache ⟨0⟩ get answered.1 answered.2 := .request hcarries
  have hput : Fails put .earlyEof := readRequest_eq_error_iff.1 (by decide)
  obtain ⟨hsent, hunsent, hframed⟩ := (exchange_outcome cache ⟨0⟩ get).2.1 _ _ hget
  exact ⟨hget, hput, hsent, hunsent, hframed,
    (exchange_outcome cache ⟨0⟩ put).1 _ hput true⟩

end CacheServer.Http
