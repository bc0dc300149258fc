import CacheServer.Native.Connection
import CacheServer.Proofs.Native.Command

/-!
# What a connection does

The loop of a connection is compared with a list that is laid out beforehand. `Script.messages` are
the messages of a stream: every chunk is cut into pieces of the size of a message. `executions` is
what comes of them if all are executed one after the other, and `handled` cuts that list off behind
the first `CLOSE` and behind the reply that fails to be written. `serve_outcome` says that the
connection does what this list says, no more and no less.

The counters of bytes are kept apart: no command reads or writes them (`execute_withTraffic`), so a
run with counting is a run without it.
-/

namespace CacheServer.Native

open Protocol

/-! ## The messages of a stream -/

namespace Script

variable {limit : MessageLimit} {chunk : Bytes}

/-- The consecutive pieces of a chunk that are as long as a message may be; the last one may be
shorter. -/
def pieces (limit : MessageLimit) (chunk : Bytes) : List Bytes :=
  (List.range ((chunk.length + limit.size - 1) / limit.size)).map fun i =>
    (chunk.drop (i * limit.size)).take limit.size

/-- An empty chunk has no pieces. -/
theorem pieces_nil : pieces limit [] = [] := by
  have hpos := limit.pos
  rw [pieces, List.length_nil, Nat.zero_add, Nat.div_eq_of_lt (by omega), List.range_zero,
    List.map_nil]

/-- A chunk with anything in it is cut behind its first piece. -/
theorem pieces_of_ne_nil (h : chunk ≠ []) :
    pieces limit chunk = chunk.take limit.size :: pieces limit (chunk.drop limit.size) := by
  have hpos := limit.pos
  have hlength : 0 < chunk.length := List.length_pos_iff.2 h
  have hcount : (chunk.length + limit.size - 1) / limit.size =
      ((chunk.drop limit.size).length + limit.size - 1) / limit.size + 1 := by
    rw [List.length_drop,
      show chunk.length + limit.size - 1 = chunk.length - 1 + limit.size by omega,
      Nat.add_div_right _ hpos]
    congr 1
    rcases Nat.lt_or_ge limit.size chunk.length with hlt | hge
    · rw [show chunk.length - limit.size + limit.size - 1 = chunk.length - 1 by omega]
    · rw [Nat.div_eq_of_lt (by omega), Nat.div_eq_of_lt (by omega)]
  rw [pieces, hcount, List.range_succ_eq_map]
  simp [pieces, Function.comp_def, Nat.succ_mul, Nat.add_comm]

example : pieces ⟨3, by decide⟩ [1, 2, 3, 4, 5, 6, 7] = [[1, 2, 3], [4, 5, 6], [7]] := by decide

/-- The messages that a stream delivers. -/
def messages (limit : MessageLimit) (chunks : List Bytes) : List Bytes :=
  chunks.flatMap (pieces limit)

/-- A read takes the first of the messages. -/
theorem messages_eq (chunks : List Bytes) :
    messages limit chunks =
      match next? limit chunks with
      | none => []
      | some (message, left) => message :: messages limit left := by
  fun_induction next? limit chunks with
  | case1 => rfl
  | case2 rest ih => rw [← ih, messages, List.flatMap_cons, pieces_nil, List.nil_append, messages]
  | case3 chunk rest hne =>
    rw [messages, List.flatMap_cons, pieces_of_ne_nil hne]
    cases hleft : chunk.drop limit.size with
    | nil => simp [pieces_nil, messages]
    | cons => simp [messages]

end Script

/-! ## Executing messages one after the other -/

/-- What came of one message of a run. -/
structure Execution where
  /-- The messages in front of it. -/
  number : Nat
  message : Bytes
  response : Response
  flow : Flow

/-- The messages executed one after the other, each on the cache that the one before has left and
at the reading of its number; the first has the number `first`. -/
def executions (clock : Nat → Reading) (cache : Cache) (first : Nat) : List Bytes → List Execution
  | [] => []
  | message :: rest =>
    let (after, response, flow) := execute cache (clock first) message
    ⟨first, message, response, flow⟩ :: executions clock after (first + 1) rest

/-- The cache after the messages of a run. -/
def afterAll (clock : Nat → Reading) (cache : Cache) (run : List Execution) : Cache :=
  run.foldl (fun c e => (execute c (clock e.number) e.message).1) cache

/-- Whether the loop ends with a message: it closes the connection, or its reply fails to be
written. -/
def Execution.ends (failing : Option Nat) (e : Execution) : Bool :=
  e.flow = .close || failing = some e.number

/-- The part of a run that a connection handles: up to the first message that ends it, with that
message, or all of it. -/
def handled (failing : Option Nat) (run : List Execution) : List Execution :=
  run.take (run.findIdx (·.ends failing) + 1)

/-- The replies of a run that are written. -/
def delivered (failing : Option Nat) (run : List Execution) : List Bytes :=
  (run.filter (failing ≠ some ·.number)).map (·.response.encode)

/-- Nothing is handled behind a message that ends the connection. -/
theorem handled_cons_of_ends {failing : Option Nat} {e : Execution} {run : List Execution}
    (h : e.ends failing = true) : handled failing (e :: run) = [e] := by
  rw [handled, List.findIdx_cons, h, cond_true, List.take_succ_cons, List.take_zero]

/-- Behind a message that does not end the connection the others are handled. -/
theorem handled_cons_of_not_ends {failing : Option Nat} {e : Execution} {run : List Execution}
    (h : e.ends failing = false) : handled failing (e :: run) = e :: handled failing run := by
  rw [handled, List.findIdx_cons, h, cond_false, List.take_succ_cons, handled]

/-- What came of a message of a run is what comes of executing it. -/
theorem exists_execute_of_mem_executions {clock : Nat → Reading} {messages : List Bytes}
    {e : Execution} : ∀ {cache : Cache} {first : Nat}, e ∈ executions clock cache first messages →
      ∃ c reading, (execute c reading e.message).2 = (e.response, e.flow) := by
  induction messages with
  | nil => exact nofun
  | cons message rest ih =>
    intro cache first h
    rcases List.mem_cons.1 h with rfl | hrest
    · exact ⟨cache, clock first, rfl⟩
    · exact ih hrest

/-! ## The bytes that are counted -/

/-- A cache with other counts of the bytes that came in and went out. -/
def withTraffic (cache : Cache) (read written : UInt64) : Cache :=
  { cache with metrics := { cache.metrics with bytesRead := read, bytesWritten := written } }

/-- The counts of bytes that were set last count. -/
theorem withTraffic_withTraffic (cache : Cache) (read written read' written' : UInt64) :
    withTraffic (withTraffic cache read written) read' written' =
      withTraffic cache read' written' := rfl

/-- The bytes that have come in are those that were set. -/
@[simp] theorem bytesRead_withTraffic (cache : Cache) (read written : UInt64) :
    (withTraffic cache read written).metrics.bytesRead = read := rfl

/-- The bytes that have gone out are those that were set. -/
@[simp] theorem bytesWritten_withTraffic (cache : Cache) (read written : UInt64) :
    (withTraffic cache read written).metrics.bytesWritten = written := rfl

/-- `GET` does not depend on the counts of bytes, and leaves them. -/
theorem performGet_withTraffic (cache : Cache) (read written : UInt64) (now : Instant)
    (r : Request) : performGet (withTraffic cache read written) now r =
      (withTraffic (performGet cache now r).1 read written, (performGet cache now r).2) := by
  have hstore : (withTraffic cache read written).store = cache.store := rfl
  unfold performGet
  cases r.givenKey with
  | none => rfl
  | some key =>
    simp only [hstore]
    split
    · rfl
    · cases cache.store.get now key <;> rfl

/-- No command reads or writes the counts of bytes. -/
theorem perform_withTraffic (cache : Cache) (read written : UInt64) (now : Instant) (v : Verb)
    (r : Request) : perform (withTraffic cache read written) now v r =
      (withTraffic (perform cache now v r).1 read written, (perform cache now v r).2) := by
  cases v with
  | set =>
    simp only [perform, performSet]
    cases r.givenKey with
    | none => rfl
    | some key => cases r.givenValue <;> rfl
  | get => exact performGet_withTraffic cache read written now r
  | delete =>
    simp only [perform, performDelete]
    cases r.givenKey with
    | none => rfl
    | some key => dsimp only; split <;> rfl
  | purge | length | keys | ping | close => rfl

/-- No message reads or writes the counts of bytes when it is executed. -/
theorem execute_withTraffic (cache : Cache) (read written : UInt64) (reading : Reading)
    (message : Bytes) : execute (withTraffic cache read written) reading message =
      (withTraffic (execute cache reading message).1 read written,
        (execute cache reading message).2) := by
  unfold execute
  cases Request.parse message with
  | error e => rfl
  | ok r =>
    dsimp only
    cases r.verb with
    | none => rfl
    | some v =>
      have hcounted : Cache.mk (withTraffic cache read written).store
          ((withTraffic cache read written).metrics.countCommand v) =
          withTraffic ⟨cache.store, cache.metrics.countCommand v⟩ read written := rfl
      simp only [hcounted, perform_withTraffic]
      rfl

/-- An exchange is the execution of the message with its bytes and those of its response counted.
An empty buffer is left empty, so what is sent is this response alone. -/
theorem exchange_empty (cache : Cache) (reading : Reading) (message : Bytes) :
    exchange cache reading .empty message =
      let (after, response, flow) := execute cache reading message
      (withTraffic after (cache.metrics.bytesRead + UInt64.ofNat message.length)
          (cache.metrics.bytesWritten + UInt64.ofNat response.encode.length),
        response.encode, .empty, flow) := by
  have hreceived : { cache with metrics := cache.metrics.countRead message.length } =
      withTraffic cache (cache.metrics.bytesRead + UInt64.ofNat message.length)
        cache.metrics.bytesWritten := rfl
  simp only [exchange, hreceived, execute_withTraffic]
  rfl

/-- A run does not depend on the counts of bytes it starts with. -/
theorem executions_withTraffic {clock : Nat → Reading} {messages : List Bytes}
    (read written : UInt64) : ∀ {cache : Cache} {first : Nat},
      executions clock (withTraffic cache read written) first messages =
        executions clock cache first messages := by
  induction messages with
  | nil => exact rfl
  | cons message rest ih =>
    intro cache first
    simp only [executions, execute_withTraffic, ih]

/-- What messages come to does not depend on the counts of bytes. -/
theorem afterAll_withTraffic {clock : Nat → Reading} {run : List Execution}
    (read written : UInt64) : ∀ {cache : Cache},
      afterAll clock (withTraffic cache read written) run =
        withTraffic (afterAll clock cache run) read written := by
  induction run with
  | nil => exact rfl
  | cons e rest ih =>
    intro cache
    simp only [afterAll, List.foldl_cons, execute_withTraffic] at ih ⊢
    exact ih

/-- The cache after the messages of a run, with their bytes and those of their responses
counted. -/
def afterTraffic (clock : Nat → Reading) (cache : Cache) (run : List Execution) : Cache :=
  withTraffic (afterAll clock cache run)
    (cache.metrics.bytesRead + UInt64.ofNat (run.map (·.message)).flatten.length)
    (cache.metrics.bytesWritten + UInt64.ofNat (run.map (·.response.encode)).flatten.length)

/-- No messages change nothing. -/
@[simp] theorem afterTraffic_nil (clock : Nat → Reading) (cache : Cache) :
    afterTraffic clock cache [] = cache := by
  simp [afterTraffic, afterAll, withTraffic]

/-- The bytes of the first message are counted before those of the others. -/
theorem afterTraffic_cons (clock : Nat → Reading) (cache : Cache) (e : Execution)
    (run : List Execution) : afterTraffic clock cache (e :: run) =
      afterTraffic clock (withTraffic (execute cache (clock e.number) e.message).1
        (cache.metrics.bytesRead + UInt64.ofNat e.message.length)
        (cache.metrics.bytesWritten + UInt64.ofNat e.response.encode.length)) run := by
  simp only [afterTraffic, afterAll_withTraffic, withTraffic_withTraffic, bytesRead_withTraffic,
    bytesWritten_withTraffic, List.map_cons, List.flatten_cons, List.length_append,
    UInt64.ofNat_add, UInt64.add_assoc]
  rfl

/-! ## The loop -/

variable {limit : MessageLimit} {clock : Nat → Reading} {failing : Option Nat} {ending : StreamEnd}

/-- The loop ends when everything has been read. -/
theorem serveFrom_of_next?_eq_none {chunks replies : List Bytes} {cache : Cache}
    {buffer : ReplyBuffer} {written : Nat} (h : Script.next? limit chunks = none) :
    serveFrom limit clock failing ending cache buffer written replies chunks =
      ⟨cache, resultAtEnd ending, replies.reverse, false⟩ := by
  unfold serveFrom
  split
  · rfl
  · next hnext => cases h.symm.trans hnext

/-- One message of the loop, with nothing in the buffer before it. -/
theorem serveFrom_of_next?_eq_some {chunks left replies : List Bytes} {cache : Cache}
    {written : Nat} {message : Bytes} (h : Script.next? limit chunks = some (message, left)) :
    serveFrom limit clock failing ending cache .empty written replies chunks =
      let (executed, response, flow) := execute cache (clock written) message
      let after := withTraffic executed (cache.metrics.bytesRead + UInt64.ofNat message.length)
        (cache.metrics.bytesWritten + UInt64.ofNat response.encode.length)
      if failing = some written then ⟨after, .error .brokenPipe, replies.reverse, false⟩
      else if flow = .close then ⟨after, .ok (), (response.encode :: replies).reverse, true⟩
      else serveFrom limit clock failing ending after .empty (written + 1)
        (response.encode :: replies) left := by
  rw [serveFrom]
  split
  · next hnext => cases h.symm.trans hnext
  · next hnext =>
    cases h.symm.trans hnext
    rw [exchange_empty]
    rcases execute cache (clock written) message with ⟨executed, response, flow⟩
    cases flow with
    | proceed => rfl
    | close => rfl

/-- Whether a message of a run closes the connection; it does only once its reply is written. -/
def closes (failing : Option Nat) (run : List Execution) : Bool :=
  run.any fun e => e.flow = .close && failing ≠ some e.number

/-- Whether a reply of a run fails to be written. -/
def breaks (failing : Option Nat) (run : List Execution) : Bool :=
  run.any fun e => failing = some e.number

/-- The end of a stream is an error if it was broken off. -/
theorem resultAtEnd_eq_error_iff : (∃ e, resultAtEnd ending = .error e) ↔ ending = .reset := by
  cases ending <;> simp [resultAtEnd]

/-- What a connection has done after the messages of a run, if these are all it handles. -/
def outcome (clock : Nat → Reading) (failing : Option Nat) (ending : StreamEnd) (cache : Cache)
    (replies : List Bytes) (run : List Execution) : Served where
  cache := afterTraffic clock cache run
  result :=
    if breaks failing run then .error .brokenPipe
    else if closes failing run then .ok ()
    else resultAtEnd ending
  replies := replies.reverse ++ delivered failing run
  shutDown := closes failing run

/-- A message that ends nothing is counted and answered, and the loop goes on behind it. -/
theorem outcome_cons_of_not_ends {cache : Cache} {replies : List Bytes} {e : Execution}
    {run : List Execution} (h : e.ends failing = false) :
    outcome clock failing ending cache replies (e :: run) =
      outcome clock failing ending
        (withTraffic (execute cache (clock e.number) e.message).1
          (cache.metrics.bytesRead + UInt64.ofNat e.message.length)
          (cache.metrics.bytesWritten + UInt64.ofNat e.response.encode.length))
        (e.response.encode :: replies) run := by
  obtain ⟨hflow, hwrite⟩ : e.flow ≠ .close ∧ failing ≠ some e.number := by
    simpa [Execution.ends] using h
  simp [outcome, breaks, closes, delivered, afterTraffic_cons, hflow, hwrite]

/-- The loop handles the messages up to the first that ends it, and does what these do. The
induction is on the messages; the buffer is empty in front of each of them. -/
theorem serveFrom_eq_outcome {messages : List Bytes} :
    ∀ {chunks : List Bytes} {cache : Cache} {written : Nat} {replies : List Bytes},
      Script.messages limit chunks = messages →
      serveFrom limit clock failing ending cache .empty written replies chunks =
        outcome clock failing ending cache replies
          (handled failing (executions clock cache written messages)) := by
  induction messages with
  | nil =>
    intro chunks cache written replies h
    rw [Script.messages_eq] at h
    cases hnext : Script.next? limit chunks with
    | some read => simp [hnext] at h
    | none =>
      rw [serveFrom_of_next?_eq_none hnext]
      simp [outcome, breaks, closes, executions, handled, delivered]
  | cons message rest ih =>
    intro chunks cache written replies h
    rw [Script.messages_eq] at h
    cases hnext : Script.next? limit chunks with
    | none => simp [hnext] at h
    | some read =>
      obtain ⟨message', left⟩ := read
      simp only [hnext, List.cons.injEq] at h
      obtain ⟨rfl, hleft⟩ := h
      rw [serveFrom_of_next?_eq_some hnext, executions]
      rcases hexecute : execute cache (clock written) message' with ⟨executed, response, flow⟩
      dsimp only
      by_cases hwrite : failing = some written
      · rw [if_pos hwrite, handled_cons_of_ends (by simp [Execution.ends, hwrite])]
        simp [outcome, breaks, closes, delivered, afterTraffic_cons, hexecute, hwrite]
      · rw [if_neg hwrite]
        cases flow with
        | close =>
          rw [handled_cons_of_ends (by simp [Execution.ends])]
          simp [outcome, breaks, closes, delivered, afterTraffic_cons, hexecute, hwrite]
        | proceed =>
          have hgoes : (Execution.mk written message' response .proceed).ends failing = false := by
            simp [Execution.ends, hwrite]
          rw [if_neg nofun, handled_cons_of_not_ends hgoes, outcome_cons_of_not_ends hgoes,
            ih hleft, hexecute, executions_withTraffic]

/-! ## What it comes to -/

/-- A message closes the connection exactly if it is answered as a `CLOSE` is. -/
theorem flow_execute_eq_close_iff (cache : Cache) (reading : Reading) (message : Bytes) :
    (execute cache reading message).2.2 = .close ↔
      (execute cache reading message).2.1.encode = (Response.success .close).encode := by
  have hunread : ∀ text, (Response.protocolFailure text).encode ≠
      (Response.success .close).encode := fun text h => nomatch Response.verb_eq_of_encode_eq h
  unfold execute
  cases Request.parse message with
  | error e => exact iff_of_false nofun (hunread _)
  | ok r =>
    dsimp only
    cases r.verb with
    | none => exact iff_of_false nofun (hunread _)
    | some v =>
      dsimp only
      constructor
      · intro h
        have hclose : v = .close := by
          by_contra hne
          simp [flowAfter, hne] at h
        subst hclose
        rfl
      · intro h
        have hverb := Response.verb_eq_of_encode_eq h
        rw [verb_perform] at hverb
        cases hverb
        rfl

/-- The stream is shut down exactly if the reply to a `CLOSE` is among those written. -/
theorem closes_iff {run : List Execution} (h : ∀ e ∈ run, ∃ c reading,
      (execute c reading e.message).2 = (e.response, e.flow)) :
    closes failing run = true ↔ (Response.success .close).encode ∈ delivered failing run := by
  have hclose : ∀ e ∈ run, e.flow = .close ↔
      e.response.encode = (Response.success .close).encode := by
    intro e he
    obtain ⟨c, reading, hexecute⟩ := h e he
    have hiff := flow_execute_eq_close_iff c reading e.message
    rw [hexecute] at hiff
    exact hiff
  simp only [closes, delivered, List.any_eq_true, List.mem_map, List.mem_filter, Bool.and_eq_true,
    decide_eq_true_eq]
  constructor
  · rintro ⟨e, he, hflow, hwrite⟩
    exact ⟨e, ⟨he, hwrite⟩, (hclose e he).1 hflow⟩
  · rintro ⟨e, ⟨he, hwrite⟩, hreply⟩
    exact ⟨e, he, (hclose e he).2 hreply, hwrite⟩

/-- A connection handles the messages of its stream in order, up to the first that closes it or
whose reply fails to be written, or all of them. What it leaves is the cache after executing these,
with their bytes and those of their responses counted; each reply that was written is one response.
The stream is shut down exactly if a reply to `CLOSE` was written, and the result is an error
exactly if a reply fails to be written, or the stream breaks off before either happens. -/
theorem serve_outcome (limit : MessageLimit) (clock : Nat → Reading) (failing : Option Nat)
    (script : Script) (cache : Cache) :
    let run := executions clock cache 0 (script.chunks.flatMap (Script.pieces limit))
    let done := handled failing run
    let served := serve limit clock failing script cache
    served.cache = withTraffic
        (done.foldl (fun c e => (execute c (clock e.number) e.message).1) cache)
        (cache.metrics.bytesRead + UInt64.ofNat (done.map (·.message)).flatten.length)
        (cache.metrics.bytesWritten + UInt64.ofNat (done.map (·.response.encode)).flatten.length) ∧
      served.replies = (done.filter (failing ≠ some ·.number)).map (·.response.encode) ∧
      (served.shutDown = true ↔ (Response.success .close).encode ∈ served.replies) ∧
      served.result =
        (if ∃ e ∈ done, failing = some e.number then .error .brokenPipe
        else if served.shutDown then .ok () else resultAtEnd script.ending) ∧
      ((∃ e, served.result = .error e) ↔ (∃ e ∈ done, failing = some e.number) ∨
        served.shutDown = false ∧ script.ending = .reset) := by
  intro run done served
  have hserved : served = outcome clock failing script.ending cache [] done :=
    serveFrom_eq_outcome rfl
  have hexecuted : ∀ e ∈ done, ∃ c reading,
      (execute c reading e.message).2 = (e.response, e.flow) := fun e he =>
    exists_execute_of_mem_executions (List.mem_of_mem_take he)
  have hresult : served.result = if ∃ e ∈ done, failing = some e.number then .error .brokenPipe
      else if served.shutDown then .ok () else resultAtEnd script.ending := by
    rw [hserved]
    simp only [outcome, breaks, List.any_eq_true, decide_eq_true_eq]
  refine ⟨?_, ?_, ?_, hresult, ?_⟩
  · rw [hserved]
    rfl
  · rw [hserved]
    rfl
  · rw [hserved]
    exact closes_iff hexecuted
  · rw [hresult]
    split
    · next hbreaks => exact iff_of_true ⟨_, rfl⟩ (.inl hbreaks)
    · next hbreaks =>
      rw [or_iff_right hbreaks]
      cases served.shutDown with
      | true => simp
      | false => simpa using resultAtEnd_eq_error_iff

end CacheServer.Native
