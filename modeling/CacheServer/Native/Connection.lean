import CacheServer.Native.Command

/-!
# The connection loop

A connection is strict request and response: one read is one message, it is executed, and its
response is written before the next read. The loop ends with the stream, with a transport error,
after a `CLOSE`, or when the server cancels the connection.

The transport is a script: the chunks that arrive and how the stream ends. A read delivers at most
one chunk, and of a chunk at most as many bytes as a message may have; the rest of the chunk is
left for the next read (`Script.next?`). A write may be made to fail, by its index. One reply buffer
serves all messages of a connection; each exchange takes out what it has written.
-/

namespace CacheServer

/-- How a stream ends once everything in it has been read. -/
inductive StreamEnd
  /-- The peer has finished. -/
  | eof
  /-- The peer has broken the connection off. -/
  | reset
  /-- Nothing more comes, until the server cancels the connection. -/
  | hang
  deriving DecidableEq, Repr

namespace Native

open Protocol

/-- The largest number of bytes that one read takes, at least one. -/
structure MessageLimit where
  size : Nat
  pos : 0 < size

namespace MessageLimit

/-- The limit for a setting, where zero counts as one. -/
def ofNat (n : Nat) : MessageLimit := ⟨max n 1, Nat.le_max_right n 1⟩

/-- One mebibyte. -/
def standard : MessageLimit := ⟨1048576, by decide⟩

end MessageLimit

/-- The incoming side of a transport. -/
structure Script where
  chunks : List Bytes
  ending : StreamEnd

namespace Script

/-- What is left to read, counting every chunk once more. -/
def weight : List Bytes → Nat
  | [] => 0
  | chunk :: rest => chunk.length + 1 + weight rest

/-- The bytes of the next read and what is left behind them. Chunks with nothing in them are
skipped. -/
def next? (limit : MessageLimit) : List Bytes → Option (Bytes × List Bytes)
  | [] => none
  | [] :: rest => next? limit rest
  | chunk :: rest =>
    some (chunk.take limit.size,
      match chunk.drop limit.size with
      | [] => rest
      | left => left :: rest)

/-- A read leaves less to read. -/
theorem weight_of_next? {limit : MessageLimit} {chunks left : List Bytes} {message : Bytes}
    (h : next? limit chunks = some (message, left)) : weight left < weight chunks := by
  fun_induction next? limit chunks with
  | case1 => exact absurd h (by simp)
  | case2 rest ih => have := ih h; simp only [weight] at *; omega
  | case3 chunk rest nonempty =>
    simp only [Option.some.injEq, Prod.mk.injEq] at h
    obtain ⟨-, rfl⟩ := h
    have := limit.pos
    have : 0 < chunk.length := by
      cases chunk with
      | nil => exact absurd rfl nonempty
      | cons => simp
    have : (chunk.drop limit.size).length = chunk.length - limit.size := List.length_drop
    split <;> simp only [weight] <;> omega

end Script

/-- What a connection has done when its loop ends. -/
structure Served where
  cache : Cache
  result : Except IoError Unit
  /-- The replies that were written, first to last. -/
  replies : List Bytes
  /-- Whether the server has shut the stream down. -/
  shutDown : Bool

/-- The result of a loop that has read everything. -/
def resultAtEnd : StreamEnd → Except IoError Unit
  | .eof => .ok ()
  | .reset => .error .connectionReset
  | .hang => .ok ()

/-- What one message does, with the bytes that come in and go out counted. The response is written
behind what the reply buffer holds, and all of that is taken out for sending. The result is the
cache after the message, what is sent, the buffer that is left, and how the connection goes on. -/
def exchange (cache : Cache) (reading : Reading) (buffer : ReplyBuffer) (message : Bytes) :
    Cache × Bytes × ReplyBuffer × Flow :=
  let received := { cache with metrics := cache.metrics.countRead message.length }
  let (executed, response, flow) := execute received reading message
  let (sent, emptied) := (buffer.write response).take
  ({ executed with metrics := executed.metrics.countWritten sent.length }, sent, emptied, flow)

/-- The loop over what is left of the chunks, with one reply buffer for all messages. `written`
counts the replies so far, which are kept in reverse; the message with this number is executed at
the reading `clock written`, and its reply fails to be written if `failing` names it. -/
def serveFrom (limit : MessageLimit) (clock : Nat → Reading) (failing : Option Nat)
    (ending : StreamEnd) (cache : Cache) (buffer : ReplyBuffer) (written : Nat)
    (replies : List Bytes) (chunks : List Bytes) : Served :=
  match _read : Script.next? limit chunks with
  | none => ⟨cache, resultAtEnd ending, replies.reverse, false⟩
  | some (message, left) =>
    let (after, reply, emptied, flow) := exchange cache (clock written) buffer message
    if failing = some written then ⟨after, .error .brokenPipe, replies.reverse, false⟩
    else match flow with
      | .close => ⟨after, .ok (), (reply :: replies).reverse, true⟩
      | .proceed =>
        serveFrom limit clock failing ending after emptied (written + 1) (reply :: replies) left
termination_by Script.weight chunks
decreasing_by exact Script.weight_of_next? _read

/-- Serves one connection. -/
def serve (limit : MessageLimit) (clock : Nat → Reading) (failing : Option Nat) (script : Script)
    (cache : Cache) : Served :=
  serveFrom limit clock failing script.ending cache .empty 0 [] script.chunks

end Native

end CacheServer
