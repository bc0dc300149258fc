import CacheServer.Http.Wire

/-!
# One exchange

A connection of the gateway carries one request and its answer. The request is carried out before
the answer is sent, so it has its effect even if sending fails; if reading fails nothing is done
and nothing is sent.
-/

namespace CacheServer.Http

/-- How sending an answer has gone. -/
structure Sent where
  result : Except IoError Unit
  reply : Option Bytes
  /-- Whether the server has shut the stream down. -/
  shutDown : Bool

/-- Sends an answer; `failing` says that the write fails. -/
def send (failing : Bool) (reply : Reply) : Sent :=
  if failing then ⟨.error .brokenPipe, none, false⟩
  else ⟨.ok (), some reply.bytes, true⟩

/-- Nothing is sent when reading has failed. -/
def Sent.nothing (e : IoError) : Sent := ⟨.error e, none, false⟩

/-- The reply to what was read, and the cache after it. -/
def respond (cache : Cache) (now : Instant) : Option Request → Cache × Reply
  | none => (cache, .badRequest)
  | some request => answer cache now request

/-- Serves one connection. -/
def serve (cache : Cache) (now : Instant) (failing : Bool) (input : Input) : Cache × Sent :=
  match readRequest input with
  | .error e => (cache, .nothing e)
  | .ok request =>
    let (after, reply) := respond cache now request
    (after, send failing reply)

end CacheServer.Http
