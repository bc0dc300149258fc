import CacheServer.Metrics.Basic
import CacheServer.Protocol.Request
import CacheServer.Protocol.Response
import CacheServer.Store.Basic

/-!
# Commands of the native protocol

What one message does to the cache and how it is answered. A message that cannot be read, and one
with an unknown verb, is answered without a verb and does nothing. Any other message is one
command: its fields are checked, the store is used at most once, and there is exactly one response.

The cache is the store together with the counters; both interfaces work on it.
-/

namespace CacheServer

/-- The store and the counters, which all interfaces share. -/
structure Cache where
  store : Store
  metrics : Metrics

namespace Cache

/-- An empty store and counters at zero. -/
def initial : Cache := ⟨.empty, .initial⟩

end Cache

/-- What the clock shows for one command: the instant at which it runs, and the seconds it takes. -/
structure Reading where
  now : Instant
  took : Float

namespace Native

open Protocol

/-- What the connection does after a response. -/
inductive Flow
  | proceed
  | close
  deriving DecidableEq, Repr

def keyMissing : String := "Key is missing"
def valueMissing : String := "Value is missing"
def unexpectedValue : String := "Received unexpected value"
def invalidCommand : String := "Received invalid command"
def notFound : String := "Not found"
def noKeys : String := "No keys"
def pong : String := "PONG"

/-- `SET` stores a value for good; it needs a key and a value that are not empty. -/
def performSet (cache : Cache) (request : Request) : Cache × Response :=
  match request.givenKey with
  | none => (cache, .rejection .set keyMissing none)
  | some key =>
    match request.givenValue with
    | none => (cache, .rejection .set valueMissing (some key))
    | some value =>
      ({ cache with store := cache.store.set key value },
        { Response.success .set with key := some key })

/-- `GET` reads a value; it needs a key and no value. -/
def performGet (cache : Cache) (now : Instant) (request : Request) : Cache × Response :=
  match request.givenKey with
  | none => (cache, .rejection .get keyMissing none)
  | some key =>
    if request.givenValue.isSome then (cache, .rejection .get unexpectedValue (some key))
    else
      let found := cache.store.get now key
      let counted := { cache with metrics := cache.metrics.countGet found.isSome }
      match found with
      | some value => (counted, { Response.success .get with key := some key, value := some value })
      | none => (counted, .rejection .get notFound (some key))

/-- `DELETE` removes a key, present or not; it needs a key and no value. -/
def performDelete (cache : Cache) (now : Instant) (request : Request) : Cache × Response :=
  match request.givenKey with
  | none => (cache, .rejection .delete keyMissing none)
  | some key =>
    if request.givenValue.isSome then (cache, .rejection .delete unexpectedValue (some key))
    else
      ({ cache with store := (cache.store.delete now key).2 },
        { Response.success .delete with key := some key })

/-- `KEYS` lists the live keys with commas between them, and refuses if there are none. -/
def keysResponse (keys : List String) : Response :=
  if keys.isEmpty then .rejection .keys noKeys none
  else { Response.success .keys with value := some (Bytes.ofText (",".intercalate keys)) }

/-- One command. -/
def perform (cache : Cache) (now : Instant) (verb : Verb) (request : Request) : Cache × Response :=
  match verb with
  | .set => performSet cache request
  | .get => performGet cache now request
  | .delete => performDelete cache now request
  | .purge => ({ cache with store := cache.store.purge }, .success .purge)
  | .length =>
    (cache,
      { Response.success .length with
        value := some (Bytes.ofText (Nat.repr (cache.store.size now))) })
  | .keys => (cache, keysResponse (cache.store.keys now))
  | .ping => (cache, { Response.success .ping with message := some pong })
  | .close => (cache, .success .close)

/-- Only `CLOSE` ends the connection. -/
def flowAfter (verb : Verb) : Flow := if verb = .close then .close else .proceed

/-- What one message does: the cache after it, the response, and how the connection goes on. -/
def execute (cache : Cache) (reading : Reading) (message : Bytes) : Cache × Response × Flow :=
  match Request.parse message with
  | .error e =>
    ({ cache with metrics := cache.metrics.countProtocolError },
      .protocolFailure e.clientMessage, .proceed)
  | .ok request =>
    match request.verb with
    | none =>
      ({ cache with metrics := cache.metrics.countInvalidCommand },
        .protocolFailure invalidCommand, .proceed)
    | some verb =>
      let counted := { cache with metrics := cache.metrics.countCommand verb }
      let (after, response) := perform counted reading.now verb request
      ({ after with metrics := after.metrics.observeLatency reading.took },
        response, flowAfter verb)

end Native

end CacheServer
