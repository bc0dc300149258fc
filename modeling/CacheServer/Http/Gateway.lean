import CacheServer.Http.Route
import CacheServer.Http.SetBody
import CacheServer.Json.Write
import CacheServer.Metrics.Exposition
import CacheServer.Native.Command

/-!
# The gateway

Requests over HTTP do to the cache what the commands of the native protocol do. A request is
answered 404 if its path is not served and 405 if its method is not the one of the route, and then
it is not counted. Otherwise it counts as one command and is answered in JSON, with an envelope
that names the command; 400 means that the key or the body was refused and nothing was done.
-/

namespace CacheServer.Http

/-- A request as the gateway sees it. -/
structure Request where
  method : String
  target : String
  body : Bytes
  deriving DecidableEq

/-- An answer. -/
structure Reply where
  status : UInt16
  contentType : String
  body : String
  deriving DecidableEq

def jsonType : String := "application/json; charset=UTF-8"
def metricsType : String := "text/plain; version=0.0.4"
def textType : String := "text/plain"

namespace Reply

/-- An answer in plain text. -/
def plain (status : UInt16) (body : String) : Reply := ⟨status, textType, body⟩

def badRequest : Reply := plain 400 "Bad Request"
def notFound : Reply := plain 404 "Not Found"
def methodNotAllowed : Reply := plain 405 "Method Not Allowed"

end Reply

/-- The envelope of an answer: the command, what there is of a message, a key and a value, and
whether the command succeeded. The value is a JSON text. -/
structure Envelope where
  verb : Verb
  message : Option String
  key : Option String
  value : Option String
  ok : Bool

namespace Envelope

/-- A success with nothing else to say. -/
def success (v : Verb) : Envelope := ⟨v, none, none, none, true⟩

/-- The JSON text of an envelope. -/
def text (e : Envelope) : String :=
  Json.object <|
    [("command", Json.quote e.verb.token)] ++
    (e.message.map fun m => ("message", Json.quote m)).toList ++
    (e.key.map fun k => ("key", Json.quote k)).toList ++
    (e.value.map fun v => ("value", v)).toList ++
    [("ok", if e.ok then "true" else "false")]

/-- The answer with an envelope for its body. Every envelope has a text, since nothing in it can
fail to be written, so there is no answer 500 for one without. -/
def reply (e : Envelope) (status : UInt16) : Reply := ⟨status, jsonType, e.text⟩

end Envelope

/-- Refuses a command. -/
def refuse (v : Verb) (message : String) : Reply :=
  Envelope.reply ⟨v, some message, none, none, false⟩ 400

def keyEmpty : String := "Key cannot be empty"
def bodyUnreadable : String := "Failed to decode request body"
def valueEmpty : String := "Value cannot be empty"

/-- Stores the value of a body under a key, for good. -/
def performSet (cache : Cache) (key : String) (body : Bytes) : Cache × Reply :=
  if key = "" then (cache, refuse .set keyEmpty)
  else
    match SetBody.read? body with
    | none => (cache, refuse .set bodyUnreadable)
    | some value =>
      if value = "" then (cache, refuse .set valueEmpty)
      else
        ({ cache with store := cache.store.set key (Bytes.ofText value) },
          { Envelope.success .set with key := some key }.reply 200)

/-- Reads the value of a key. A key without a live value is no error. -/
def performGet (cache : Cache) (now : Instant) (key : String) : Cache × Reply :=
  if key = "" then (cache, refuse .get keyEmpty)
  else
    let found := cache.store.get now key
    let value := found.map fun v => Json.quote (Text.decodeLossy v)
    ({ cache with metrics := cache.metrics.countGet found.isSome },
      Envelope.reply ⟨.get, none, some key, value, found.isSome⟩ 200)

/-- Removes a key, present or not. -/
def performDelete (cache : Cache) (now : Instant) (key : String) : Cache × Reply :=
  if key = "" then (cache, refuse .delete keyEmpty)
  else
    ({ cache with store := (cache.store.delete now key).2 },
      { Envelope.success .delete with key := some key }.reply 200)

/-- What a route does to the cache, and its answer. -/
def perform (cache : Cache) (now : Instant) (body : Bytes) : Route → Cache × Reply
  | .set key => performSet cache key body
  | .get key => performGet cache now key
  | .delete key => performDelete cache now key
  | .purge => ({ cache with store := cache.store.purge }, (Envelope.success .purge).reply 200)
  | .length =>
    (cache,
      { Envelope.success .length with value := some (Nat.repr (cache.store.size now)) }.reply 200)
  | .keys =>
    (cache,
      { Envelope.success .keys with
        value := some (Json.array ((cache.store.keys now).map Json.quote)) }.reply 200)
  | .ping => (cache, { Envelope.success .ping with message := some Native.pong }.reply 200)
  | .metrics => (cache, ⟨200, metricsType, cache.metrics.exposition⟩)

/-- Counts the command of a route, if it is one. -/
def count (cache : Cache) (route : Route) : Cache :=
  match route.verb? with
  | some v => { cache with metrics := cache.metrics.countCommand v }
  | none => cache

/-- What one request does to the cache, and its answer. -/
def answer (cache : Cache) (now : Instant) (request : Request) : Cache × Reply :=
  match Route.ofTarget? request.target with
  | none => (cache, .notFound)
  | some route =>
    if request.method = route.method then perform (count cache route) now request.body route
    else (cache, .methodNotAllowed)

end CacheServer.Http
