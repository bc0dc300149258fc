import CacheServer.Error
import CacheServer.Protocol.Field
import CacheServer.Text.Utf8
import CacheServer.Verb

/-!
# Responses

A response is a header with an optional verb and a status, and up to three fields. It is written
with the fields in the order message, key, value, and an empty field is left out
(`Response.encode`). It is read with the fields in any order; of several fields of one name the
last counts (`Response.parse`).

A `ReplyBuffer` collects the responses that have been written until they are taken for sending.
-/

namespace CacheServer.Protocol

/-- A message from the server. -/
structure Response where
  /-- The verb that is answered; none if the request could not be attributed to one. -/
  verb : Option Verb
  ok : Bool
  message : Option String
  key : Option String
  value : Option Bytes
  deriving DecidableEq

namespace Response

/-- A success without fields. -/
def success (v : Verb) : Response := ⟨some v, true, none, none, none⟩

/-- A failure of a command, with the key it was given, if any. -/
def rejection (v : Verb) (message : String) (key : Option String) : Response :=
  ⟨some v, false, some message, key, none⟩

/-- A failure that belongs to no verb. -/
def protocolFailure (message : String) : Response := ⟨none, false, some message, none, none⟩

/-- The status token. -/
def status (ok : Bool) : Bytes := Bytes.ofText (if ok then "OK" else "NOT_OK")

/-- The line of a field, or nothing if the field is absent or empty. -/
def optionalLine (name : Bytes) (value : Option Bytes) : Bytes :=
  match value with
  | none => []
  | some v => if v = [] then [] else fieldLine name v

/-- The message for a response. -/
def encode (r : Response) : Bytes :=
  token ++ (r.verb.map fun v => space :: v.bytes).getD [] ++ space :: status r.ok ++ Bytes.crlf ++
    optionalLine messageName (r.message.map Bytes.ofText) ++
    optionalLine keyName (r.key.map Bytes.ofText) ++
    optionalLine valueName r.value

/-- The meaning of a status token. -/
def readStatus (bs : Bytes) : Except ProtocolError Bool :=
  if bs = status true then .ok true
  else if bs = status false then .ok false
  else .error .malformedResponse

/-- Reads the header: a status, or a verb and a status, behind the protocol token. -/
def readHeader (header : Bytes) : Except ProtocolError Response :=
  match Bytes.splitAt space header with
  | first :: others =>
    if first ≠ token then .error .unknownProtocol
    else match others with
      | [statusToken] => do
        let ok ← readStatus statusToken
        return ⟨none, ok, none, none, none⟩
      | [verbToken, statusToken] =>
        match Verb.ofBytes? verbToken with
        | none => .error .malformedResponse
        | some v => do
          let ok ← readStatus statusToken
          return ⟨some v, ok, none, none, none⟩
      | _ => .error .malformedResponse
  | [] => .error .unknownProtocol

/-- The text of a field. -/
def readText (bs : Bytes) : Except ProtocolError String :=
  match Text.decode? bs with
  | some s => .ok s
  | none => .error .malformedResponse

/-- Adds the field of one line to a response. -/
def addField (r : Response) (line : Bytes) : Except ProtocolError Response :=
  match splitField? line with
  | none => .error .malformedResponse
  | some (name, value) =>
    if value = [] then .error .malformedResponse
    else if name = messageName then do
      let text ← readText value
      return { r with message := some text }
    else if name = keyName then do
      let text ← readText value
      return { r with key := some text }
    else if name = valueName then .ok { r with value := some value }
    else .error .malformedResponse

/-- Reads a message as a response. -/
def parse (message : Bytes) : Except ProtocolError Response :=
  let body := Bytes.dropEnding Bytes.crlf message
  if body = [] then .error .malformedResponse
  else match Bytes.lines body with
    | [] => .error .malformedResponse
    | header :: fields => do
      let r ← readHeader header
      fields.foldlM addField r

end Response

/-- The responses that are written but not yet sent. -/
structure ReplyBuffer where
  pending : Bytes
  deriving DecidableEq

namespace ReplyBuffer

/-- A buffer with nothing in it. -/
def empty : ReplyBuffer := ⟨[]⟩

/-- Appends one response. -/
def write (buffer : ReplyBuffer) (r : Response) : ReplyBuffer := ⟨buffer.pending ++ r.encode⟩

/-- Takes out everything that was written; an empty buffer is left. -/
def take (buffer : ReplyBuffer) : Bytes × ReplyBuffer := (buffer.pending, empty)

end ReplyBuffer

end CacheServer.Protocol
