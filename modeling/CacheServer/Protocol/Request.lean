import CacheServer.Error
import CacheServer.Protocol.Field
import CacheServer.Text.Utf8
import CacheServer.Verb

/-!
# Requests

A request is a header with a verb, then at most a key and, behind a key, at most a value.
`Request.encode` writes one, `Request.parse` reads one.

A message is cut into at most three parts, header, key line and value line, so a value may hold
line ends. One line end at the end of the message is optional. A verb outside the catalogue is no
error of the message: such a request is read with no verb.
-/

namespace CacheServer.Protocol

/-- A message from a client. -/
structure Request where
  /-- The verb; none if the header names one outside the catalogue. -/
  verb : Option Verb
  key : Option String
  value : Option Bytes
  deriving DecidableEq

namespace Request

/-- The key, where an empty key counts as none. -/
def givenKey (r : Request) : Option String := r.key.filter (· ≠ "")

/-- The value, where an empty value counts as none. -/
def givenValue (r : Request) : Option Bytes := r.value.filter (· ≠ [])

/-- The message for a request. -/
def encode (r : Request) : Bytes :=
  token ++ (r.verb.map fun v => space :: v.bytes).getD [] ++ Bytes.crlf ++
    (r.key.map fun k => fieldLine keyName (Bytes.ofText k)).getD [] ++
    (r.value.map fun v => fieldLine valueName v).getD []

/-- The verb token of a header: the only token behind the protocol token, and not empty. -/
def readHeader (header : Bytes) : Except ProtocolError Bytes :=
  match Bytes.splitAt space header with
  | first :: others =>
    if first ≠ token then .error .unknownProtocol
    else match others with
      | [verb] => if verb = [] then .error .malformedRequest else .ok verb
      | _ => .error .malformedRequest
  | [] => .error .unknownProtocol

/-- The value of a field line that must have the name `expected`; a line with no separator is the
error `invalid`. -/
def readField (expected : Bytes) (invalid : ProtocolError) (line : Bytes) :
    Except ProtocolError Bytes :=
  match splitField? line with
  | none => .error invalid
  | some (name, value) => if name = expected then .ok value else .error .malformedRequest

/-- The key of a key line. -/
def readKey (line : Bytes) : Except ProtocolError String :=
  match readField keyName .invalidKey line with
  | .error e => .error e
  | .ok bytes =>
    match Text.decode? bytes with
    | some key => .ok key
    | none => .error .invalidKey

/-- Reads a message as a request. -/
def parse (message : Bytes) : Except ProtocolError Request :=
  let body := Bytes.dropEnding Bytes.crlf message
  if body = [] then .error .malformedRequest
  else
    let (header, fields) := splitLine body
    match readHeader header with
    | .error e => .error e
    | .ok verb =>
      match fields with
      | none => .ok ⟨Verb.ofBytes? verb, none, none⟩
      | some fields =>
        let (keyLine, valueLine) := splitLine fields
        match readKey keyLine with
        | .error e => .error e
        | .ok key =>
          match valueLine with
          | none => .ok ⟨Verb.ofBytes? verb, some key, none⟩
          | some valueLine =>
            match readField valueName .invalidValue valueLine with
            | .error e => .error e
            | .ok value => .ok ⟨Verb.ofBytes? verb, some key, some value⟩

end Request

end CacheServer.Protocol
