import CacheServer.Bytes

/-!
# Header token and fields

The pieces that requests and responses are made of: the protocol token that opens every header,
and the field lines `NAME: value` behind it. A field is cut at the first `: `, so its value may
hold further ones.
-/

namespace CacheServer.Protocol

/-- The token that opens every header. -/
def token : Bytes := Bytes.ofText "RCSP/1.0"

/-- What stands between the name and the value of a field. -/
def fieldSeparator : Bytes := Bytes.ofText ": "

/-- The byte between the tokens of a header. -/
def space : UInt8 := 32

/-- The name of the field that holds a message. -/
def messageName : Bytes := Bytes.ofText "MESSAGE"

/-- The name of the field that holds a key. -/
def keyName : Bytes := Bytes.ofText "KEY"

/-- The name of the field that holds a value. -/
def valueName : Bytes := Bytes.ofText "VALUE"

/-- The line of one field, with its line end. -/
def fieldLine (name value : Bytes) : Bytes :=
  name ++ fieldSeparator ++ value ++ Bytes.crlf

/-- The name and the value of a field line, if it has a separator. -/
def splitField? (line : Bytes) : Option (Bytes × Bytes) :=
  Bytes.splitFirst fieldSeparator line

/-- The first line and what follows its line end; the second part is missing if there is none. -/
def splitLine (bs : Bytes) : Bytes × Option Bytes :=
  match Bytes.splitFirst Bytes.crlf bs with
  | some (line, rest) => (line, some rest)
  | none => (bs, none)

end CacheServer.Protocol
