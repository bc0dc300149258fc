import CacheServer.Json.Token
import CacheServer.Text.Utf8

/-!
# JSON values

`parse?` reads a byte string as one JSON value with nothing but white space around it. It works
through the tokens with the open containers on a stack of its own, so there is no bound on how
deep a text may be nested.

The strings of a value are only checked for their form. `decode?` reads one as text: the bytes
must be UTF-8, and units that are surrogates must come in pairs.
-/

namespace CacheServer.Json

/-- A JSON value. The members of an object are kept in their order, repeated names included. -/
inductive Value
  | scalar (s : Scalar)
  | string (text : List Piece)
  | array (elements : List Value)
  | object (members : List (List Piece × Value))

/-- The name and the value of a member of an object. -/
abbrev Member := List Piece × Value

/-! ## Texts -/

/-- The character of a unit that is no surrogate. -/
def unitChar? (u : UInt16) : Option Char :=
  if h : u.toNat.isValidChar then some (Char.ofNatAux u.toNat h) else none

/-- The character of a pair of surrogates. -/
def pairChar? (high low : UInt16) : Option Char :=
  let n := 0x10000 + (high.toNat - 0xD800) * 0x400 + (low.toNat - 0xDC00)
  if 0xD800 ≤ high && high ≤ 0xDBFF && 0xDC00 ≤ low && low ≤ 0xDFFF then some (Char.ofNat n)
  else none

/-- The bytes that pieces stand for, put in reverse in front of `done`. -/
def pieceBytes? (done : Bytes) : List Piece → Option Bytes
  | [] => some done.reverse
  | .byte b :: rest => pieceBytes? (b :: done) rest
  | .unit u :: rest =>
    match unitChar? u with
    | some c => pieceBytes? ((String.utf8EncodeChar c).reverse ++ done) rest
    | none =>
      match rest with
      | .unit low :: rest =>
        match pairChar? u low with
        | some c => pieceBytes? ((String.utf8EncodeChar c).reverse ++ done) rest
        | none => none
      | _ => none

/-- Reads a string as text. -/
def decode? (pieces : List Piece) : Option String :=
  (pieceBytes? [] pieces).bind Text.decode?

/-! ## The parser -/

/-- A container that is open, with what it holds so far in reverse. -/
inductive Frame
  | array (done : List Value)
  /-- An object whose next member has the given name and no value yet. -/
  | object (done : List Member) (name : List Piece)

/-- What may come next, inside the open containers of a stack. -/
inductive Parser
  /-- A value. -/
  | value (stack : List Frame)
  /-- The first element of an array, or its end. -/
  | firstElement (stack : List Frame)
  /-- The first name of an object, or its end. -/
  | firstName (stack : List Frame)
  /-- A name. -/
  | anotherName (done : List Member) (stack : List Frame)
  /-- The colon behind a name. -/
  | colon (done : List Member) (name : List Piece) (stack : List Frame)
  /-- What follows an element. -/
  | element (done : List Value) (stack : List Frame)
  /-- What follows a member. -/
  | member (done : List Member) (stack : List Frame)
  /-- Nothing: the value is complete. -/
  | complete (v : Value)

namespace Parser

/-- Puts a complete value into the innermost open container. -/
def close (v : Value) : List Frame → Parser
  | [] => .complete v
  | .array done :: stack => .element (v :: done) stack
  | .object done name :: stack => .member ((name, v) :: done) stack

/-- Reads the first token of a value. -/
def begin? (stack : List Frame) : Token → Option Parser
  | .scalar s => some (close (.scalar s) stack)
  | .string text => some (close (.string text) stack)
  | .openArray => some (.firstElement stack)
  | .openObject => some (.firstName stack)
  | _ => none

/-- Reads one token. -/
def step : Parser → Token → Option Parser
  | .value stack, token => begin? stack token
  | .firstElement stack, .closeArray => some (close (.array []) stack)
  | .firstElement stack, token => begin? (.array [] :: stack) token
  | .firstName stack, .closeObject => some (close (.object []) stack)
  | .firstName stack, .string name => some (.colon [] name stack)
  | .anotherName done stack, .string name => some (.colon done name stack)
  | .colon done name stack, .colon => some (.value (.object done name :: stack))
  | .element done stack, .comma => some (.value (.array done :: stack))
  | .element done stack, .closeArray => some (close (.array done.reverse) stack)
  | .member done stack, .comma => some (.anotherName done stack)
  | .member done stack, .closeObject => some (close (.object done.reverse) stack)
  | _, _ => none

/-- The value of a text that ends here. -/
def finish : Parser → Option Value
  | .complete v => some v
  | _ => none

end Parser

/-- The value that tokens spell. -/
def parseTokens? (tokens : List Token) : Option Value :=
  (tokens.foldlM Parser.step (.value [])).bind Parser.finish

/-- Reads a byte string as JSON. -/
def parse? (bs : Bytes) : Option Value := (tokens? bs).bind parseTokens?

end CacheServer.Json
