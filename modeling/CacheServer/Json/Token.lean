import CacheServer.Bytes

/-!
# JSON tokens

A JSON text is first cut into tokens: brackets, commas and colons, the names `true`, `false` and
`null`, numbers and strings. The scanner (`Scanner.step`) takes one byte at a time, so scanning
two byte strings in a row is scanning their concatenation.

A string is kept as `Piece`s, bytes that stand for themselves and 16-bit units from `\u` escapes,
because not every string that is well formed can be read as text. What is never read as text is
only checked for its form.
-/

namespace CacheServer.Json

/-- A part of a string: a byte, or the unit of a `\u` escape. -/
inductive Piece
  | byte (b : UInt8)
  | unit (u : UInt16)
  deriving DecidableEq, Repr

/-- A value that is neither a string nor a container. Numbers are kept as they are written. -/
inductive Scalar
  | null
  | bool (b : Bool)
  | number (numeral : Bytes)
  deriving DecidableEq, Repr

/-- The tokens of a text. -/
inductive Token
  | openArray
  | closeArray
  | openObject
  | closeObject
  | colon
  | comma
  | scalar (value : Scalar)
  | string (text : List Piece)
  deriving DecidableEq, Repr

/-! ## Classes of bytes -/

/-- Space, tab, line feed and carriage return. -/
def isSpace (b : UInt8) : Bool := b == 0x20 || b == 0x09 || b == 0x0A || b == 0x0D

/-- A decimal digit. -/
def isDigit (b : UInt8) : Bool := 0x30 ≤ b && b ≤ 0x39

/-- What a number can hold: digits, signs, the point and the letters of the exponent. -/
def isNumeric (b : UInt8) : Bool :=
  isDigit b || b == 0x2B || b == 0x2D || b == 0x2E || b == 0x45 || b == 0x65

/-- A small letter. -/
def isLetter (b : UInt8) : Bool := 0x61 ≤ b && b ≤ 0x7A

/-- The value of a hexadecimal digit of either case. -/
def hexValue? (b : UInt8) : Option UInt16 :=
  if isDigit b then some (b.toUInt16 - 0x30)
  else if 0x61 ≤ b && b ≤ 0x66 then some (b.toUInt16 - 0x61 + 10)
  else if 0x41 ≤ b && b ≤ 0x46 then some (b.toUInt16 - 0x41 + 10)
  else none

/-! ## Scalars -/

/-- Drops at least one digit. -/
def skipDigits? (bs : Bytes) : Option Bytes :=
  match bs with
  | b :: rest => if isDigit b then some (rest.dropWhile isDigit) else none
  | [] => none

/-- Drops the whole part of a number, which has no zero in front of another digit. -/
def skipWhole? (bs : Bytes) : Option Bytes :=
  match bs with
  | 0x30 :: rest => some rest
  | _ => skipDigits? bs

/-- Drops a point with the digits behind it, if there is one. -/
def skipFraction? (bs : Bytes) : Option Bytes :=
  match bs with
  | 0x2E :: rest => skipDigits? rest
  | _ => some bs

/-- Drops an exponent, if there is one. -/
def skipExponent? (bs : Bytes) : Option Bytes :=
  match bs with
  | b :: rest =>
    if b = 0x65 ∨ b = 0x45 then
      match rest with
      | 0x2B :: digits | 0x2D :: digits => skipDigits? digits
      | digits => skipDigits? digits
    else some bs
  | [] => some []

/-- Whether a byte string is a number. -/
def isNumber (bs : Bytes) : Bool :=
  let unsigned := match bs with
    | 0x2D :: rest => rest
    | _ => bs
  (do skipExponent? (← skipFraction? (← skipWhole? unsigned))) == some []

/-- The scalar that is written as a run of numeric bytes or of letters. -/
def scalar? (run : Bytes) : Option Scalar :=
  if run = Bytes.ofText "null" then some .null
  else if run = Bytes.ofText "true" then some (.bool true)
  else if run = Bytes.ofText "false" then some (.bool false)
  else if isNumber run then some (.number run)
  else none

/-! ## The scanner -/

/-- What the scanner is inside of. Runs and strings are kept in reverse. -/
inductive Mode
  | between
  /-- Inside a run of numeric bytes. -/
  | numeric (run : Bytes)
  /-- Inside a run of letters. -/
  | letters (run : Bytes)
  /-- Inside a string. -/
  | text (pieces : List Piece)
  /-- Behind a backslash. -/
  | escape (pieces : List Piece)
  /-- Inside a `\u` escape, with the digits that are still to come, at least one, and the value of
  those that have come. -/
  | hex (pieces : List Piece) (missing : Nat) (unit : UInt16)
  deriving DecidableEq, Repr

/-- The scanner: where it is, and the tokens behind it in reverse. -/
structure Scanner where
  mode : Mode
  tokens : List Token
  deriving DecidableEq, Repr

namespace Scanner

/-- In front of a text. -/
def start : Scanner := ⟨.between, []⟩

/-- The token that is one byte. -/
def punctuation? (b : UInt8) : Option Token :=
  match b with
  | 0x5B => some .openArray
  | 0x5D => some .closeArray
  | 0x7B => some .openObject
  | 0x7D => some .closeObject
  | 0x3A => some .colon
  | 0x2C => some .comma
  | _ => none

/-- The byte that the letter behind a backslash stands for. -/
def simpleEscape? (b : UInt8) : Option UInt8 :=
  match b with
  | 0x22 => some 0x22
  | 0x5C => some 0x5C
  | 0x2F => some 0x2F
  | 0x62 => some 0x08
  | 0x66 => some 0x0C
  | 0x6E => some 0x0A
  | 0x72 => some 0x0D
  | 0x74 => some 0x09
  | _ => none

/-- Reads a byte between tokens. -/
def begin? (tokens : List Token) (b : UInt8) : Option Scanner :=
  if isSpace b then some ⟨.between, tokens⟩
  else if b = 0x22 then some ⟨.text [], tokens⟩
  else if isNumeric b then some ⟨.numeric [b], tokens⟩
  else if isLetter b then some ⟨.letters [b], tokens⟩
  else (punctuation? b).map fun token => ⟨.between, token :: tokens⟩

/-- Ends a run. -/
def endRun? (run : Bytes) (tokens : List Token) : Option (List Token) :=
  (scalar? run.reverse).map fun s => .scalar s :: tokens

/-- Reads one byte. -/
def step (s : Scanner) (b : UInt8) : Option Scanner :=
  match s.mode with
  | .between => begin? s.tokens b
  | .numeric run =>
    if isNumeric b then some { s with mode := .numeric (b :: run) }
    else (endRun? run s.tokens).bind fun tokens => begin? tokens b
  | .letters run =>
    if isLetter b then some { s with mode := .letters (b :: run) }
    else (endRun? run s.tokens).bind fun tokens => begin? tokens b
  | .text pieces =>
    if b = 0x22 then some ⟨.between, .string pieces.reverse :: s.tokens⟩
    else if b = 0x5C then some { s with mode := .escape pieces }
    else if b < 0x20 then none
    else some { s with mode := .text (.byte b :: pieces) }
  | .escape pieces =>
    if b = 0x75 then some { s with mode := .hex pieces 4 0 }
    else (simpleEscape? b).map fun c => { s with mode := .text (.byte c :: pieces) }
  | .hex pieces missing unit =>
    (hexValue? b).map fun d =>
      let unit := unit * 16 + d
      { s with
        mode := if missing ≤ 1 then .text (.unit unit :: pieces)
          else .hex pieces (missing - 1) unit }

/-- The tokens of a text that ends here. -/
def finish (s : Scanner) : Option (List Token) :=
  match s.mode with
  | .between => some s.tokens.reverse
  | .numeric run | .letters run => (endRun? run s.tokens).map List.reverse
  | _ => none

end Scanner

/-- The tokens of a text. -/
def tokens? (bs : Bytes) : Option (List Token) :=
  (bs.foldlM Scanner.step .start).bind Scanner.finish

end CacheServer.Json
