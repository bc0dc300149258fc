import CacheServer.Text.Numeral

/-!
# The lexical parts of TOML

White space, comments, line ends, strings and keys. The readers work on a list of characters and
give back what is left of it; they fail (`none`) at the first character that cannot stand where it
stands.
-/

namespace CacheServer.Toml

/-! ## Layout -/

/-- Space and tab. -/
def isBlank (c : Char) : Bool := c == ' ' || c == '\t'

/-- Any character but the control characters; the tab is no control character here. -/
def isPrintable (c : Char) : Bool := c == '\t' || (' ' ≤ c && c != '\x7f')

/-- Drops blanks. -/
def skipBlanks (cs : List Char) : List Char := cs.dropWhile isBlank

/-- Drops a comment, if there is one. -/
def skipComment : List Char → List Char
  | '#' :: rest => rest.dropWhile isPrintable
  | cs => cs

/-- Drops a line end; the end of the text is one. -/
def lineEnd? : List Char → Option (List Char)
  | [] => some []
  | '\n' :: rest => some rest
  | '\r' :: '\n' :: rest => some rest
  | _ => none

/-- Drops what is left of a line that has nothing but a comment on it. -/
def restOfLine? (cs : List Char) : Option (List Char) := lineEnd? (skipComment (skipBlanks cs))

/-- Drops blanks, line ends and comments. -/
def skipLayout (inComment : Bool) : List Char → List Char
  | [] => []
  | '\n' :: rest => skipLayout false rest
  | '\r' :: '\n' :: rest => skipLayout false rest
  | c :: rest =>
    if inComment then if isPrintable c then skipLayout true rest else c :: rest
    else if c = '#' then skipLayout true rest
    else if isBlank c then skipLayout false rest
    else c :: rest

/-! ## Strings -/

/-- The form of a string: its quotation mark, and whether it runs over several lines and has three
marks on both sides. -/
structure StringForm where
  quote : Char
  multiline : Bool
  deriving DecidableEq, Repr

/-- Whether a backslash begins an escape in a string. -/
def StringForm.escapes (form : StringForm) : Bool := form.quote == '"'

/-- What a string reader is inside of. -/
inductive StringMode
  | text
  /-- Behind a backslash. -/
  | escape
  /-- Inside a numeric escape, with the number of digits that are still to come. -/
  | hex (missing value : Nat)
  /-- Between a backslash and the end of its line. -/
  | lineTail
  /-- Behind such a line end, where blanks and line ends are dropped. -/
  | margin
  /-- Behind a carriage return. The line end that it begins is dropped or kept. -/
  | carriage (dropped : Bool)
  /-- Behind some quotation marks, which may be text or the end. -/
  | quotes (count : Nat)
  /-- Behind the end. -/
  | closed
  deriving DecidableEq, Repr

/-- A string reader: where it is, and the text so far in reverse. -/
structure StringReader where
  mode : StringMode
  done : List Char
  deriving DecidableEq, Repr

namespace StringReader

/-- The reader with one more character. -/
def push (done : List Char) (c : Char) : StringReader := ⟨.text, c :: done⟩

/-- Reads a character of the text proper. -/
def textStep (form : StringForm) (done : List Char) (c : Char) : Option StringReader :=
  if c = form.quote then
    some ⟨if form.multiline then .quotes 1 else .closed, done⟩
  else if c = '\\' ∧ form.escapes then some ⟨.escape, done⟩
  else if isPrintable c then some (push done c)
  else if form.multiline ∧ c = '\n' then some (push done '\n')
  else if form.multiline ∧ c = '\r' then some ⟨.carriage false, done⟩
  else none

/-- Reads the character behind a backslash. -/
def escapeStep (form : StringForm) (done : List Char) (c : Char) : Option StringReader :=
  match c with
  | 'b' => some (push done '\x08')
  | 't' => some (push done '\t')
  | 'n' => some (push done '\n')
  | 'f' => some (push done '\x0c')
  | 'r' => some (push done '\r')
  | '"' => some (push done '"')
  | '\\' => some (push done '\\')
  | 'u' => some ⟨.hex 4 0, done⟩
  | 'U' => some ⟨.hex 8 0, done⟩
  | c =>
    if !form.multiline then none
    else if isBlank c then some ⟨.lineTail, done⟩
    else if c = '\n' then some ⟨.margin, done⟩
    else if c = '\r' then some ⟨.carriage true, done⟩
    else none

/-- Reads a digit of a numeric escape. The number must be that of a character. -/
def hexStep (done : List Char) (missing value : Nat) (c : Char) : Option StringReader :=
  match Text.hexDigit? c with
  | none => none
  | some d =>
    let value := 16 * value + d
    if 1 < missing then some ⟨.hex (missing - 1) value, done⟩
    else if h : value.isValidChar then some (push done (Char.ofNatAux value h))
    else none

/-- Reads one character. -/
def step (form : StringForm) (r : StringReader) (c : Char) : Option StringReader :=
  match r.mode with
  | .text => textStep form r.done c
  | .escape => escapeStep form r.done c
  | .hex missing value => hexStep r.done missing value c
  | .lineTail =>
    if isBlank c then some r
    else if c = '\n' then some { r with mode := .margin }
    else if c = '\r' then some { r with mode := .carriage true }
    else none
  | .margin =>
    if isBlank c ∨ c = '\n' then some r
    else if c = '\r' then some { r with mode := .carriage true }
    else textStep form r.done c
  | .carriage dropped =>
    if c ≠ '\n' then none
    else some (if dropped then { r with mode := .margin } else push r.done '\n')
  | .quotes count =>
    if c = form.quote then if count < 5 then some { r with mode := .quotes (count + 1) } else none
    else textStep form (List.replicate count form.quote ++ r.done) c
  | .closed => none

/-- The text, if what was read ends a string. Three marks end it, and up to two more in front of
them belong to the text. -/
def text? (form : StringForm) (r : StringReader) : Option (List Char) :=
  match r.mode with
  | .closed => some r.done.reverse
  | .quotes count =>
    if 3 ≤ count then some (List.replicate (count - 3) form.quote ++ r.done).reverse else none
  | _ => none

/-- Reads on to the end of the string. -/
def run (form : StringForm) (r : StringReader) : List Char → Option (List Char × List Char)
  | [] => (r.text? form).map fun text => (text, [])
  | c :: rest =>
    match r.text? form with
    | some text =>
      if c = form.quote ∧ form.multiline then (r.step form c).bind fun r => r.run form rest
      else some (text, c :: rest)
    | none => (r.step form c).bind fun r => r.run form rest

end StringReader

/-- Reads a string of a form, behind its opening marks. A line end right there does not belong to
a string of several lines. -/
def readString? (form : StringForm) (cs : List Char) : Option (String × List Char) :=
  let start := match form.multiline, cs with
    | true, '\n' :: rest => rest
    | true, '\r' :: '\n' :: rest => rest
    | _, cs => cs
  ((⟨.text, []⟩ : StringReader).run form start).map fun (text, rest) => (String.ofList text, rest)

/-! ## Keys -/

/-- What a key can be made of without quotation marks. -/
def isBare (c : Char) : Bool :=
  ('a' ≤ c && c ≤ 'z') || ('A' ≤ c && c ≤ 'Z') || ('0' ≤ c && c ≤ '9') || c == '_' || c == '-'

/-- Reads one part of a key. -/
def keyPart? : List Char → Option (String × List Char)
  | '"' :: rest => readString? ⟨'"', false⟩ rest
  | '\'' :: rest => readString? ⟨'\'', false⟩ rest
  | cs =>
    match cs.span isBare with
    | ([], _) => none
    | (part, rest) => some (String.ofList part, rest)

/-- The largest number of parts of a key, and the largest depth of nested values. -/
def maxDepth : Nat := 79

/-- Reads a key of at most `parts` parts, with blanks around each of them. -/
def keyPath? : (parts : Nat) → List Char → Option (List String × List Char)
  | 0, _ => none
  | parts + 1, cs =>
    match keyPart? (skipBlanks cs) with
    | none => none
    | some (part, rest) =>
      match skipBlanks rest with
      | '.' :: rest => (keyPath? parts rest).map fun (path, rest) => (part :: path, rest)
      | rest => some ([part], rest)

end CacheServer.Toml
