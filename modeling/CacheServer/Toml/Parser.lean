import CacheServer.Toml.Lexical
import CacheServer.Toml.Number
import CacheServer.Toml.Value

/-!
# Reading TOML

`parse?` reads a document. Lines are headers or keys with values; the entries of a key go to the
table of the header above it. The values of arrays and inline tables nest to a bounded depth, by
which the reader of values recurs; the loops over elements and lines are bounded by the number of
characters that are left, each turn taking at least one.
-/

namespace CacheServer.Toml

/-! ## Values -/

/-- A reader of something at the front of a text. -/
abbrev Reader (α : Type) := List Char → Option (α × List Char)

/-- What a number or a name can be made of. -/
def isWordChar (c : Char) : Bool := isBare c || c == '+' || c == '.' || c == ':'

/-- The value that a word stands for. -/
def word? (word : List Char) : Option Value :=
  if word = "true".toList then some (.boolean true)
  else if word = "false".toList then some (.boolean false)
  else
    match integer? word with
    | some n => some (.integer n)
    | none => if isFloat word then some .float else none

/-- Reads a string, in the form that its opening marks announce. -/
def stringValue? : Reader String
  | '"' :: '"' :: '"' :: rest => readString? ⟨'"', true⟩ rest
  | '"' :: rest => readString? ⟨'"', false⟩ rest
  | '\'' :: '\'' :: '\'' :: rest => readString? ⟨'\'', true⟩ rest
  | '\'' :: rest => readString? ⟨'\'', false⟩ rest
  | _ => none

/-- Reads a value that is not nested. -/
def scalar? : Reader Value := fun cs =>
  match cs with
  | '"' :: _ | '\'' :: _ => (stringValue? cs).map fun (text, rest) => (.string text, rest)
  | _ =>
    match dateTime? cs with
    | some rest => some (.dateTime, rest)
    | none =>
      let (word, rest) := cs.span isWordChar
      (word? word).map fun v => (v, rest)

/-- Reads the elements of an array behind `[` or a comma. -/
def elements? (value : Reader Value) : (fuel : Nat) → (done : List Value) → Reader Value
  | 0, _, _ => none
  | fuel + 1, done, cs =>
    match skipLayout false cs with
    | ']' :: rest => some (.array done.reverse, rest)
    | cs =>
      match value cs with
      | none => none
      | some (v, rest) =>
        match skipLayout false rest with
        | ',' :: rest => elements? value fuel (v :: done) rest
        | ']' :: rest => some (.array (v :: done).reverse, rest)
        | _ => none

/-- Reads a key, an equals sign and a value, and puts it into a table. -/
def assignment? (value : Reader Value) (entries : Entries) : Reader Entries := fun cs =>
  match keyPath? maxDepth cs with
  | some (path, '=' :: rest) =>
    match value (skipBlanks rest), path.getLast? with
    | some (v, rest), some key =>
      (entries.insert key v path.dropLast).map fun entries => (entries, rest)
    | _, _ => none
  | _ => none

/-- Reads the assignments of an inline table behind the brace or a comma. -/
def assignments? (value : Reader Value) : (fuel : Nat) → Entries → Reader Value
  | 0, _, _ => none
  | fuel + 1, entries, cs =>
    match assignment? value entries cs with
    | none => none
    | some (entries, rest) =>
      match skipBlanks rest with
      | ',' :: rest => assignments? value fuel entries rest
      | '\x7d' :: rest => some (.table .inline entries, rest)
      | _ => none

/-- Reads an inline table behind its brace. -/
def inlineTable? (value : Reader Value) : Reader Value := fun cs =>
  match skipBlanks cs with
  | '\x7d' :: rest => some (.table .inline [], rest)
  | cs => assignments? value cs.length [] cs

/-- Reads a value that is nested at most `depth` deep. -/
def value? : (depth : Nat) → Reader Value
  | 0, cs => scalar? cs
  | depth + 1, cs =>
    match cs with
    | '[' :: rest => elements? (value? depth) (rest.length + 1) [] rest
    | '\x7b' :: rest => inlineTable? (value? depth) rest
    | _ => scalar? cs

/-! ## Documents -/

/-- The state in front of a line: all entries so far, and the path of the present table. -/
structure Document where
  root : Entries
  present : List String

namespace Document

/-- The state in front of the first line. -/
def start : Document := ⟨[], []⟩

/-- Reads a header: what stands behind its opening brackets, up to `ending`. -/
def header? (ending : List Char) (cs : List Char) : Option (List String × List Char) :=
  match keyPath? maxDepth cs with
  | some (path, rest) =>
    if ending.isPrefixOf rest then some (path, rest.drop ending.length) else none
  | none => none

/-- Reads what a line holds, up to a comment or its end. -/
def item? (d : Document) : List Char → Option (Document × List Char)
  | '[' :: '[' :: rest => do
    let (path, rest) ← header? [']', ']'] rest
    let root ← d.root.openElement path
    return (⟨root, path⟩, rest)
  | '[' :: rest => do
    let (path, rest) ← header? [']'] rest
    let root ← d.root.openTable path
    return (⟨root, path⟩, rest)
  | cs => do
    let (path, rest) ← keyPath? maxDepth cs
    let rest ← expect? '=' rest
    let (v, rest) ← value? maxDepth (skipBlanks rest)
    let key ← path.getLast?
    let root ← Entries.updateAt (Entries.insert key v path.dropLast) d.present d.root
    return (⟨root, d.present⟩, rest)

/-- Reads the lines of a document. -/
def lines? : (fuel : Nat) → Document → List Char → Option Document
  | 0, _, _ => none
  | fuel + 1, d, cs =>
    if cs = [] then some d
    else
      match restOfLine? cs with
      | some rest => lines? fuel d rest
      | none =>
        match item? d (skipBlanks cs) with
        | none => none
        | some (d, rest) =>
          match restOfLine? rest with
          | none => none
          | some rest => lines? fuel d rest

end Document

/-- The text without a byte order mark in front of it. -/
def dropMark : List Char → List Char
  | '\ufeff' :: rest => rest
  | cs => cs

/-- The entries of the table that a document spells. -/
def parse? (text : String) : Option Entries :=
  let cs := dropMark text.toList
  (Document.lines? (cs.length + 1) .start cs).map Document.root

end CacheServer.Toml
