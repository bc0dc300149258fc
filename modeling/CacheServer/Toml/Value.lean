/-!
# TOML values and tables

A TOML document builds up one table. Sub-tables come into being in three ways, by a header, on the
way to another table of a header, or by a dotted key, and what may be added to them later depends
on it (`Origin`). Tables inside values are closed: nothing is added to them.

The operations fail (`none`) where the language forbids them: `insert` for a key with a value,
`openTable` for a header `[...]` and `openElement` for a header `[[...]]`.
-/

namespace CacheServer.Toml

/-- How a table has come into being. -/
inductive Origin
  /-- By its own header. -/
  | header
  /-- On the way to a table that has a header. -/
  | implied
  /-- By a dotted key. -/
  | dotted
  /-- As a value. -/
  | inline
  deriving DecidableEq, Repr

/-- A value. Of floating-point numbers and of dates and times only the kind is kept. -/
inductive Value
  | string (text : String)
  | integer (n : Int)
  | float
  | boolean (b : Bool)
  | dateTime
  | array (elements : List Value)
  | table (origin : Origin) (entries : List (String × Value))
  /-- The tables of the headers `[[...]]` of one name, the first one first. -/
  | tables (elements : List (List (String × Value)))

/-- The entries of a table, without repeated keys and in the order in which they were made. -/
abbrev Entries := List (String × Value)

namespace Entries

/-- Writes the value of a key, in its old place or behind all others. -/
def put (entries : Entries) (key : String) (v : Value) : Entries :=
  if entries.any (·.1 == key) then entries.map fun e => if e.1 == key then (key, v) else e
  else entries ++ [(key, v)]

/-- Changes the last element of a list of tables. -/
def updateLast (f : Entries → Option Entries) (elements : List Entries) : Option (List Entries) :=
  match elements.getLast? with
  | none => none
  | some last => (f last).map fun changed => elements.dropLast ++ [changed]

/-- Adds a key with a value to a table, where `path` is the part of a dotted key in front of
`key`. On the way only tables that nothing but dotted keys or longer headers have made are
entered, and the last one must be made by dotted keys. -/
def insert (key : String) (v : Value) : (path : List String) → Entries → Option Entries
  | [], entries => if (entries.lookup key).isSome then none else some (entries ++ [(key, v)])
  | name :: path, entries =>
    match entries.lookup name with
    | none => (insert key v path []).map fun sub => entries.put name (.table .dotted sub)
    | some (.table origin sub) =>
      if origin = .dotted ∨ (origin = .implied ∧ path ≠ []) then
        (insert key v path sub).map fun sub => entries.put name (.table origin sub)
      else none
    | some (.tables elements) =>
      if path = [] then none
      else (updateLast (insert key v path) elements).map fun es => entries.put name (.tables es)
    | some _ => none

/-- Changes the table that a path leads to; in an array of tables this is the last one. What is
missing on the way is made. -/
def updateAt (f : Entries → Option Entries) : (path : List String) → Entries → Option Entries
  | [], entries => f entries
  | name :: path, entries =>
    match entries.lookup name with
    | none => (updateAt f path []).map fun sub => entries.put name (.table .implied sub)
    | some (.table origin sub) =>
      if origin = .inline then none
      else (updateAt f path sub).map fun sub => entries.put name (.table origin sub)
    | some (.tables elements) =>
      (updateLast (updateAt f path) elements).map fun es => entries.put name (.tables es)
    | some _ => none

/-- Makes a table for a header; the name may be free or that of an implied table. -/
def openNamed (name : String) (entries : Entries) : Option Entries :=
  match entries.lookup name with
  | none => some (entries.put name (.table .header []))
  | some (.table .implied sub) => some (entries.put name (.table .header sub))
  | some _ => none

/-- Makes one more table in an array of tables; the name may be free. -/
def openNamedElement (name : String) (entries : Entries) : Option Entries :=
  match entries.lookup name with
  | none => some (entries.put name (.tables [[]]))
  | some (.tables elements) => some (entries.put name (.tables (elements ++ [[]])))
  | some _ => none

/-- The effect of a header `[...]`. -/
def openTable (path : List String) (entries : Entries) : Option Entries :=
  match path.getLast? with
  | none => none
  | some name => updateAt (openNamed name) path.dropLast entries

/-- The effect of a header `[[...]]`. -/
def openElement (path : List String) (entries : Entries) : Option Entries :=
  match path.getLast? with
  | none => none
  | some name => updateAt (openNamedElement name) path.dropLast entries

end Entries

end CacheServer.Toml
