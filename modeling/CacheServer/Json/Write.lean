/-!
# Writing JSON

JSON texts are put together from JSON texts: `quote` makes one from a text, and `array` and
`object` make one from others. No white space is written. In a string only what must be escaped is
escaped, so text beyond ASCII stays as it is.
-/

namespace CacheServer.Json

/-- A hexadecimal digit, for a value below 16. -/
def hexDigit (n : Nat) : Char :=
  if n < 10 then Char.ofNat ('0'.toNat + n) else Char.ofNat ('a'.toNat + (n - 10))

/-- A character as it is written inside a string. -/
def escape (c : Char) : List Char :=
  if c = '"' then ['\\', '"']
  else if c = '\\' then ['\\', '\\']
  else if c = '\x08' then ['\\', 'b']
  else if c = '\x0c' then ['\\', 'f']
  else if c = '\n' then ['\\', 'n']
  else if c = '\r' then ['\\', 'r']
  else if c = '\t' then ['\\', 't']
  else if c.toNat < 0x20 then
    ['\\', 'u', '0', '0', hexDigit (c.toNat / 16), hexDigit (c.toNat % 16)]
  else [c]

/-- The JSON text of a string. -/
def quote (s : String) : String :=
  String.ofList ('"' :: (s.toList.flatMap escape ++ ['"']))

/-- The JSON text of an array, from those of its elements. -/
def array (elements : List String) : String := "[" ++ ",".intercalate elements ++ "]"

/-- The JSON text of an object, from the names of its members and the JSON texts of their
values. -/
def object (members : List (String × String)) : String :=
  "\x7b" ++ ",".intercalate (members.map fun (name, value) => quote name ++ ":" ++ value) ++ "\x7d"

end CacheServer.Json
