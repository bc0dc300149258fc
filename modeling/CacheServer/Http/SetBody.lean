import CacheServer.Json.Value

/-!
# The body of a `SET` request

The value to store is the member `value` of a JSON object. A body without it has the empty value,
and other members are skipped, whatever they hold. The names of all members must be readable as
text, since each of them might be `value`; there must not be two of that name. An array of at most
one string is read as well, as the object with its members in order and without their names.
-/

namespace CacheServer.Http.SetBody

open Json

/-- Reads a value as a text. -/
def text? : Value → Option String
  | .string pieces => decode? pieces
  | _ => none

/-- The values of the members with the name `value`; there is no result if the name of a member
is not readable. -/
def candidates? (members : List Member) : Option (List Value) :=
  members.foldr (fun (name, v) rest => do
    let name ← decode? name
    let found ← rest
    return if name = "value" then v :: found else found) (some [])

/-- The value that a JSON text names. -/
def ofValue? : Value → Option String
  | .object members =>
    match candidates? members with
    | some [] => some ""
    | some [v] => text? v
    | _ => none
  | .array [] => some ""
  | .array [v] => text? v
  | _ => none

/-- The value that a body names. -/
def read? (body : Bytes) : Option String := (parse? body).bind ofValue?

end CacheServer.Http.SetBody
