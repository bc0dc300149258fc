import CacheServer.Http.Percent
import CacheServer.Verb

/-!
# Routes

A request names what it is about by its target. The path of a target ends at the first `?`. Every
path that is served stands for exactly one operation, and every operation is reached with exactly
one method.
-/

namespace CacheServer.Http

/-- What a path can stand for. -/
inductive Route
  | set (key : String)
  | get (key : String)
  | delete (key : String)
  | purge
  | length
  | keys
  | ping
  /-- The metrics text, the only route that is not a command. -/
  | metrics
  deriving DecidableEq, Repr

namespace Route

/-- The path of a target. -/
def path (target : String) : List Char := target.toList.takeWhile (· != '?')

/-- The command on a key, from the name of the command. -/
def keyed? (name : List Char) (key : String) : Option Route :=
  if name = "SET".toList then some (.set key)
  else if name = "GET".toList then some (.get key)
  else if name = "DELETE".toList then some (.delete key)
  else none

/-- The route of a path behind its first slash: a single name, or the name of a command and a
percent-encoded key. -/
def ofNames? (names : List Char) : Option Route :=
  if names = "PURGE".toList then some .purge
  else if names = "LENGTH".toList then some .length
  else if names = "KEYS".toList then some .keys
  else if names = "PING".toList then some .ping
  else if names = "metrics".toList then some .metrics
  else match names.span (· != '/') with
    | (name, '/' :: segment) =>
      if segment.contains '/' then none
      else keyed? name (Percent.decode (Bytes.ofText (String.ofList segment)))
    | _ => none

/-- The route of a target, if it is served. -/
def ofTarget? (target : String) : Option Route :=
  match path target with
  | '/' :: names => ofNames? names
  | _ => none

/-- The method with which a route is reached. -/
def method : Route → String
  | .set _ => "PUT"
  | .delete _ | .purge => "DELETE"
  | .get _ | .length | .keys | .ping | .metrics => "GET"

/-- The verb of a route that is a command. -/
def verb? : Route → Option Verb
  | .set _ => some .set
  | .get _ => some .get
  | .delete _ => some .delete
  | .purge => some .purge
  | .length => some .length
  | .keys => some .keys
  | .ping => some .ping
  | .metrics => none

end Route

end CacheServer.Http
