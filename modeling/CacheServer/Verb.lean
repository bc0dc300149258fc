import CacheServer.Bytes

/-!
# Verbs

The eight commands of the cache, their spelling on the wire and their order in the catalogue. A
verb is recognised only in its exact spelling; a token that is none of them names no verb.
-/

namespace CacheServer

/-- The commands of the cache. -/
inductive Verb
  | set | get | delete | purge | length | keys | ping | close
  deriving DecidableEq, Repr

namespace Verb

/-- The verbs in catalogue order. -/
def all : List Verb := [set, get, delete, purge, length, keys, ping, close]

/-- The spelling of a verb. -/
def token : Verb → String
  | set => "SET"
  | get => "GET"
  | delete => "DELETE"
  | purge => "PURGE"
  | length => "LENGTH"
  | keys => "KEYS"
  | ping => "PING"
  | close => "CLOSE"

/-- The spelling of a verb as it travels. -/
def bytes (v : Verb) : Bytes := Bytes.ofText v.token

/-- The place of a verb in the catalogue. -/
def index : Verb → Fin 8
  | set => 0
  | get => 1
  | delete => 2
  | purge => 3
  | length => 4
  | keys => 5
  | ping => 6
  | close => 7

/-- The verb that a token spells, if any. -/
def ofBytes? (bs : Bytes) : Option Verb := all.find? (·.bytes == bs)

/-- Every verb is listed. -/
theorem mem_all (v : Verb) : v ∈ all := by cases v <;> decide

/-- A token spells a verb exactly if it is that verb's spelling. -/
theorem ofBytes?_eq_some_iff {bs : Bytes} {v : Verb} : ofBytes? bs = some v ↔ bs = v.bytes := by
  constructor
  · intro h
    unfold ofBytes? at h
    have matched := List.find?_some h
    exact (eq_of_beq matched).symm
  · rintro rfl
    cases v <;> decide

end Verb

end CacheServer
