import CacheServer.Http.Gateway
import CacheServer.Proofs.Json.Reading
import Mathlib.Data.Option.Basic

/-!
# What a client reads in an answer

The body of an answer to a command is a JSON object. `Reply.members?` is what a client reads in it:
the names of its members in order, with what they hold. `members?_reply` says that this is the
envelope, for every value that the gateway writes.
-/

namespace CacheServer.Http

open Json

/-- What a member of an answer can hold. -/
inductive Datum
  | bool (b : Bool)
  | number (numeral : Bytes)
  | text (s : String)
  | texts (list : List String)
  deriving DecidableEq, Repr

namespace Datum

/-- Reads a JSON value. -/
def ofValue? : Value → Option Datum
  | .scalar (.bool b) => some (.bool b)
  | .scalar (.number numeral) => some (.number numeral)
  | .string pieces => (decode? pieces).map .text
  | .array elements => (elements.mapM SetBody.text?).map .texts
  | _ => none

/-- Whether a JSON text is read as a datum. -/
def IsReadIn (d : Datum) (text : String) : Prop :=
  ∃ v, Spells (Bytes.ofText text) v ∧ ofValue? v = some d

/-- A truth value is read from the answer that has it. -/
theorem bool_isReadIn (b : Bool) : (bool b).IsReadIn (if b then "true" else "false") :=
  ⟨_, spells_bool b, rfl⟩

/-- A number is read from its numeral. -/
theorem number_isReadIn (n : Nat) :
    (number (Bytes.ofText (Nat.repr n))).IsReadIn (Nat.repr n) :=
  ⟨_, spells_repr n, rfl⟩

/-- A text is read from its quotation. -/
theorem text_isReadIn (s : String) : (text s).IsReadIn (quote s) := by
  obtain ⟨pieces, hdecode, hspells⟩ := (stringSpelling_quote s).spells
  exact ⟨_, hspells, by rw [ofValue?, hdecode]; rfl⟩

/-- A list of texts is read from the array of their quotations. -/
theorem texts_isReadIn (list : List String) : (texts list).IsReadIn (array (list.map quote)) := by
  have helements : ∃ elements, List.Forall₂ Spells (list.map fun s => Bytes.ofText (quote s))
      elements ∧ elements.mapM SetBody.text? = some list := by
    induction list with
    | nil => exact ⟨[], .nil, rfl⟩
    | cons s rest ih =>
      obtain ⟨elements, hspells, hread⟩ := ih
      obtain ⟨pieces, hdecode, hs⟩ := (stringSpelling_quote s).spells
      refine ⟨.string pieces :: elements, .cons hs hspells, ?_⟩
      have htext : SetBody.text? (.string pieces) = some s := hdecode
      rw [List.mapM_cons, htext, hread]
      rfl
  obtain ⟨elements, hspells, hread⟩ := helements
  refine ⟨.array elements, ?_, by rw [ofValue?, hread]; rfl⟩
  rw [array, Bytes.ofText_append, Bytes.ofText_append, Bytes.ofText_intercalate, List.map_map]
  exact spells_array hspells

end Datum

namespace Reply

/-- Reads the name and the value of a member. -/
def readMember? (m : Member) : Option (String × Datum) := do
  return (← decode? m.1, ← Datum.ofValue? m.2)

/-- The members of an answer as a client reads them, in their order. -/
def members? (r : Reply) : Option (List (String × Datum)) :=
  match parse? (Bytes.ofText r.body) with
  | some (.object members) => members.mapM readMember?
  | _ => none

/-- What an answer has under a name. -/
def member? (r : Reply) (name : String) : Option Datum := r.members?.bind (·.lookup name)

/-- Members are read one after the other. -/
theorem mapM_readMember? {items : List (String × Datum)} {read : List Member}
    (h : List.Forall₂ (fun x r => decode? r.1 = some x.1 ∧ Datum.ofValue? r.2 = some x.2)
      items read) : read.mapM readMember? = some items := by
  induction h with
  | nil => rfl
  | cons hmember _ ih =>
    rw [List.mapM_cons, readMember?, hmember.1, hmember.2, ih]
    rfl

end Reply

/-- The members of an envelope, given what its value holds. -/
def Envelope.members (e : Envelope) (value : Option Datum) : List (String × Datum) :=
  [("command", .text e.verb.token)] ++ (e.message.map fun m => ("message", .text m)).toList ++
    (e.key.map fun k => ("key", .text k)).toList ++ (value.map fun d => ("value", d)).toList ++
    [("ok", .bool e.ok)]

/-- A client reads in an answer what its envelope holds. -/
theorem Envelope.members?_reply (e : Envelope) (status : UInt16) {value : Option Datum}
    (h : Option.Rel Datum.IsReadIn value e.value) :
    (e.reply status).members? = some (e.members value) := by
  let Reads (m : String × String) (x : String × Datum) : Prop := m.1 = x.1 ∧ x.2.IsReadIn m.2
  have htext : ∀ (name : String) (t : Option String),
      List.Forall₂ Reads (t.map fun s => (name, quote s)).toList
        (t.map fun s => (name, Datum.text s)).toList := by
    intro name t
    cases t with
    | none => exact .nil
    | some s => exact .cons ⟨rfl, Datum.text_isReadIn s⟩ .nil
  have hvalue : List.Forall₂ Reads (e.value.map fun v => ("value", v)).toList
      (value.map fun d => ("value", d)).toList := by
    generalize e.value = written at h
    cases h with
    | none => exact .nil
    | some hread => exact .cons ⟨rfl, hread⟩ .nil
  have hcommand : Reads ("command", quote e.verb.token) ("command", .text e.verb.token) :=
    ⟨rfl, Datum.text_isReadIn _⟩
  have hok : Reads ("ok", if e.ok then "true" else "false") ("ok", .bool e.ok) :=
    ⟨rfl, Datum.bool_isReadIn e.ok⟩
  have hmembers := List.rel_append (List.rel_append (List.rel_append (List.rel_append
    (.cons hcommand .nil) (htext "message" e.message)) (htext "key" e.key)) hvalue)
    (.cons hok .nil)
  obtain ⟨read, hparse, hread⟩ := parse?_object (R := fun d v => Datum.ofValue? v = some d) hmembers
  have hbody : parse? (Bytes.ofText (e.reply status).body) = some (.object read) := hparse
  rw [Reply.members?, hbody]
  exact Reply.mapM_readMember? hread

/-- What a client finds under each of the names. -/
theorem Envelope.member?_reply (e : Envelope) (status : UInt16) {value : Option Datum}
    (h : Option.Rel Datum.IsReadIn value e.value) :
    (e.reply status).member? "command" = some (.text e.verb.token) ∧
      (e.reply status).member? "message" = e.message.map .text ∧
      (e.reply status).member? "key" = e.key.map .text ∧
      (e.reply status).member? "value" = value ∧
      (e.reply status).member? "ok" = some (.bool e.ok) := by
  simp only [Reply.member?, e.members?_reply status h, Option.bind_some]
  obtain ⟨verb, message, key, _, ok⟩ := e
  cases message <;> cases key <;> cases value <;> simp [Envelope.members, List.lookup_cons]

end CacheServer.Http
