import CacheServer.Proofs.Cutting
import CacheServer.Protocol.Field

/-!
# Lines and fields, cut and put together

`splitLine` and `splitField?` undo concatenation: a line is what stands before the first line end
(`splitLine_eq_some_iff`), a name what stands before the first separator
(`splitField?_eq_some_iff`). The names of the fields hold neither a separator nor a carriage
return, so a field keeps its value whatever bytes that has, and the line ends in a field are those
of its value (`crlf_infix_fieldText`).
-/

namespace CacheServer.Protocol

open Bytes (crlf)

/-- The first line is everything exactly if there is no line end. -/
theorem splitLine_eq_none_iff {bs line : Bytes} :
    splitLine bs = (line, none) ↔ bs = line ∧ ¬ crlf <:+: line := by
  unfold splitLine
  split
  · next first rest h =>
    simp only [Prod.mk.injEq, reduceCtorEq, and_false, false_iff, not_and, not_not]
    rintro rfl
    obtain ⟨rfl, -⟩ := Bytes.splitFirst_crlf_eq_some_iff.1 h
    exact ⟨first, rest, rfl⟩
  · next h =>
    have hfree := (Bytes.splitFirst_eq_none_iff Bytes.crlf_ne_nil).1 h
    simp only [Prod.mk.injEq, and_true]
    exact ⟨fun heq => ⟨heq, heq ▸ hfree⟩, And.left⟩

/-- The first line and the rest are what the first line end stands between. -/
theorem splitLine_eq_some_iff {bs line rest : Bytes} :
    splitLine bs = (line, some rest) ↔ bs = line ++ crlf ++ rest ∧ ¬ crlf <:+: line := by
  rw [← Bytes.splitFirst_crlf_eq_some_iff]
  unfold splitLine
  split <;> simp_all

/-- The line that a byte string opens with: everything up to the first line end, if there is one. -/
structure IsFirstLine (line bs : Bytes) : Prop where
  line_free : ¬ crlf <:+: line
  eq_append : bs = line ∨ ∃ rest, bs = line ++ crlf ++ rest

/-- The first line is what the cut in front of the first line end gives. -/
theorem isFirstLine_iff {line bs : Bytes} : IsFirstLine line bs ↔ (splitLine bs).1 = line := by
  constructor
  · rintro ⟨hfree, rfl | ⟨rest, rfl⟩⟩
    · rw [splitLine_eq_none_iff.2 ⟨rfl, hfree⟩]
    · rw [splitLine_eq_some_iff.2 ⟨rfl, hfree⟩]
  · rintro rfl
    rcases hsplit : splitLine bs with ⟨line, rest⟩
    cases rest with
    | none =>
      obtain ⟨rfl, hfree⟩ := splitLine_eq_none_iff.1 hsplit
      exact ⟨hfree, .inl rfl⟩
    | some rest =>
      obtain ⟨rfl, hfree⟩ := splitLine_eq_some_iff.1 hsplit
      exact ⟨hfree, .inr ⟨rest, rfl⟩⟩

/-- A field, without the end of its line. -/
def fieldText (name value : Bytes) : Bytes := name ++ fieldSeparator ++ value

/-- A written field line is its text with a line end behind it. -/
theorem fieldLine_eq (name value : Bytes) : fieldLine name value = fieldText name value ++ crlf :=
  rfl

/-- A name that ends at the first separator and holds no carriage return. -/
structure IsFieldName (name : Bytes) : Prop where
  separator_free : ¬ fieldSeparator <:+: name ++ fieldSeparator.dropLast
  return_free : 13 ∉ name

/-- `KEY` can be told from the separator. -/
theorem isFieldName_keyName : IsFieldName keyName := ⟨by decide, by decide⟩

/-- `VALUE` can be told from the separator. -/
theorem isFieldName_valueName : IsFieldName valueName := ⟨by decide, by decide⟩

/-- `MESSAGE` can be told from the separator. -/
theorem isFieldName_messageName : IsFieldName messageName := ⟨by decide, by decide⟩

/-- A line is cut at its first separator into a name and a value. -/
theorem splitField?_eq_some_iff {line name value : Bytes} :
    splitField? line = some (name, value) ↔
      line = fieldText name value ∧ ¬ fieldSeparator <:+: name ++ fieldSeparator.dropLast :=
  Bytes.splitFirst_eq_some_iff (by decide)

/-- A line is not cut exactly if it has no separator. -/
theorem splitField?_eq_none_iff {line : Bytes} :
    splitField? line = none ↔ ¬ fieldSeparator <:+: line :=
  Bytes.splitFirst_eq_none_iff (by decide)

/-- The name of a field is what stands before the first separator. -/
theorem splitField?_eq_some_iff_name_free {line name value : Bytes} :
    splitField? line = some (name, value) ↔
      line = fieldText name value ∧ ¬ fieldSeparator <:+: name := by
  have hcolon : fieldSeparator.dropLast = [58] := by decide
  rw [splitField?_eq_some_iff, hcolon, Bytes.infix_concat_iff_of_getLast? (by decide)]

/-- The text of a field is cut into its name and its value again. -/
theorem splitField?_fieldText {name : Bytes} (h : IsFieldName name) (value : Bytes) :
    splitField? (fieldText name value) = some (name, value) :=
  splitField?_eq_some_iff.2 ⟨rfl, h.separator_free⟩

/-- The line ends in a field are those of its value. -/
theorem crlf_infix_fieldText {name value : Bytes} (h : IsFieldName name) :
    crlf <:+: fieldText name value ↔ crlf <:+: value := by
  refine Bytes.crlf_infix_append_iff fun hmem => ?_
  rcases List.mem_append.1 hmem with hname | hsep
  · exact h.return_free hname
  · exact absurd hsep (by decide)

end CacheServer.Protocol
