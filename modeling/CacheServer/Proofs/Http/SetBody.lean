import CacheServer.Http.SetBody
import CacheServer.Proofs.Json.Reading

/-!
# Bodies that name a value

`ValueBody v` has all the ways to write the object whose only member is `value`, with the text `v`:
both strings in any spelling, and white space wherever JSON allows it. Every one of them is read as
naming `v` (`ValueBody.read?`), and what is written for the object is one (`valueBody_object`).
-/

namespace CacheServer.Http.SetBody

open Json

/-- The bodies that name a value and hold nothing else. -/
inductive ValueBody (v : String) : Bytes → Prop
  | mk {gap : Fin 6 → Bytes} {name text : Bytes} :
      (∀ i, ∀ b ∈ gap i, isSpace b = true) → StringSpelling "value" name → StringSpelling v text →
      ValueBody v (gap 0 ++ [0x7B] ++ gap 1 ++ name ++ gap 2 ++ [0x3A] ++ gap 3 ++ text ++ gap 4 ++
        [0x7D] ++ gap 5)

/-- A body with the text of a value is read as this value. -/
theorem ValueBody.read? {v : String} {body : Bytes} (h : ValueBody v body) :
    SetBody.read? body = some v := by
  cases h with
  | mk hgap hname htext =>
    obtain ⟨name, hvalue, hname⟩ := hname.scans
    obtain ⟨text, hv, htext⟩ := htext.scans
    have hspace := fun i => scans_space (hgap i)
    have hopening : Scans [0x7B] [.openObject] := scans_punctuation rfl
    have hcolon : Scans [0x3A] [.colon] := scans_punctuation rfl
    have hclosing : Scans [0x7D] [.closeObject] := scans_punctuation rfl
    have hfront := ((((hspace 0).append hopening).append (hspace 1)).append hname).append (hspace 2)
    have hmiddle := ((hfront.append hcolon).append (hspace 3)).append htext
    have hscans := ((hmiddle.append (hspace 4)).append hclosing).append (hspace 5)
    have hparses : Parses [.openObject, .string name, .colon, .string text, .closeObject]
        (.object [(name, .string text)]) := fun _ => rfl
    rw [SetBody.read?, parse?_of_scans hscans hparses, Option.bind_some, ofValue?]
    simp [candidates?, hvalue, text?, hv]

/-- What is written for the object with the member is such a body. -/
theorem valueBody_object (v : String) :
    ValueBody v (Bytes.ofText (object [("value", quote v)])) := by
  have hbytes : Bytes.ofText (object [("value", quote v)]) =
      [0x7B] ++ (Bytes.ofText (quote "value") ++ [0x3A] ++ Bytes.ofText (quote v)) ++ [0x7D] := by
    rw [object, List.map_singleton, String.intercalate_singleton]
    simp only [Bytes.ofText_append]
    rfl
  have hbody := @ValueBody.mk v (fun _ => []) _ _ (by simp) (stringSpelling_quote "value")
    (stringSpelling_quote v)
  rw [hbytes]
  simpa using hbody

end CacheServer.Http.SetBody
