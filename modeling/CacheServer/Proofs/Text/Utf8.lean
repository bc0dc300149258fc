import CacheServer.Text.Utf8
import Mathlib.Tactic.Common

/-!
# Texts as bytes

A text and its bytes determine each other: `decode?` reads exactly the byte strings that `ofText`
writes (`decode?_eq_some_iff`), and different texts have different bytes (`ofText_injective`). The
bytes of a text are those of its characters (`ofText_eq_flatMap`): one below 128 for an ASCII
character, and bytes from 128 on for every other.
-/

namespace CacheServer

namespace Bytes

/-- The bytes of a text as an array. -/
theorem toByteArray_ofText (s : String) : (ofText s).toByteArray = s.toByteArray :=
  ByteArray.ext (by simp [ofText])

/-- Different texts have different bytes. -/
theorem ofText_injective {s t : String} (h : ofText s = ofText t) : s = t := by
  rw [← String.toByteArray_inj, ← toByteArray_ofText, h, toByteArray_ofText]

/-- Only the empty text has no bytes. -/
@[simp] theorem ofText_eq_nil_iff {s : String} : ofText s = [] ↔ s = "" :=
  ⟨fun h => ofText_injective h, fun h => h ▸ rfl⟩

/-- The bytes of two texts in a row. -/
theorem ofText_append (s t : String) : ofText (s ++ t) = ofText s ++ ofText t := by
  simp [ofText]

/-- The bytes of a text are those of its characters, one after the other. -/
theorem ofText_eq_flatMap (s : String) : ofText s = s.toList.flatMap String.utf8EncodeChar := by
  rw [ofText, ← String.utf8Encode_toList]
  simp [List.utf8Encode]

/-- The bytes of a text are those of its characters. -/
theorem ofText_ofList (cs : List Char) :
    ofText (String.ofList cs) = cs.flatMap String.utf8EncodeChar := by
  rw [ofText_eq_flatMap, String.toList_ofList]

/-- The bytes of texts with separators between them. -/
theorem ofText_intercalate (sep : String) (texts : List String) :
    ofText (sep.intercalate texts) = (ofText sep).intercalate (texts.map ofText) := by
  induction texts with
  | nil => exact ofText_eq_nil_iff.2 String.intercalate_nil
  | cons text rest ih =>
    cases rest with
    | nil => rw [String.intercalate_singleton, List.map_singleton, List.intercalate_singleton]
    | cons next rest =>
      rw [String.intercalate_cons_cons, ofText_append, ofText_append, ih, List.map_cons,
        List.map_cons, List.map_cons, List.intercalate_cons_cons]

end Bytes

namespace Text

/-- A byte string is read as a text exactly if it is that text's bytes. -/
theorem decode?_eq_some_iff {bs : Bytes} {s : String} :
    decode? bs = some s ↔ bs = Bytes.ofText s := by
  have hbytes : ∀ t : String, bs = Bytes.ofText t ↔ t.toByteArray = bs.toByteArray := fun t => by
    rw [← Bytes.toByteArray_ofText, List.toByteArray_inj, eq_comm]
  unfold decode? String.fromUTF8?
  rw [hbytes]
  split
  · next valid =>
    rw [Option.some.injEq, ← String.toByteArray_inj, eq_comm]
    rfl
  · next invalid =>
    refine iff_of_false (by simp) fun h => invalid ?_
    rw [← h]
    exact s.isValidUTF8

/-- The bytes of a text are read as the text. -/
@[simp] theorem decode?_ofText (s : String) : decode? (Bytes.ofText s) = some s :=
  decode?_eq_some_iff.2 rfl

/-- Nothing in the bytes of a text is replaced. -/
theorem decodeLossy_ofText (s : String) : decodeLossy (Bytes.ofText s) = s := by
  rw [decodeLossy, decode?_ofText, Option.getD_some]

/-! ## The bytes of a character -/

/-- An ASCII character is one byte. -/
theorem utf8EncodeChar_of_lt {c : Char} (h : c.toNat < 128) :
    String.utf8EncodeChar c = [UInt8.ofNat c.toNat] :=
  if_pos (Nat.le_of_lt_succ h)

/-- No byte of a character beyond ASCII stands for an ASCII character. -/
theorem le_of_mem_utf8EncodeChar {c : Char} (h : 128 ≤ c.toNat) :
    ∀ b ∈ String.utf8EncodeChar c, 128 ≤ b.toNat := by
  have hlarge : ∀ n : Nat, 128 ≤ n → n < 256 → 128 ≤ (UInt8.ofNat n).toNat := fun n hn hlt => by
    rwa [UInt8.toNat_ofNat_of_lt' hlt]
  have hv : c.val.toNat = c.toNat := rfl
  fun_cases String.utf8EncodeChar c with
  | case1 v hshort => omega
  | _ =>
    intro b hb
    simp only [List.mem_cons, List.not_mem_nil, or_false] at hb
    rcases hb with rfl | rfl | rfl | rfl <;> exact hlarge _ (by omega) (by omega)

/-- A byte below 128 occurs only as the character of its number. -/
theorem toNat_of_mem_utf8EncodeChar {c : Char} {b : UInt8} (hb : b ∈ String.utf8EncodeChar c)
    (hlt : b.toNat < 128) : c.toNat = b.toNat := by
  rcases Nat.lt_or_ge c.toNat 128 with hc | hc
  · rw [utf8EncodeChar_of_lt hc, List.mem_singleton] at hb
    rw [hb, UInt8.toNat_ofNat_of_lt' (Nat.lt_trans hc (by decide))]
  · have := le_of_mem_utf8EncodeChar hc b hb
    omega

/-- No byte of a character is as large as those with which UTF-8 ends. -/
theorem lt_of_mem_utf8EncodeChar {c : Char} : ∀ b ∈ String.utf8EncodeChar c, b.toNat < 0xF8 := by
  have hsmall : ∀ n : Nat, n < 0xF8 → (UInt8.ofNat n).toNat < 0xF8 := fun n hn => by
    rwa [UInt8.toNat_ofNat_of_lt' (Nat.lt_trans hn (by decide))]
  fun_cases String.utf8EncodeChar c with
  | _ =>
    intro b hb
    simp only [List.mem_cons, List.not_mem_nil, or_false] at hb
    rcases hb with rfl | rfl | rfl | rfl <;> exact hsmall _ (by omega)

/-- An ASCII character stands in a text exactly if its byte stands among the bytes of the text. -/
theorem mem_ofText_iff {c : Char} {s : String} (h : c.toNat < 128) :
    UInt8.ofNat c.toNat ∈ Bytes.ofText s ↔ c ∈ s.toList := by
  have hbyte : (UInt8.ofNat c.toNat).toNat = c.toNat :=
    UInt8.toNat_ofNat_of_lt' (Nat.lt_trans h (by decide))
  rw [Bytes.ofText_eq_flatMap, List.mem_flatMap]
  constructor
  · rintro ⟨d, hd, hmem⟩
    have hdc : d.toNat = c.toNat :=
      (toNat_of_mem_utf8EncodeChar hmem (by rwa [hbyte])).trans hbyte
    rwa [← Char.toNat_inj.1 hdc]
  · intro hc
    exact ⟨c, hc, utf8EncodeChar_of_lt h ▸ List.mem_singleton_self _⟩

/-- There is no carriage return in a decimal numeral. -/
theorem return_not_mem_repr (n : Nat) : 13 ∉ Bytes.ofText (Nat.repr n) := by
  rw [Nat.repr_eq_ofList_toDigits, Bytes.ofText_ofList, List.mem_flatMap]
  rintro ⟨c, hc, hmem⟩
  have hdigit := Nat.isDigit_of_mem_toDigits (by decide) (by decide) hc
  obtain rfl : c = '\r' := Char.toNat_inj.1 (toNat_of_mem_utf8EncodeChar hmem (by decide))
  exact absurd hdigit (by decide)

end Text

end CacheServer
