import CacheServer.Json.Value
import CacheServer.Json.Write
import CacheServer.Proofs.Text.Utf8
import Mathlib.Tactic.Common
import Mathlib.Tactic.IntervalCases

/-!
# The spellings of a string

A string can be written in JSON in many ways. Any character can be given by the number of its code
unit, or of its two code units, in hexadecimal digits of either case; eight characters have a
letter; and all but quotes, backslashes and control characters can stand for themselves.
`StringSpelling` has all of them (RFC 8259, section 7).

`StringSpelling.scans` says that every spelling is scanned as one token that reads as the string,
and `stringSpelling_quote` that what is written is one of the spellings.
-/

namespace CacheServer.Json

/-! ## The grammar -/

/-- The digits, of either case, for the values below 16. -/
inductive HexDigit : Nat → UInt8 → Prop
  | decimal {d : Nat} : d < 10 → HexDigit d (0x30 + UInt8.ofNat d)
  | small {d : Nat} : d < 6 → HexDigit (10 + d) (0x61 + UInt8.ofNat d)
  | capital {d : Nat} : d < 6 → HexDigit (10 + d) (0x41 + UInt8.ofNat d)

/-- The escapes for a code unit: a backslash, the letter `u` and four digits. -/
inductive UnitSpelling : Nat → Bytes → Prop
  | mk {d₃ d₂ d₁ d₀ : Nat} {b₃ b₂ b₁ b₀ : UInt8} :
      HexDigit d₃ b₃ → HexDigit d₂ b₂ → HexDigit d₁ b₁ → HexDigit d₀ b₀ →
      UnitSpelling (((d₃ * 16 + d₂) * 16 + d₁) * 16 + d₀) [0x5C, 0x75, b₃, b₂, b₁, b₀]

/-- The characters that have a letter, with the byte that stands behind the backslash. -/
def shortEscapes : List (Char × UInt8) :=
  [('"', 0x22), ('\\', 0x5C), ('/', 0x2F), ('\x08', 0x62), ('\x0c', 0x66), ('\n', 0x6E),
    ('\r', 0x72), ('\t', 0x74)]

/-- The ways to write a character inside a string. -/
inductive CharSpelling : Char → Bytes → Prop
  | itself {c : Char} : 0x20 ≤ c.toNat → c ≠ '"' → c ≠ '\\' →
      CharSpelling c (String.utf8EncodeChar c)
  | short {c : Char} {letter : UInt8} : (c, letter) ∈ shortEscapes →
      CharSpelling c [0x5C, letter]
  | unit {c : Char} {bs : Bytes} : UnitSpelling c.toNat bs → CharSpelling c bs
  /-- The two code units of a character beyond U+FFFF. -/
  | pair {c : Char} {high low : Nat} {front back : Bytes} :
      UnitSpelling (0xD800 + high) front → UnitSpelling (0xDC00 + low) back →
      high < 0x400 → low < 0x400 → c.toNat = 0x10000 + high * 0x400 + low →
      CharSpelling c (front ++ back)

/-- The ways to write what stands between the quotes. -/
inductive TextSpelling : List Char → Bytes → Prop
  | nil : TextSpelling [] []
  | cons {c : Char} {cs : List Char} {front back : Bytes} :
      CharSpelling c front → TextSpelling cs back → TextSpelling (c :: cs) (front ++ back)

/-- The ways to write a string. -/
inductive StringSpelling (s : String) : Bytes → Prop
  | mk {bs : Bytes} : TextSpelling s.toList bs → StringSpelling s (0x22 :: (bs ++ [0x22]))

/-! ## Pieces that read as characters -/

/-- Whether pieces read as characters, whatever comes before and behind them. -/
def Denotes (pieces : List Piece) (cs : List Char) : Prop :=
  ∀ done rest, pieceBytes? done (pieces ++ rest) =
    pieceBytes? ((cs.flatMap String.utf8EncodeChar).reverse ++ done) rest

/-- No pieces read as no characters. -/
theorem Denotes.nil : Denotes [] [] := fun _ _ => rfl

/-- Pieces behind each other read as their characters in order. -/
theorem Denotes.append {front back : List Piece} {cs ds : List Char} (hfront : Denotes front cs)
    (hback : Denotes back ds) : Denotes (front ++ back) (cs ++ ds) := by
  intro done rest
  rw [List.append_assoc, hfront, hback, List.flatMap_append, List.reverse_append,
    List.append_assoc]

/-- Pieces that read as the characters of a text are decoded to it. -/
theorem Denotes.decode? {pieces : List Piece} {s : String} (h : Denotes pieces s.toList) :
    decode? pieces = some s := by
  have hbytes := h [] []
  rw [List.append_nil, List.append_nil, ← Bytes.ofText_eq_flatMap] at hbytes
  rw [Json.decode?, hbytes, pieceBytes?, List.reverse_reverse]
  exact Text.decode?_ofText s

/-- The bytes of a character read as it. -/
theorem denotes_bytes (c : Char) : Denotes ((String.utf8EncodeChar c).map .byte) [c] := by
  have hrun : ∀ (bs done : Bytes) (rest : List Piece),
      pieceBytes? done (bs.map .byte ++ rest) = pieceBytes? (bs.reverse ++ done) rest := by
    intro bs
    induction bs with
    | nil => exact fun _ _ => rfl
    | cons b bs ih =>
      intro done rest
      rw [List.map_cons, List.cons_append, pieceBytes?, ih, List.reverse_cons, List.append_assoc]
      rfl
  intro done rest
  rw [hrun, List.flatMap_singleton]

/-- A number below the width of a unit is kept in it. -/
theorem toNat_unit {n : Nat} (h : n < 0x10000) : (UInt16.ofNat n).toNat = n :=
  UInt16.toNat_ofNat_of_lt' h

/-- A character of one unit is read from this unit. -/
theorem unitChar?_ofNat {c : Char} (h : c.toNat < 0x10000) :
    unitChar? (UInt16.ofNat c.toNat) = some c := by
  have hvalid : (UInt16.ofNat c.toNat).toNat.isValidChar := by
    rw [toNat_unit h]
    exact c.valid
  rw [unitChar?, dif_pos hvalid, Option.some.injEq]
  exact Char.toNat_inj.1 (toNat_unit h)

/-- The unit of a character reads as it. -/
theorem denotes_unit {c : Char} (h : c.toNat < 0x10000) :
    Denotes [.unit (UInt16.ofNat c.toNat)] [c] := by
  intro done rest
  rw [List.singleton_append, List.flatMap_singleton, pieceBytes?.eq_def]
  simp only [unitChar?_ofNat h]

/-- The first code unit of a pair is no character of its own. -/
theorem unitChar?_high {high : Nat} (h : high < 0x400) :
    unitChar? (UInt16.ofNat (0xD800 + high)) = none := by
  rw [unitChar?, toNat_unit (by omega), dif_neg]
  rintro (hsmall | ⟨hlarge, -⟩) <;> omega

/-- A character beyond one unit is read from its pair of surrogates. -/
theorem pairChar?_ofNat {c : Char} {high low : Nat} (hhigh : high < 0x400) (hlow : low < 0x400)
    (h : c.toNat = 0x10000 + high * 0x400 + low) :
    pairChar? (UInt16.ofNat (0xD800 + high)) (UInt16.ofNat (0xDC00 + low)) = some c := by
  have hh := toNat_unit (show 0xD800 + high < 0x10000 by omega)
  have hl := toNat_unit (show 0xDC00 + low < 0x10000 by omega)
  have hchar : 0x10000 + (0xD800 + high - 0xD800) * 0x400 + (0xDC00 + low - 0xDC00) = c.toNat := by
    omega
  unfold pairChar?
  simp only [hh, hl, hchar, Char.ofNat_toNat]
  refine if_pos ?_
  simp only [Bool.and_eq_true, decide_eq_true_eq, UInt16.le_iff_toNat_le, hh, hl,
    UInt16.reduceToNat]
  omega

/-- The pair of surrogates of a character reads as it. -/
theorem denotes_pair {c : Char} {high low : Nat} (hhigh : high < 0x400) (hlow : low < 0x400)
    (h : c.toNat = 0x10000 + high * 0x400 + low) :
    Denotes [.unit (UInt16.ofNat (0xD800 + high)), .unit (UInt16.ofNat (0xDC00 + low))] [c] := by
  intro done rest
  rw [List.cons_append, List.singleton_append, List.flatMap_singleton, pieceBytes?.eq_def]
  simp only [unitChar?_high hhigh, pairChar?_ofNat hhigh hlow h]

/-! ## Scanning -/

/-- A digit is read with its value. -/
theorem HexDigit.value {d : Nat} {b : UInt8} (h : HexDigit d b) :
    hexValue? b = some (UInt16.ofNat d) := by
  cases h with
  | decimal hd => interval_cases d <;> decide
  | @small d hd | @capital d hd => interval_cases d <;> decide

/-- A digit is below sixteen. -/
theorem HexDigit.lt {d : Nat} {b : UInt8} (h : HexDigit d b) : d < 16 := by
  cases h <;> omega

/-- A byte is a digit by its number. -/
theorem hexDigit_of_toNat {d : Nat} {b : UInt8}
    (h : d < 10 ∧ b.toNat = 0x30 + d ∨
      10 ≤ d ∧ d < 16 ∧ (b.toNat = 0x57 + d ∨ b.toNat = 0x37 + d)) : HexDigit d b := by
  have hbyte : ∀ (base : UInt8) {e : Nat}, b.toNat = base.toNat + e → b = base + UInt8.ofNat e := by
    intro base e hb
    rw [← UInt8.ofNat_toNat (x := b), hb, UInt8.ofNat_add, UInt8.ofNat_toNat]
  rcases h with ⟨hd, hb⟩ | ⟨hten, hd, hb⟩
  · rw [hbyte 0x30 hb]
    exact .decimal hd
  · obtain ⟨e, rfl⟩ := Nat.exists_eq_add_of_le hten
    rw [← Nat.add_assoc, ← Nat.add_assoc] at hb
    rcases hb with hb | hb
    · rw [hbyte 0x61 hb]
      exact .small (by omega)
    · rw [hbyte 0x41 hb]
      exact .capital (by omega)

/-- The escape of a unit is one of a number in its width. -/
theorem UnitSpelling.lt {u : Nat} {bs : Bytes} (h : UnitSpelling u bs) : u < 0x10000 := by
  cases h with
  | mk h₃ h₂ h₁ h₀ =>
    have := h₃.lt
    have := h₂.lt
    have := h₁.lt
    have := h₀.lt
    omega

/-- Whether bytes inside a string are scanned as pieces, whatever comes before them. -/
def ScansAs (bs : Bytes) (new : List Piece) : Prop :=
  ∀ pieces tokens, bs.foldlM Scanner.step ⟨.text pieces, tokens⟩ =
    some ⟨.text (new.reverse ++ pieces), tokens⟩

/-- Nothing is scanned as no pieces. -/
theorem ScansAs.nil : ScansAs [] [] := fun _ _ => rfl

/-- Bytes behind each other are scanned one after the other. -/
theorem ScansAs.append {front back : Bytes} {new new' : List Piece} (hfront : ScansAs front new)
    (hback : ScansAs back new') : ScansAs (front ++ back) (new ++ new') := by
  intro pieces tokens
  rw [List.foldlM_append, hfront, List.reverse_append, List.append_assoc]
  exact hback _ _

/-- Bytes that are neither quotes nor backslashes nor control characters stand for themselves. -/
theorem scansAs_bytes {bs : Bytes} (h : ∀ b ∈ bs, b ≠ 0x22 ∧ b ≠ 0x5C ∧ ¬ b < 0x20) :
    ScansAs bs (bs.map .byte) := by
  induction bs with
  | nil => exact .nil
  | cons b rest ih =>
    obtain ⟨⟨hquote, hbackslash, hcontrol⟩, hrest⟩ := List.forall_mem_cons.1 h
    have hone : ScansAs [b] [.byte b] := fun pieces tokens => by
      simp [Scanner.step, hquote, hbackslash, hcontrol]
    exact hone.append (ih hrest)

/-- The characters that have a letter are among the first 128. -/
theorem lt_of_mem_shortEscapes {c : Char} {letter : UInt8} (h : (c, letter) ∈ shortEscapes) :
    c.toNat < 128 :=
  of_decide_eq_true (List.all_eq_true.1
    (rfl : (shortEscapes.all fun escape => decide (escape.1.toNat < 128)) = true) _ h)

/-- A backslash and a letter are scanned as the byte of the character. -/
theorem scansAs_short {c : Char} {letter : UInt8} (h : (c, letter) ∈ shortEscapes) :
    ScansAs [0x5C, letter] [.byte (UInt8.ofNat c.toNat)] := by
  intro pieces tokens
  simp only [shortEscapes, List.mem_cons, Prod.mk.injEq, List.not_mem_nil, or_false] at h
  rcases h with ⟨rfl, rfl⟩ | ⟨rfl, rfl⟩ | ⟨rfl, rfl⟩ | ⟨rfl, rfl⟩ | ⟨rfl, rfl⟩ | ⟨rfl, rfl⟩ |
    ⟨rfl, rfl⟩ | ⟨rfl, rfl⟩ <;> rfl

/-- The escape of a unit is scanned as this unit. -/
theorem UnitSpelling.scansAs {u : Nat} {bs : Bytes} (h : UnitSpelling u bs) :
    ScansAs bs [.unit (UInt16.ofNat u)] := by
  intro pieces tokens
  cases h with
  | @mk d₃ d₂ d₁ d₀ b₃ b₂ b₁ b₀ h₃ h₂ h₁ h₀ =>
    have hunit : (((0 * 16 + UInt16.ofNat d₃) * 16 + UInt16.ofNat d₂) * 16 + UInt16.ofNat d₁) * 16 +
        UInt16.ofNat d₀ = UInt16.ofNat (((d₃ * 16 + d₂) * 16 + d₁) * 16 + d₀) := by
      simp [UInt16.ofNat_add, UInt16.ofNat_mul]
    rw [← hunit]
    simp [Scanner.step, h₃.value, h₂.value, h₁.value, h₀.value]

/-- A spelling of a character is scanned as pieces that read as the character. -/
theorem CharSpelling.scansAs {c : Char} {bs : Bytes} (h : CharSpelling c bs) :
    ∃ new, ScansAs bs new ∧ Denotes new [c] := by
  cases h with
  | itself hcontrol hquote hbackslash =>
    refine ⟨_, scansAs_bytes fun b hb => ?_, denotes_bytes c⟩
    have hascii : ∀ n < 128, b.toNat = n → c.toNat = n := fun n hn hbn =>
      (Text.toNat_of_mem_utf8EncodeChar hb (hbn ▸ hn)).trans hbn
    refine ⟨?_, ?_, fun hlt => ?_⟩
    · rintro rfl
      exact hquote (Char.toNat_inj.1 (hascii 0x22 (by decide) rfl))
    · rintro rfl
      exact hbackslash (Char.toNat_inj.1 (hascii 0x5C (by decide) rfl))
    · have hb20 : b.toNat < 0x20 := hlt
      have := hascii b.toNat (by omega) rfl
      omega
  | short hmem =>
    refine ⟨(String.utf8EncodeChar c).map .byte, ?_, denotes_bytes c⟩
    rw [Text.utf8EncodeChar_of_lt (lt_of_mem_shortEscapes hmem)]
    exact scansAs_short hmem
  | unit hunit => exact ⟨_, hunit.scansAs, denotes_unit hunit.lt⟩
  | pair hfront hback hhigh hlow hc =>
    exact ⟨_, hfront.scansAs.append hback.scansAs, denotes_pair hhigh hlow hc⟩

/-- What stands between the quotes is scanned as pieces that read as its characters. -/
theorem TextSpelling.scansAs {cs : List Char} {bs : Bytes} (h : TextSpelling cs bs) :
    ∃ new, ScansAs bs new ∧ Denotes new cs := by
  induction h with
  | nil => exact ⟨[], .nil, .nil⟩
  | cons hchar _ ih =>
    obtain ⟨front, hfront, hc⟩ := hchar.scansAs
    obtain ⟨back, hback, hcs⟩ := ih
    exact ⟨front ++ back, hfront.append hback, hc.append hcs⟩

/-- Whether bytes are scanned as tokens, from between two tokens to between two tokens. -/
def Scans (bs : Bytes) (tokens : List Token) : Prop :=
  ∀ behind, bs.foldlM Scanner.step ⟨.between, behind⟩ =
    some ⟨.between, tokens.reverse ++ behind⟩

/-- What stands between two quotes is scanned as one token. -/
theorem ScansAs.scans {bs : Bytes} {pieces : List Piece} (h : ScansAs bs pieces) :
    Scans (0x22 :: (bs ++ [0x22])) [.string pieces] := by
  intro tokens
  have hopen : Scanner.step ⟨.between, tokens⟩ 0x22 = some ⟨.text [], tokens⟩ := rfl
  have hinner := h [] tokens
  rw [List.append_nil] at hinner
  have hclose : Scanner.step ⟨.text pieces.reverse, tokens⟩ 0x22 =
      some ⟨.between, .string pieces.reverse.reverse :: tokens⟩ := rfl
  rw [List.reverse_reverse] at hclose
  rw [List.foldlM_cons, hopen, Option.bind_eq_bind, Option.bind_some, List.foldlM_append, hinner,
    Option.bind_eq_bind, Option.bind_some, List.foldlM_cons, hclose]
  rfl

/-- Every spelling of a string is scanned as one token that reads as the string. -/
theorem StringSpelling.scans {s : String} {bs : Bytes} (h : StringSpelling s bs) :
    ∃ pieces, decode? pieces = some s ∧ Scans bs [.string pieces] := by
  cases h with
  | mk htext =>
    obtain ⟨pieces, hscan, hdenotes⟩ := htext.scansAs
    exact ⟨pieces, hdenotes.decode?, hscan.scans⟩

/-! ## Writing -/

/-- The writer's digit is one of the digits. -/
theorem hexDigit_spelling {d : Nat} (h : d < 16) :
    ∃ b, String.utf8EncodeChar (hexDigit d) = [b] ∧ HexDigit d b := by
  rcases Nat.lt_or_ge d 10 with hd | hd
  · refine ⟨_, ?_, .decimal hd⟩
    interval_cases d <;> decide
  · obtain ⟨e, rfl⟩ := Nat.exists_eq_add_of_le hd
    have he : e < 6 := by omega
    refine ⟨_, ?_, .small he⟩
    interval_cases e <;> decide

/-- What the writer makes of a character is a spelling of it. -/
theorem charSpelling_escape (c : Char) :
    CharSpelling c ((escape c).flatMap String.utf8EncodeChar) := by
  fun_cases escape c with
  | case8 hquote hbackslash _ _ _ _ _ hcontrol =>
    obtain ⟨b₁, hb₁, h₁⟩ := hexDigit_spelling (d := c.toNat / 16) (by omega)
    obtain ⟨b₀, hb₀, h₀⟩ := hexDigit_spelling (d := c.toNat % 16) (by omega)
    have hzero : HexDigit 0 0x30 := .decimal (by decide)
    have hunit := UnitSpelling.mk hzero hzero h₁ h₀
    have hc : ((0 * 16 + 0) * 16 + c.toNat / 16) * 16 + c.toNat % 16 = c.toNat := by omega
    rw [hc] at hunit
    simp only [List.flatMap_cons, hb₁, hb₀]
    exact .unit hunit
  | case9 hquote hbackslash _ _ _ _ _ hcontrol =>
    rw [List.flatMap_singleton]
    exact .itself (Nat.le_of_not_lt hcontrol) hquote hbackslash
  | _ => subst_vars; exact .short (by decide)

/-- What is written for a string is one of its spellings. -/
theorem stringSpelling_quote (s : String) : StringSpelling s (Bytes.ofText (quote s)) := by
  have htext : ∀ cs : List Char,
      TextSpelling cs ((cs.flatMap escape).flatMap String.utf8EncodeChar) := by
    intro cs
    induction cs with
    | nil => exact .nil
    | cons c cs ih =>
      rw [List.flatMap_cons, List.flatMap_append]
      exact .cons (charSpelling_escape c) ih
  have hquote : Bytes.ofText (quote s) =
      0x22 :: ((s.toList.flatMap escape).flatMap String.utf8EncodeChar ++ [0x22]) := by
    rw [quote, Bytes.ofText_ofList, List.flatMap_cons, List.flatMap_append]
    rfl
  rw [hquote]
  exact .mk (htext s.toList)

end CacheServer.Json
