import CacheServer.Proofs.Json.Reading
import Mathlib.Data.List.Induction

/-!
# The tokens of a text

`TokenText` has the ways to write a token, and `Lexed` the texts that are tokens with white space
between them. Every text that is scanned is one (`lexed_of_tokens?`).
-/

namespace CacheServer.Json

open Scanner (punctuation?)

/-! ## The grammar -/

/-- The ways to write a piece of a string. -/
inductive PieceSpelling : Piece → Bytes → Prop
  | itself {b : UInt8} : b ≠ 0x22 → b ≠ 0x5C → ¬ b < 0x20 → PieceSpelling (.byte b) [b]
  | short {c : Char} {letter : UInt8} : (c, letter) ∈ shortEscapes →
      PieceSpelling (.byte (UInt8.ofNat c.toNat)) [0x5C, letter]
  | unit {u : Nat} {bs : Bytes} : UnitSpelling u bs → PieceSpelling (.unit (UInt16.ofNat u)) bs

/-- The ways to write what stands between the quotes. -/
inductive PiecesSpelling : List Piece → Bytes → Prop
  | nil : PiecesSpelling [] []
  | snoc {pieces : List Piece} {piece : Piece} {front back : Bytes} : PiecesSpelling pieces front →
      PieceSpelling piece back → PiecesSpelling (pieces ++ [piece]) (front ++ back)

/-- The ways to write a token. -/
inductive TokenText : Token → Bytes → Prop
  | openArray : TokenText .openArray [0x5B]
  | closeArray : TokenText .closeArray [0x5D]
  | openObject : TokenText .openObject [0x7B]
  | closeObject : TokenText .closeObject [0x7D]
  | colon : TokenText .colon [0x3A]
  | comma : TokenText .comma [0x2C]
  | scalar {s : Scalar} {bs : Bytes} : ScalarText s bs → TokenText (.scalar s) bs
  | string {pieces : List Piece} {bs : Bytes} : PiecesSpelling pieces bs →
      TokenText (.string pieces) (0x22 :: (bs ++ [0x22]))

/-- The texts that are tokens with white space between them. -/
inductive Lexed : List Token → Bytes → Prop
  | nil : Lexed [] []
  | blank {tokens : List Token} {bs : Bytes} {b : UInt8} : Lexed tokens bs → isSpace b = true →
      Lexed tokens (bs ++ [b])
  | snoc {tokens : List Token} {token : Token} {front back : Bytes} : Lexed tokens front →
      TokenText token back → Lexed (tokens ++ [token]) (front ++ back)

/-! ## Scanned texts -/

/-- What is read as a digit is the digit of its value. -/
theorem hexDigit_of_hexValue? {b : UInt8} {v : UInt16} (h : hexValue? b = some v) :
    HexDigit v.toNat b := by
  refine hexDigit_of_toNat ?_
  have hsub : ∀ low : UInt16, low.toNat ≤ b.toNat →
      (b.toUInt16 - low).toNat = b.toNat - low.toNat := by
    intro low hlow
    rw [UInt16.toNat_sub_of_le _ _ (UInt16.le_iff_toNat_le.2 hlow), UInt8.toNat_toUInt16]
  revert h
  unfold hexValue? isDigit
  simp only [Bool.and_eq_true, decide_eq_true_eq, UInt8.le_iff_toNat_le, UInt8.reduceToNat]
  split_ifs with hdecimal hsmall hcapital
  · rintro ⟨⟩
    rw [hsub 0x30 hdecimal.1]
    simp only [UInt16.reduceToNat]
    omega
  · rintro ⟨⟩
    rw [UInt16.toNat_add, hsub 0x61 hsmall.1]
    simp only [UInt16.reduceToNat]
    omega
  · rintro ⟨⟩
    rw [UInt16.toNat_add, hsub 0x41 hcapital.1]
    simp only [UInt16.reduceToNat]
    omega
  · exact nofun

/-- A letter that is read behind a backslash is the letter of a character. -/
theorem exists_shortEscape {letter b : UInt8} (h : Scanner.simpleEscape? letter = some b) :
    ∃ c, (c, letter) ∈ shortEscapes ∧ b = UInt8.ofNat c.toNat := by
  refine ⟨Char.ofNat b.toNat, ?_⟩
  revert h
  fun_cases Scanner.simpleEscape? letter with
  | case9 => exact nofun
  | _ => rintro ⟨⟩; decide

/-- The digits of a code unit that have been read, with their value. -/
inductive HexRun : Nat → Bytes → Prop
  | nil : HexRun 0 []
  | snoc {n d : Nat} {bs : Bytes} {b : UInt8} : HexRun n bs → HexDigit d b →
      HexRun (n * 16 + d) (bs ++ [b])

/-- Four digits behind a backslash and the letter are the escape of their value. -/
theorem HexRun.unitSpelling {n : Nat} {bs : Bytes} (h : HexRun n bs) (hlength : bs.length = 4) :
    UnitSpelling n (0x5C :: 0x75 :: bs) := by
  have hback : ∀ {n : Nat} {k : Nat} {bs : Bytes}, HexRun n bs → bs.length = k + 1 →
      ∃ m d front b, n = m * 16 + d ∧ bs = front ++ [b] ∧ front.length = k ∧ HexRun m front ∧
        HexDigit d b := by
    rintro _ k _ (_ | ⟨hfront, hdigit⟩) hlength
    · cases hlength
    · exact ⟨_, _, _, _, rfl, rfl, by simpa using hlength, hfront, hdigit⟩
  -- the four digits, the last one first
  obtain ⟨_, _, _, _, rfl, rfl, hlength, h, h₀⟩ := hback h hlength
  obtain ⟨_, _, _, _, rfl, rfl, hlength, h, h₁⟩ := hback h hlength
  obtain ⟨_, _, _, _, rfl, rfl, hlength, h, h₂⟩ := hback h hlength
  obtain ⟨_, _, _, _, rfl, rfl, hlength, h, h₃⟩ := hback h hlength
  cases h with
  | nil =>
    rw [Nat.zero_mul, Nat.zero_add]
    exact .mk h₃ h₂ h₁ h₀
  | snoc => simp at hlength

/-- The bytes of a token or a run that the scanner is inside of. -/
inductive Inside : Mode → Bytes → Prop
  | between : Inside .between []
  | numeric {run : Bytes} : Inside (.numeric run) run.reverse
  | letters {run : Bytes} : Inside (.letters run) run.reverse
  | text {pieces : List Piece} {bs : Bytes} : PiecesSpelling pieces.reverse bs →
      Inside (.text pieces) (0x22 :: bs)
  | escape {pieces : List Piece} {bs : Bytes} : PiecesSpelling pieces.reverse bs →
      Inside (.escape pieces) (0x22 :: (bs ++ [0x5C]))
  | hex {pieces : List Piece} {bs digits : Bytes} {missing n : Nat} :
      PiecesSpelling pieces.reverse bs → HexRun n digits → digits.length + missing = 4 →
      missing ≠ 0 →
      Inside (.hex pieces missing (UInt16.ofNat n)) (0x22 :: (bs ++ 0x5C :: 0x75 :: digits))

/-- What the scanner has behind it: tokens, and the beginning of the next one. -/
def Scanned (s : Scanner) (bs : Bytes) : Prop :=
  ∃ front back, Lexed s.tokens.reverse front ∧ Inside s.mode back ∧ bs = front ++ back

/-- Punctuation is the text of its token. -/
theorem tokenText_of_punctuation? {b : UInt8} {token : Token} (h : punctuation? b = some token) :
    TokenText token [b] := by
  revert h
  fun_cases punctuation? b with
  | case1 => rintro ⟨⟩; exact .openArray
  | case2 => rintro ⟨⟩; exact .closeArray
  | case3 => rintro ⟨⟩; exact .openObject
  | case4 => rintro ⟨⟩; exact .closeObject
  | case5 => rintro ⟨⟩; exact .colon
  | case6 => rintro ⟨⟩; exact .comma
  | case7 => rintro ⟨⟩

/-- A byte between tokens is white space, a token or the beginning of one. -/
theorem scanned_begin? {tokens : List Token} {b : UInt8} {s : Scanner} {front : Bytes}
    (hlexed : Lexed tokens.reverse front) (h : Scanner.begin? tokens b = some s) :
    Scanned s (front ++ [b]) := by
  revert h
  fun_cases Scanner.begin? tokens b with
  | case1 hspace =>
    rintro ⟨⟩
    exact ⟨_, [], hlexed.blank hspace, .between, (List.append_nil _).symm⟩
  | case2 _ hquote => rintro ⟨⟩; exact ⟨front, [0x22], hlexed, .text .nil, by rw [hquote]⟩
  | case3 => rintro ⟨⟩; exact ⟨front, [b], hlexed, .numeric, rfl⟩
  | case4 => rintro ⟨⟩; exact ⟨front, [b], hlexed, .letters, rfl⟩
  | case5 =>
    intro h
    obtain ⟨token, hmark, rfl⟩ := Option.map_eq_some_iff.1 h
    refine ⟨front ++ [b], [], ?_, .between, (List.append_nil _).symm⟩
    rw [List.reverse_cons]
    exact hlexed.snoc (tokenText_of_punctuation? hmark)

/-- A run that is ended is the text of the token that it is read as. -/
theorem lexed_endRun? {run front : Bytes} {tokens tokens' : List Token}
    (hlexed : Lexed tokens.reverse front) (h : Scanner.endRun? run tokens = some tokens') :
    Lexed tokens'.reverse (front ++ run.reverse) := by
  obtain ⟨s, hs, rfl⟩ := Option.map_eq_some_iff.1 h
  rw [List.reverse_cons]
  exact hlexed.snoc (.scalar (scalar?_eq_some_iff.1 hs))

/-- Behind a run, what follows it. -/
theorem scanned_endRun? {run front : Bytes} {tokens : List Token} {b : UInt8} {s : Scanner}
    (hlexed : Lexed tokens.reverse front)
    (h : ((Scanner.endRun? run tokens).bind fun tokens => Scanner.begin? tokens b) = some s) :
    Scanned s (front ++ run.reverse ++ [b]) := by
  obtain ⟨tokens', hend, hbegin⟩ := Option.bind_eq_some_iff.1 h
  exact scanned_begin? (lexed_endRun? hlexed hend) hbegin

/-- One more piece of a string. -/
theorem scanned_piece {tokens : List Token} {pieces : List Piece} {piece : Piece}
    {front bs back : Bytes} (hlexed : Lexed tokens.reverse front)
    (hpieces : PiecesSpelling pieces.reverse bs) (hpiece : PieceSpelling piece back) :
    Scanned ⟨.text (piece :: pieces), tokens⟩ (front ++ 0x22 :: (bs ++ back)) := by
  have hall := hpieces.snoc hpiece
  rw [← List.reverse_cons] at hall
  exact ⟨front, _, hlexed, .text hall, rfl⟩

/-- The scanner has behind it what it had and the byte that it has read. -/
theorem Scanned.step {s s' : Scanner} {b : UInt8} {bs : Bytes} (h : Scanned s bs)
    (hstep : s.step b = some s') : Scanned s' (bs ++ [b]) := by
  obtain ⟨front, back, hlexed, hinside, rfl⟩ := h
  obtain ⟨mode, tokens⟩ := s
  cases hinside with
  | between =>
    rw [List.append_nil]
    exact scanned_begin? hlexed hstep
  | numeric =>
    simp only [Scanner.step] at hstep
    split at hstep
    · cases hstep
      exact ⟨front, _, hlexed, .numeric, by simp⟩
    · exact scanned_endRun? hlexed hstep
  | letters =>
    simp only [Scanner.step] at hstep
    split at hstep
    · cases hstep
      exact ⟨front, _, hlexed, .letters, by simp⟩
    · exact scanned_endRun? hlexed hstep
  | @text pieces bs hpieces =>
    simp only [Scanner.step] at hstep
    rw [List.append_assoc, List.cons_append]
    split_ifs at hstep with hquote hbackslash hcontrol
    · cases hstep
      refine ⟨front ++ (0x22 :: (bs ++ [b])), [], ?_, .between, (List.append_nil _).symm⟩
      rw [List.reverse_cons, hquote]
      exact hlexed.snoc (.string hpieces)
    · cases hstep
      exact ⟨front, _, hlexed, .escape hpieces, by rw [hbackslash]⟩
    · cases hstep
      exact scanned_piece hlexed hpieces (.itself hquote hbackslash hcontrol)
  | @escape pieces bs hpieces =>
    simp only [Scanner.step] at hstep
    rw [List.append_assoc, List.cons_append, List.append_assoc]
    split_ifs at hstep with hunit
    · cases hstep
      exact ⟨front, _, hlexed, .hex hpieces .nil rfl (by decide), by rw [hunit]; rfl⟩
    · obtain ⟨c, hescape, rfl⟩ := Option.map_eq_some_iff.1 hstep
      obtain ⟨d, hshort, rfl⟩ := exists_shortEscape hescape
      exact scanned_piece hlexed hpieces (.short hshort)
  | @hex pieces bs digits missing n hpieces hrun hlength hmissing =>
    obtain ⟨v, hv, rfl⟩ := Option.map_eq_some_iff.1 hstep
    have hmore := hrun.snoc (hexDigit_of_hexValue? hv)
    have hunit : UInt16.ofNat n * 16 + v = UInt16.ofNat (n * 16 + v.toNat) := by
      rw [UInt16.ofNat_add, UInt16.ofNat_mul, UInt16.ofNat_toNat]
      rfl
    have hcount : (digits ++ [b]).length = digits.length + 1 := by simp
    rw [List.append_assoc, List.cons_append, List.append_assoc]
    simp only [hunit]
    -- the unit is complete with its fourth digit
    split_ifs with hlast
    · exact scanned_piece hlexed hpieces (.unit (hmore.unitSpelling (by omega)))
    · exact ⟨front, _, hlexed, .hex hpieces hmore (by omega) (by omega), rfl⟩

/-- The scanner has behind it all that it has read. -/
theorem scanned_of_foldlM {bs : Bytes} {s : Scanner}
    (h : bs.foldlM Scanner.step .start = some s) : Scanned s bs := by
  induction bs using List.reverseRecOn generalizing s with
  | nil => cases h; exact ⟨[], [], .nil, .between, rfl⟩
  | append_singleton bs b ih =>
    rw [List.foldlM_append, Option.bind_eq_bind, Option.bind_eq_some_iff] at h
    obtain ⟨before, hbefore, hstep⟩ := h
    rw [List.foldlM_cons, Option.bind_eq_bind, Option.bind_eq_some_iff] at hstep
    obtain ⟨after, hstep, hdone⟩ := hstep
    cases hdone
    exact (ih hbefore).step hstep

/-- What is scanned is tokens with white space between them. -/
theorem lexed_of_tokens? {bs : Bytes} {tokens : List Token} (h : tokens? bs = some tokens) :
    Lexed tokens bs := by
  obtain ⟨s, hscan, hfinish⟩ := Option.bind_eq_some_iff.1 h
  obtain ⟨front, back, hlexed, hinside, rfl⟩ := scanned_of_foldlM hscan
  obtain ⟨mode, behind⟩ := s
  cases hinside with
  | between =>
    cases hfinish
    rwa [List.append_nil]
  | numeric | letters =>
    obtain ⟨tokens', hend, rfl⟩ := Option.map_eq_some_iff.1 hfinish
    exact lexed_endRun? hlexed hend
  | text | escape | hex => cases hfinish

/-! ## Scanning what is written -/

/-- The spelling of a piece is scanned as this piece. -/
theorem PieceSpelling.scansAs {piece : Piece} {bs : Bytes} (h : PieceSpelling piece bs) :
    ScansAs bs [piece] := by
  cases h with
  | itself hquote hbackslash hcontrol =>
    exact scansAs_bytes (List.forall_mem_singleton.2 ⟨hquote, hbackslash, hcontrol⟩)
  | short hshort => exact scansAs_short hshort
  | unit hunit => exact hunit.scansAs

/-- The spelling of pieces is scanned as these pieces. -/
theorem PiecesSpelling.scansAs {pieces : List Piece} {bs : Bytes} (h : PiecesSpelling pieces bs) :
    ScansAs bs pieces := by
  induction h with
  | nil => exact .nil
  | snoc _ hpiece ih => exact ih.append hpiece.scansAs

end CacheServer.Json
