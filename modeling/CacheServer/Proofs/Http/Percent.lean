import CacheServer.Http.Percent
import CacheServer.Proofs.Json.Spelling

/-!
# Percent-encoding

A key can stand in a path with each of its bytes as an escape, a percent sign and two hexadecimal
digits of either case (`Escapes`). Decoding such a segment gives the key (`Escapes.decode`),
whatever the key holds. There is neither a slash nor a question mark in it (`Escapes.not_mem`), so
it is one segment of a path and no query begins in it. `encode` writes one such segment.
-/

namespace CacheServer.Http.Percent

open Json (HexDigit hexDigit)

/-- The ways to write bytes as escapes. -/
inductive Escapes : Bytes → Bytes → Prop
  | nil : Escapes [] []
  | cons {high low : Nat} {first second : UInt8} {bytes segment : Bytes} :
      HexDigit high first → HexDigit low second → Escapes bytes segment →
      Escapes (UInt8.ofNat (16 * high + low) :: bytes) (0x25 :: first :: second :: segment)

/-! ## Reading -/

/-- A hexadecimal digit of either case is read. -/
theorem digit?_of_hexDigit {d : Nat} {b : UInt8} (h : HexDigit d b) : digit? b = some d := by
  cases h with
  | decimal hd => interval_cases d <;> decide
  | @small d hd | @capital d hd => interval_cases d <;> decide

/-- No digit is a plus sign, a slash or a question mark. -/
theorem not_mem_of_hexDigit {d : Nat} {b : UInt8} (h : HexDigit d b) :
    b ∉ [0x2B, 0x2F, 0x3F] := by
  cases h with
  | decimal hd => interval_cases d <;> decide
  | @small d hd | @capital d hd => interval_cases d <;> decide

/-- Two hexadecimal digits are read as the byte that they stand for. -/
theorem escaped?_of_hexDigit {high low : Nat} {first second : UInt8} (hhigh : HexDigit high first)
    (hlow : HexDigit low second) :
    escaped? first second = some (UInt8.ofNat (16 * high + low)) := by
  have hsign : first ≠ 0x2B := by
    rintro rfl
    exact not_mem_of_hexDigit hhigh (by decide)
  rw [escaped?, if_neg hsign, digit?_of_hexDigit hhigh, digit?_of_hexDigit hlow]

/-- Escapes are read as their bytes, whatever comes before and behind them. -/
theorem Escapes.unescape {bytes segment : Bytes} (h : Escapes bytes segment) (done rest : Bytes) :
    unescape done (segment ++ rest) = Percent.unescape (bytes.reverse ++ done) rest := by
  induction h generalizing done with
  | nil => rfl
  | cons hhigh hlow _ ih =>
    rw [List.cons_append, List.cons_append, List.cons_append, Percent.unescape,
      escaped?_of_hexDigit hhigh hlow, List.reverse_cons, List.append_assoc]
    exact ih _

/-- An escaped text is decoded to the text. -/
theorem Escapes.decode {key : String} {segment : Bytes} (h : Escapes (Bytes.ofText key) segment) :
    decode segment = key := by
  have hbytes := h.unescape [] []
  rw [List.append_nil, List.append_nil, Percent.unescape, List.reverse_reverse] at hbytes
  rw [Percent.decode, hbytes, Text.decodeLossy_ofText]

/-- In a segment that is escaped throughout there are only percent signs and digits. -/
theorem Escapes.mem {bytes segment : Bytes} (h : Escapes bytes segment) :
    ∀ b ∈ segment, b = 0x25 ∨ ∃ d, HexDigit d b := by
  induction h with
  | nil => exact nofun
  | cons hhigh hlow _ ih =>
    intro b hb
    simp only [List.mem_cons] at hb
    rcases hb with rfl | rfl | rfl | hb
    exacts [.inl rfl, .inr ⟨_, hhigh⟩, .inr ⟨_, hlow⟩, ih b hb]

/-- A path is not cut inside escapes. -/
theorem Escapes.not_mem {bytes : Bytes} {segment : String}
    (h : Escapes bytes (Bytes.ofText segment)) :
    '/' ∉ segment.toList ∧ '?' ∉ segment.toList := by
  have hcut : ∀ c : Char, c.toNat < 128 → UInt8.ofNat c.toNat ∈ [0x2F, 0x3F] →
      c ∉ segment.toList := by
    intro c hascii hc hmem
    rcases h.mem _ ((Text.mem_ofText_iff hascii).2 hmem) with hsign | ⟨d, hdigit⟩
    · rw [hsign] at hc
      exact absurd hc (by decide)
    · exact not_mem_of_hexDigit hdigit (List.mem_cons_of_mem _ hc)
  exact ⟨hcut '/' (by decide) (by decide), hcut '?' (by decide) (by decide)⟩

/-! ## Writing -/

/-- The escape of a byte. -/
def escape (b : UInt8) : List Char := ['%', hexDigit (b.toNat / 16), hexDigit (b.toNat % 16)]

/-- The segment of a key in which every byte is an escape. -/
def encode (key : String) : String := String.ofList ((Bytes.ofText key).flatMap escape)

/-- To encode a text is one of the ways to escape it. -/
theorem escapes_encode (key : String) : Escapes (Bytes.ofText key) (Bytes.ofText (encode key)) := by
  rw [encode, Bytes.ofText_ofList]
  induction Bytes.ofText key with
  | nil => exact .nil
  | cons b rest ih =>
    have hb := b.toNat_lt
    obtain ⟨first, hfirst, hhigh⟩ := Json.hexDigit_spelling (d := b.toNat / 16) (by omega)
    obtain ⟨second, hsecond, hlow⟩ := Json.hexDigit_spelling (d := b.toNat % 16) (by omega)
    have hcons := Escapes.cons hhigh hlow ih
    rw [Nat.div_add_mod, UInt8.ofNat_toNat] at hcons
    have hbytes : (escape b).flatMap String.utf8EncodeChar = [0x25, first, second] := by
      simp only [escape, List.flatMap_cons, List.flatMap_nil, hfirst, hsecond]
      rfl
    rw [List.flatMap_cons, List.flatMap_append, hbytes]
    exact hcons

end CacheServer.Http.Percent
