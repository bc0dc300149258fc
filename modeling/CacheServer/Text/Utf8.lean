import CacheServer.Bytes

/-!
# UTF-8

Keys and messages are texts, values are byte strings. `decode?` reads a byte string as text and
fails on anything that is not UTF-8; `decodeLossy` never fails and puts U+FFFD, the replacement
character, in the place of what it cannot read.

The replacement follows the Unicode recommendation on maximal subparts: an ill-formed stretch is
cut into the longest pieces that could each have begun a character, and every piece becomes one
replacement character. `subpart` measures these pieces.
-/

namespace CacheServer.Text

/-- Reads a byte string as UTF-8. -/
def decode? (bs : Bytes) : Option String :=
  String.fromUTF8? bs.toByteArray

/-- A byte that continues a character, `10xxxxxx`. -/
def isContinuation (b : UInt8) : Bool := 0x80 ≤ b && b ≤ 0xBF

/-- For the first byte of a character of several bytes: how many bytes follow it, and the range of
the second byte. The ranges leave out overlong forms, surrogates and what lies beyond U+10FFFF. -/
def opening? (b : UInt8) : Option (Nat × UInt8 × UInt8) :=
  if 0xC2 ≤ b && b ≤ 0xDF then some (1, 0x80, 0xBF)
  else if b = 0xE0 then some (2, 0xA0, 0xBF)
  else if b = 0xED then some (2, 0x80, 0x9F)
  else if 0xE1 ≤ b && b ≤ 0xEF then some (2, 0x80, 0xBF)
  else if b = 0xF0 then some (3, 0x90, 0xBF)
  else if b = 0xF4 then some (3, 0x80, 0x8F)
  else if 0xF1 ≤ b && b ≤ 0xF3 then some (3, 0x80, 0xBF)
  else none

/-- The length of the longest piece at the front that could begin a character, at least one. -/
def subpart : Bytes → Nat
  | [] => 1
  | b :: rest =>
    match opening? b, rest with
    | some (more, low, high), second :: others =>
      if low ≤ second && second ≤ high then
        2 + ((others.take (more - 1)).takeWhile isContinuation).length
      else 1
    | _, _ => 1

/-- Such a piece has at least one byte. -/
theorem one_le_subpart (bs : Bytes) : 1 ≤ subpart bs := by
  unfold subpart
  split
  · exact Nat.le_refl 1
  · split
    · split <;> omega
    · exact Nat.le_refl 1

/-- The character that a byte string opens with, if its first bytes are the UTF-8 form of one. -/
def firstChar? (bs : Bytes) : Option Char :=
  (bs.take 4).toByteArray.utf8DecodeChar? 0

/-- The characters of a byte string, with U+FFFD for each piece that is none. -/
def replaceIllFormed (bs : Bytes) : List Char :=
  go [] bs
where
  /-- The characters read so far are kept in reverse. -/
  go (done : List Char) : Bytes → List Char
    | [] => done.reverse
    | b :: rest =>
      match firstChar? (b :: rest) with
      | some c => go (c :: done) (rest.drop (c.utf8Size - 1))
      | none => go ('\ufffd' :: done) (rest.drop (subpart (b :: rest) - 1))
  termination_by bs => bs.length
  decreasing_by all_goals simp only [List.length_drop, List.length_cons]; omega

/-- Reads a byte string as text; UTF-8 is read as it is, and what is not UTF-8 is replaced. -/
def decodeLossy (bs : Bytes) : String :=
  (decode? bs).getD (String.ofList (replaceIllFormed bs))

end CacheServer.Text
