import CacheServer.Text.Numeral
import CacheServer.Text.Utf8

/-!
# Percent-decoding

A key in the path of a request is percent-encoded: `%` and two hexadecimal digits stand for a
byte. A plus sign in the place of the first digit is read as a zero. An escape that is not
complete is kept as it is written. The decoded bytes are read as text, with U+FFFD in the place of
what is not UTF-8.
-/

namespace CacheServer.Http.Percent

/-- The value of a byte that is a hexadecimal digit. -/
def digit? (b : UInt8) : Option Nat := Text.hexDigit? (Char.ofNat b.toNat)

/-- The byte that the two bytes behind a `%` stand for. -/
def escaped? (first second : UInt8) : Option UInt8 :=
  match if first = 0x2B then some 0 else digit? first, digit? second with
  | some high, some low => some (UInt8.ofNat (16 * high + low))
  | _, _ => none

/-- Replaces the escapes; `done` is what was decoded before, in reverse. -/
def unescape (done : Bytes) : Bytes → Bytes
  | 0x25 :: first :: second :: rest =>
    match escaped? first second with
    | some b => unescape (b :: done) rest
    | none => unescape (0x25 :: done) (first :: second :: rest)
  | b :: rest => unescape (b :: done) rest
  | [] => done.reverse

/-- The text of a percent-encoded segment. -/
def decode (segment : Bytes) : String := Text.decodeLossy (unescape [] segment)

end CacheServer.Http.Percent
