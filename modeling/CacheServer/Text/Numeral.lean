/-!
# Numerals

Numbers in settings and headers are unsigned decimal numerals: an optional plus sign and at least
one digit, with a value below a bound that the reader names. `readUnsigned?` reads them.
-/

namespace CacheServer.Text

/-- The value of a decimal digit. -/
def digit? (c : Char) : Option Nat :=
  if '0' ≤ c && c ≤ '9' then some (c.toNat - '0'.toNat) else none

/-- The value of a hexadecimal digit of either case. -/
def hexDigit? (c : Char) : Option Nat :=
  if '0' ≤ c && c ≤ '9' then some (c.toNat - '0'.toNat)
  else if 'a' ≤ c && c ≤ 'f' then some (c.toNat - 'a'.toNat + 10)
  else if 'A' ≤ c && c ≤ 'F' then some (c.toNat - 'A'.toNat + 10)
  else none

/-- Reads digits behind the number `n`. It fails at the first character that is no digit and as
soon as the value reaches the bound. -/
def readDigits? (bound : Nat) : Nat → List Char → Option Nat
  | n, [] => some n
  | n, c :: rest =>
    match digit? c with
    | some d => if n * 10 + d < bound then readDigits? bound (n * 10 + d) rest else none
    | none => none

/-- Reads an unsigned numeral with a value below `bound`: an optional plus sign, then digits. -/
def readUnsigned? (bound : Nat) : List Char → Option Nat
  | [] => none
  | ['+'] => none
  | '+' :: digits => readDigits? bound 0 digits
  | digits => readDigits? bound 0 digits

end CacheServer.Text
