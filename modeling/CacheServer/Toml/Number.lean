import CacheServer.Text.Numeral

/-!
# Numbers, dates and times in TOML

Numbers are read from whole words. Integers are decimal, or hexadecimal, octal or binary behind a
prefix, and must fit in 64 bits with a sign. Underscores stand between digits. Of floating-point
numbers only the form is checked, and that a positive one is not beyond the largest number.

Dates and times are checked for their form and their ranges, the length of the months included.
-/

namespace CacheServer.Toml

/-! ## Digits -/

/-- The digit that a character is in a base of at most 16. -/
def digitIn? (base : Nat) (c : Char) : Option Nat := (Text.hexDigit? c).filter (· < base)

/-- Whether a character is a decimal digit. -/
def isDigit (c : Char) : Bool := '0' ≤ c && c ≤ '9'

/-- The number that digits in a base spell. -/
def valueIn (base : Nat) (digits : List Nat) : Nat := digits.foldl (fun n d => n * base + d) 0

/-- Reads the digits behind others, each with at most one underscore in front of it. `done` holds
the digits so far in reverse. -/
def moreDigits (base : Nat) (done : List Nat) : List Char → List Nat × List Char
  | '_' :: c :: rest =>
    match digitIn? base c with
    | some d => moreDigits base (d :: done) rest
    | none => (done.reverse, '_' :: c :: rest)
  | c :: rest =>
    match digitIn? base c with
    | some d => moreDigits base (d :: done) rest
    | none => (done.reverse, c :: rest)
  | [] => (done.reverse, [])

/-- Reads at least one digit. -/
def digits? (base : Nat) : List Char → Option (List Nat × List Char)
  | c :: rest => (digitIn? base c).map fun d => moreDigits base [d] rest
  | [] => none

/-- Reads decimal digits without a zero in front of another one. -/
def wholePart? : List Char → Option (List Nat × List Char)
  | '0' :: rest => some ([0], rest)
  | cs => digits? 10 cs

/-- Cuts off a sign, and tells whether it is a minus. -/
def cutSign : List Char → Bool × List Char
  | '-' :: rest => (true, rest)
  | '+' :: rest => (false, rest)
  | cs => (false, cs)

/-! ## Integers -/

/-- The number that a word is, if it is nothing but digits. -/
def allDigits? (base : Nat) (word : List Char) : Option Nat :=
  match digits? base word with
  | some (digits, []) => some (valueIn base digits)
  | _ => none

/-- The integer that a word stands for, whatever its size. -/
def unboundedInteger? (word : List Char) : Option Int :=
  match word with
  | '0' :: 'x' :: digits => (allDigits? 16 digits).map Int.ofNat
  | '0' :: 'o' :: digits => (allDigits? 8 digits).map Int.ofNat
  | '0' :: 'b' :: digits => (allDigits? 2 digits).map Int.ofNat
  | word =>
    let (negative, unsigned) := cutSign word
    match wholePart? unsigned with
    | some (digits, []) => some (if negative then -(valueIn 10 digits) else valueIn 10 digits)
    | _ => none

/-- The integer that a word stands for. -/
def integer? (word : List Char) : Option Int :=
  (unboundedInteger? word).filter fun n => -Nat.pow 2 63 ≤ n && n < Nat.pow 2 63

/-! ## Floating-point numbers -/

/-- The parts of a floating-point number: the sign, the digits around the point as one number, how
many of them are behind the point, and the exponent. -/
structure FloatParts where
  negative : Bool
  digits : Nat
  places : Nat
  exponent : Int
  deriving DecidableEq, Repr

/-- Reads a point with the digits behind it, if there is one. -/
def fraction? : List Char → Option (List Nat × List Char)
  | '.' :: rest => digits? 10 rest
  | cs => some ([], cs)

/-- Reads an exponent, if there is one. -/
def exponent? : List Char → Option (Int × List Char)
  | c :: rest =>
    if c = 'e' ∨ c = 'E' then
      let (negative, unsigned) := cutSign rest
      (digits? 10 unsigned).map fun (digits, left) =>
        (if negative then -(valueIn 10 digits : Int) else valueIn 10 digits, left)
    else some (0, c :: rest)
  | [] => some (0, [])

/-- The parts of a word that is a floating-point number. It has a fraction or an exponent. -/
def floatParts? (word : List Char) : Option FloatParts :=
  let (negative, unsigned) := cutSign word
  match wholePart? unsigned with
  | none => none
  | some (_, []) => none
  | some (whole, rest) =>
    match fraction? rest with
    | none => none
    | some (part, rest) =>
      match exponent? rest with
      | some (exponent, []) =>
        some ⟨negative, valueIn 10 (whole ++ part), part.length, exponent⟩
      | _ => none

/-- Whether a size is rounded beyond the largest double-precision number: it is at least halfway
from that number to the next power of two. -/
def FloatParts.overflows (p : FloatParts) : Bool :=
  let scale := p.exponent - p.places
  let limit := Nat.pow 2 1024 - Nat.pow 2 970
  if p.digits = 0 then false
  else if 310 < scale then true
  else if 0 ≤ scale then limit ≤ p.digits * Nat.pow 10 scale.toNat
  else if (Nat.log2 p.digits : Int) < -scale then false
  else limit * Nat.pow 10 (-scale).toNat ≤ p.digits

/-- Whether a word is a floating-point number. -/
def isFloat (word : List Char) : Bool :=
  let unsigned := (cutSign word).2
  unsigned == ['i', 'n', 'f'] || unsigned == ['n', 'a', 'n'] ||
    (floatParts? word).any fun p => p.negative || !p.overflows

/-! ## Dates and times -/

/-- Reads `count` digits as a number in a range. -/
def fixed? (count low high : Nat) (cs : List Char) : Option (Nat × List Char) :=
  let front := cs.take count
  if front.length = count ∧ front.all isDigit then
    let n := valueIn 10 (front.filterMap (digitIn? 10))
    if low ≤ n ∧ n ≤ high then some (n, cs.drop count) else none
  else none

/-- Drops one certain character. -/
def expect? (c : Char) : List Char → Option (List Char)
  | d :: rest => if d = c then some rest else none
  | [] => none

/-- The number of days of a month. -/
def daysIn (year month : Nat) : Nat :=
  if month = 2 then
    if year % 4 = 0 ∧ (year % 100 ≠ 0 ∨ year % 400 = 0) then 29 else 28
  else if month = 4 ∨ month = 6 ∨ month = 9 ∨ month = 11 then 30
  else 31

/-- Drops a date. -/
def date? (cs : List Char) : Option (List Char) := do
  let (year, cs) ← fixed? 4 0 9999 cs
  let (month, cs) ← fixed? 2 1 12 (← expect? '-' cs)
  let (_, cs) ← fixed? 2 1 (daysIn year month) (← expect? '-' cs)
  return cs

/-- Drops a fraction of a second, if there is one. -/
def secondFraction? : List Char → Option (List Char)
  | '.' :: c :: rest => if isDigit c then some (rest.dropWhile isDigit) else none
  | '.' :: [] => none
  | cs => some cs

/-- Drops a time of day. -/
def time? (cs : List Char) : Option (List Char) := do
  let (_, cs) ← fixed? 2 0 23 cs
  let (_, cs) ← fixed? 2 0 59 (← expect? ':' cs)
  let (_, cs) ← fixed? 2 0 60 (← expect? ':' cs)
  secondFraction? cs

/-- Drops an offset from universal time, if there is one. -/
def offset? (cs : List Char) : Option (List Char) :=
  match cs with
  | 'Z' :: rest | 'z' :: rest => some rest
  | '+' :: rest | '-' :: rest => do
    let (_, rest) ← fixed? 2 0 23 rest
    let (_, rest) ← fixed? 2 0 59 (← expect? ':' rest)
    return rest
  | _ => some cs

/-- Drops the time and the offset behind a date. -/
def timeOfDate? : List Char → Option (List Char)
  | c :: rest => if c = 'T' ∨ c = 't' ∨ c = ' ' then (time? rest).bind offset? else none
  | [] => none

/-- Drops a date, a time, or a date with a time. -/
def dateTime? (cs : List Char) : Option (List Char) :=
  match date? cs with
  | some rest => some ((timeOfDate? rest).getD rest)
  | none => time? cs

end CacheServer.Toml
