/-!
# Decimal numerals of floating-point numbers

A number is written as the shortest decimal numeral that is read back as this number, and of
several as short the one nearest to it. The numeral is positional: there is no exponent, however
large or small the number is.

The search is exact. Every double-precision number, and every midpoint between two of them, is a
whole number of units of 10^-1076, so a number with the interval of what is read back as it is
three natural numbers (`Neighbourhood`). `shortest` then looks for the highest decimal place at
which a multiple lies in the interval.
-/

namespace CacheServer.Text.Decimal

/-- The parts of a double-precision number. -/
structure Binary where
  negative : Bool
  /-- The exponent field, below 2048. -/
  exponent : Nat
  /-- The fraction field, below 2^52. -/
  fraction : Nat
  deriving DecidableEq, Repr

/-- The parts of a number, from its 64 bits. -/
def Binary.ofBits (bits : UInt64) : Binary where
  negative := bits.toNat / Nat.pow 2 63 == 1
  exponent := bits.toNat / Nat.pow 2 52 % 2048
  fraction := bits.toNat % Nat.pow 2 52

/-- The decimal place of the units in which numbers are counted. -/
def unitPlace : Nat := 1076

/-- The size of a finite number in units, and the interval of the sizes that are rounded to it. -/
structure Neighbourhood where
  low : Nat
  size : Nat
  high : Nat
  /-- Whether the ends of the interval belong to it. -/
  closed : Bool

/-- The neighbourhood of a finite number. The ends are halfway to the next numbers on both sides;
below a power of two the next number is only half as far away. Halfway is rounded to an even
fraction. -/
def Binary.neighbourhood (b : Binary) : Neighbourhood :=
  let quarter := Nat.pow 2 (max b.exponent 1 - 1) * Nat.pow 5 unitPlace
  let mantissa := if b.exponent = 0 then b.fraction else Nat.pow 2 52 + b.fraction
  { low := (4 * mantissa - if b.fraction = 0 && 1 < b.exponent then 1 else 2) * quarter
    size := 4 * mantissa * quarter
    high := (4 * mantissa + 2) * quarter
    closed := b.fraction % 2 == 0 }

/-- Whether a number of units lies in the interval. -/
def Neighbourhood.contains (n : Neighbourhood) (units : Nat) : Bool :=
  if n.closed then n.low ≤ units && units ≤ n.high else n.low < units && units < n.high

/-- The multiple of `step` in the interval that is nearest to the number, the upper one of two as
near. Only the two multiples next to the number come into question. -/
def Neighbourhood.multiple? (n : Neighbourhood) (step : Nat) : Option Nat :=
  let below := n.size / step
  let rest := n.size % step
  let down := n.contains (below * step)
  let up := n.contains ((below + 1) * step)
  if down && (!up || 2 * rest < step) then some below
  else if up then some (below + 1)
  else none

/-- The multiple found at the highest place from `place` down, with its place. At place 0 the
number itself is a multiple. -/
def Neighbourhood.search (n : Neighbourhood) : Nat → Nat × Nat
  | 0 => (n.size, 0)
  | place + 1 =>
    match n.multiple? (Nat.pow 10 (place + 1)) with
    | some digits => (digits, place + 1)
    | none => n.search place

/-- The shortest numeral, as its digits and the place, in units, of the last of them. -/
def Neighbourhood.shortest (n : Neighbourhood) : Nat × Nat :=
  n.search (Nat.log2 n.high / 3 + 1)

/-- The digits of `digits * 10 ^ place` units, with a point where it is needed. -/
def positional (digits place : Nat) : String :=
  if unitPlace ≤ place then
    Nat.repr digits ++ String.ofList (List.replicate (place - unitPlace) '0')
  else
    let behind := unitPlace - place
    let whole := digits / Nat.pow 10 behind
    let part := Nat.toDigits 10 (digits % Nat.pow 10 behind)
    Nat.repr whole ++ "." ++ String.ofList (List.replicate (behind - part.length) '0' ++ part)

/-- The numeral of a number from its parts. -/
def Binary.numeral (b : Binary) : String :=
  if b.exponent = 2047 then
    if b.fraction ≠ 0 then "NaN" else if b.negative then "-inf" else "inf"
  else
    let size :=
      if b.exponent = 0 && b.fraction = 0 then "0"
      else
        let (digits, place) := b.neighbourhood.shortest
        positional digits place
    if b.negative then "-" ++ size else size

/-- The numeral of a number. -/
def numeral (x : Float) : String := (Binary.ofBits x.toBits).numeral

end CacheServer.Text.Decimal
