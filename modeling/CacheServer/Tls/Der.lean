import CacheServer.Bytes

/-!
# DER

Certificates and keys are trees of elements, each with a tag, a length and a value. A length is
written in the shortest way, and elements of 64 KiB and more are refused. Tags are one byte.
-/

namespace CacheServer.Tls.Der

/-! ## Tags -/

def tagBoolean : UInt8 := 0x01
def tagInteger : UInt8 := 0x02
def tagBitString : UInt8 := 0x03
def tagOctetString : UInt8 := 0x04
def tagNull : UInt8 := 0x05
def tagObject : UInt8 := 0x06
def tagSequence : UInt8 := 0x30

/-- The tag of an explicitly numbered field. -/
def tagField (n : UInt8) : UInt8 := 0xA0 + n

/-! ## Reading -/

/-- The number that bytes make up, the first one the most significant. -/
def natOf (bs : Bytes) : Nat := bs.foldl (fun n b => 256 * n + b.toNat) 0

/-- Reads a length. -/
def length? : Bytes → Option (Nat × Bytes)
  | 0x81 :: a :: rest => if a < 0x80 then none else some (a.toNat, rest)
  | 0x82 :: a :: b :: rest => if a = 0 then none else some (natOf [a, b], rest)
  | n :: rest => if n < 0x80 then some (n.toNat, rest) else none
  | [] => none

/-- The least length that is refused. -/
def maxLength : Nat := 65535

/-- Reads one element: its tag, its value and what is left. -/
def element? : Bytes → Option (UInt8 × Bytes × Bytes)
  | [] => none
  | tag :: rest =>
    if tag &&& 0x1F = 0x1F then none
    else
      match length? rest with
      | none => none
      | some (n, rest) =>
        if n < maxLength ∧ n ≤ rest.length then some (tag, rest.take n, rest.drop n) else none

/-- Reads one element with a certain tag: its value and what is left. -/
def expect? (tag : UInt8) (bs : Bytes) : Option (Bytes × Bytes) :=
  match element? bs with
  | some (found, value, rest) => if found = tag then some (value, rest) else none
  | none => none

/-- The value of the only element of a byte string, which has a certain tag. -/
def only? (tag : UInt8) (bs : Bytes) : Option Bytes :=
  match expect? tag bs with
  | some (value, []) => some value
  | _ => none

/-- Whether the next element has a certain tag. -/
def next (tag : UInt8) (bs : Bytes) : Bool := bs.head? == some tag

/-- The value of an integer that is not negative, written in the shortest way. -/
def natural? : Bytes → Option Nat
  | [] => none
  | [a] => if a < 0x80 then some a.toNat else none
  | a :: b :: rest =>
    if 0x80 ≤ a ∨ (a = 0 ∧ b < 0x80) then none else some (natOf (a :: b :: rest))

/-- Reads an integer that is not negative. -/
def expectNatural? (bs : Bytes) : Option (Nat × Bytes) := do
  let (value, rest) ← expect? tagInteger bs
  return (← natural? value, rest)

/-- The bytes of a bit string without unused bits. -/
def wholeBytes? : Bytes → Option Bytes
  | 0 :: bytes => some bytes
  | _ => none

/-! ## Writing -/

/-- The bytes of a number, at least `width` of them. -/
def bytesOf (n : Nat) (width : Nat) : Bytes :=
  let count := max width (Nat.log2 n / 8 + 1)
  (List.range count).map fun i => UInt8.ofNat (n / Nat.pow 256 (count - 1 - i))

/-- A length, in the shortest way. -/
def lengthBytes (n : Nat) : Bytes :=
  if n < 0x80 then [UInt8.ofNat n]
  else
    let digits := bytesOf n 0
    (0x80 + UInt8.ofNat digits.length) :: digits

/-- One element. -/
def encode (tag : UInt8) (value : Bytes) : Bytes := tag :: lengthBytes value.length ++ value

/-- An integer that is not negative. -/
def encodeNatural (n : Nat) : Bytes :=
  let digits := bytesOf n 0
  encode tagInteger (if digits.head?.any (0x80 ≤ ·) then 0 :: digits else digits)

/-- A bit string without unused bits. -/
def encodeBits (bs : Bytes) : Bytes := encode tagBitString (0 :: bs)

end CacheServer.Tls.Der
