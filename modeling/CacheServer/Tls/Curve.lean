import CacheServer.Bytes
import CacheServer.Tls.Der

/-!
# Elliptic curves

The public key that belongs to a private key on one of the curves P-256, P-384 and P-521 is a
multiple of the generator of the curve. Points are kept with their coordinates, reduced modulo the
prime of the curve; all three curves have the coefficient -3.
-/

namespace CacheServer.Tls

/-- The power of a number modulo another one, by squaring. -/
def powMod (base exponent modulus : Nat) : Nat :=
  go (Nat.log2 exponent + 1) (base % modulus) exponent 1
where
  /-- The loop over the bits of the exponent, of which at most `fuel` are left. -/
  go : (fuel : Nat) → (base exponent result : Nat) → Nat
    | 0, _, _, result => result % modulus
    | fuel + 1, base, exponent, result =>
      go fuel (base * base % modulus) (exponent / 2)
        (if exponent % 2 = 1 then result * base % modulus else result)

/-- A curve with the coefficient -3 over a prime field. -/
structure Curve where
  prime : Nat
  /-- The number of multiples of the generator. -/
  order : Nat
  generator : Nat × Nat
  /-- The number of bytes of a coordinate. -/
  width : Nat
  /-- The object identifier. -/
  object : Bytes

namespace Curve

def p256 : Curve where
  prime := 0xffffffff00000001000000000000000000000000ffffffffffffffffffffffff
  order := 0xffffffff00000000ffffffffffffffffbce6faada7179e84f3b9cac2fc632551
  generator :=
    (0x6b17d1f2e12c4247f8bce6e563a440f277037d812deb33a0f4a13945d898c296,
      0x4fe342e2fe1a7f9b8ee7eb4a7c0f9e162bce33576b315ececbb6406837bf51f5)
  width := 32
  object := [0x2A, 0x86, 0x48, 0xCE, 0x3D, 0x03, 0x01, 0x07]

def p384 : Curve where
  prime :=
    0xfffffffffffffffffffffffffffffffffffffffffffffffffffffffffffffffeffffffff0000000000000000ffffffff
  order :=
    0xffffffffffffffffffffffffffffffffffffffffffffffffc7634d81f4372ddf581a0db248b0a77aecec196accc52973
  generator :=
    (0xaa87ca22be8b05378eb1c71ef320ad746e1d3b628ba79b9859f741e082542a385502f25dbf55296c3a545e3872760ab7,
      0x3617de4a96262c6f5d9e98bf9292dc29f8f41dbd289a147ce9da3113b5f0b8c00a60b1ce1d7e819d7a431d7c90ea0e5f)
  width := 48
  object := [0x2B, 0x81, 0x04, 0x00, 0x22]

def p521 : Curve where
  prime := Nat.pow 2 521 - 1
  order :=
    0x1fffffffffffffffffffffffffffffffffffffffffffffffffffffffffffffffffa51868783bf2f966b7fcc0148f709a5d03bb5c9b8899c47aebb6fb71e91386409
  generator :=
    (0xc6858e06b70404e9cd9e3ecb662395b4429c648139053fb521f828af606b4d3dbaa14b5e77efe75928fe1dc127a2ffa8de3348b3c1856a429bf97e7e31c2e5bd66,
      0x11839296a789a3bc0045c8a5fb42c7d1bd998f54449579b446817afbd17273e662c97ee72995ef42640c550b9013fad0761353c7086a272c24088be94769fd16650)
  width := 66
  object := [0x2B, 0x81, 0x04, 0x00, 0x23]

/-- The curves that are known. -/
def all : List Curve := [p256, p384, p521]

/-- The curve with an object identifier. -/
def ofObject? (object : Bytes) : Option Curve := all.find? (·.object == object)

/-- A point of a curve; there is one that has no coordinates. -/
inductive Point
  | infinity
  | affine (x y : Nat)
  deriving DecidableEq, Repr

/-- The inverse modulo the prime of the curve. -/
def inverse (c : Curve) (n : Nat) : Nat := powMod n (c.prime - 2) c.prime

/-- The difference modulo the prime of the curve, of numbers that are reduced. -/
def sub (c : Curve) (a b : Nat) : Nat := (a + (c.prime - b)) % c.prime

/-- The third point on the line through a point with the given slope and another one with the
horizontal coordinate `x'`, reflected. -/
def reflect (c : Curve) (slope x y x' : Nat) : Point :=
  let x₃ := c.sub (c.sub (slope * slope % c.prime) x) x'
  .affine x₃ (c.sub (slope * c.sub x x₃ % c.prime) y)

/-- Twice a point. -/
def double (c : Curve) : Point → Point
  | .infinity => .infinity
  | .affine x y =>
    if y = 0 then .infinity
    else
      let slope := c.sub (3 * x * x % c.prime) 3 * c.inverse (2 * y % c.prime) % c.prime
      c.reflect slope x y x

/-- The sum of two points. -/
def add (c : Curve) : Point → Point → Point
  | .infinity, q => q
  | p, .infinity => p
  | .affine x y, .affine x' y' =>
    if x = x' then
      if y = y' then c.double (.affine x y) else .infinity
    else
      c.reflect (c.sub y' y * c.inverse (c.sub x' x) % c.prime) x y x'

/-- A multiple of a point, by doubling. -/
def multiple (c : Curve) (n : Nat) (p : Point) : Point :=
  go (Nat.log2 n + 1) n p .infinity
where
  /-- The loop over the bits of the factor, of which at most `fuel` are left. -/
  go : (fuel : Nat) → (n : Nat) → (p sum : Point) → Point
    | 0, _, _, sum => sum
    | fuel + 1, n, p, sum =>
      go fuel (n / 2) (c.double p) (if n % 2 = 1 then c.add sum p else sum)

/-- The public key that belongs to a private key. -/
def publicPoint (c : Curve) (secret : Nat) : Point :=
  c.multiple secret (.affine c.generator.1 c.generator.2)

/-- A point with both its coordinates in bytes. -/
def pointBytes (c : Curve) : Point → Bytes
  | .infinity => [0]
  | .affine x y => 0x04 :: (Der.bytesOf x c.width ++ Der.bytesOf y c.width)

/-- A point with one coordinate in bytes, and the parity of the other. -/
def compressedBytes (c : Curve) : Point → Bytes
  | .infinity => [0]
  | .affine x y => (if y % 2 = 0 then 0x02 else 0x03) :: Der.bytesOf x c.width

end Curve

end CacheServer.Tls
