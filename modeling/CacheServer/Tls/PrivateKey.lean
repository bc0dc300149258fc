import CacheServer.Tls.Curve
import CacheServer.Tls.Der

/-!
# Private keys

A private key is read for one purpose, to find the description of the public key that belongs to
it, which must be the one that the certificate names. Keys are RSA keys, or numbers on one of the
curves of this library; they come bare or wrapped with the name of their algorithm. A key whose
parts contradict each other is refused.

A description is what a certificate holds inside of the sequence for the public key.
-/

namespace CacheServer.Tls.PrivateKey

open Der

/-! ## Keys on curves -/

/-- The object identifier of keys on curves. -/
def curveKeyObject : Bytes := [0x2A, 0x86, 0x48, 0xCE, 0x3D, 0x02, 0x01]

/-- The description of a public key on a curve. -/
def describePoint (c : Curve) (point : Curve.Point) : Bytes :=
  encode tagSequence (encode tagObject curveKeyObject ++ encode tagObject c.object) ++
    encodeBits (c.pointBytes point)

/-- Reads the name of the curve, which may be left out. -/
def curveField? (bs : Bytes) : Option (Option Curve × Bytes) :=
  if next (tagField 0) bs then do
    let (field, rest) ← expect? (tagField 0) bs
    let curve ← Curve.ofObject? (← only? tagObject field)
    return (some curve, rest)
  else some (none, bs)

/-- The curve of a key, from the wrapping and from the key itself. One of them must name it. -/
def agree? : Option Curve → Option Curve → Option Curve
  | some outer, some inner => if outer.object = inner.object then some outer else none
  | some outer, none => some outer
  | none, inner => inner

/-- Checks the copy of the public key behind a private one, which may be left out. -/
def copyFits (c : Curve) (point : Curve.Point) (bs : Bytes) : Bool :=
  let copy := ((only? (tagField 1) bs).bind (only? tagBitString)).bind wholeBytes?
  bs == [] || copy == some (c.pointBytes point) || copy == some (c.compressedBytes point)

/-- Reads a key on a curve. -/
def ofCurve? (outer : Option Curve) (bs : Bytes) : Option Bytes := do
  let key ← only? tagSequence bs
  let (version, rest) ← expectNatural? key
  if version ≠ 1 then none
  let (secret, rest) ← expect? tagOctetString rest
  let (inner, rest) ← curveField? rest
  let c ← agree? outer inner
  let secret := natOf secret
  if secret = 0 ∨ c.order ≤ secret then none
  let point := c.publicPoint secret
  if copyFits c point rest then some (describePoint c point) else none

/-! ## RSA keys -/

/-- The object identifier of RSA keys. -/
def rsaObject : Bytes := [0x2A, 0x86, 0x48, 0x86, 0xF7, 0x0D, 0x01, 0x01, 0x01]

/-- The numbers of an RSA key. -/
structure Rsa where
  modulus : Nat
  publicExponent : Nat
  privateExponent : Nat
  prime₁ : Nat
  prime₂ : Nat
  exponent₁ : Nat
  exponent₂ : Nat
  coefficient : Nat

/-- Whether two exponents undo each other for a prime factor. -/
def undo (e d prime : Nat) : Bool := e * d % (prime - 1) == 1

/-- Whether the numbers of an RSA key belong together and are of a size that is served. -/
def Rsa.sound (k : Rsa) : Bool :=
  let bits := Nat.log2 k.modulus + 1
  2048 ≤ bits && bits ≤ 8192 && k.modulus == k.prime₁ * k.prime₂ &&
    1 < k.prime₁ && 1 < k.prime₂ && k.modulus % 2 == 1 &&
    k.publicExponent % 2 == 1 && 1 < k.publicExponent && k.publicExponent < Nat.pow 2 33 &&
    k.privateExponent < k.modulus &&
    undo k.publicExponent k.privateExponent k.prime₁ &&
    undo k.publicExponent k.privateExponent k.prime₂ &&
    k.exponent₁ == k.privateExponent % (k.prime₁ - 1) &&
    k.exponent₂ == k.privateExponent % (k.prime₂ - 1) &&
    k.coefficient * k.prime₂ % k.prime₁ == 1

/-- The description of the public key of an RSA key. -/
def Rsa.describe (k : Rsa) : Bytes :=
  encode tagSequence (encode tagObject rsaObject ++ encode tagNull []) ++
    encodeBits (encode tagSequence (encodeNatural k.modulus ++ encodeNatural k.publicExponent))

/-- Reads an RSA key. -/
def ofRsa? (bs : Bytes) : Option Bytes := do
  let key ← only? tagSequence bs
  let (version, rest) ← expectNatural? key
  if version ≠ 0 then none
  let (modulus, rest) ← expectNatural? rest
  let (publicExponent, rest) ← expectNatural? rest
  let (privateExponent, rest) ← expectNatural? rest
  let (prime₁, rest) ← expectNatural? rest
  let (prime₂, rest) ← expectNatural? rest
  let (exponent₁, rest) ← expectNatural? rest
  let (exponent₂, rest) ← expectNatural? rest
  let (coefficient, rest) ← expectNatural? rest
  let k : Rsa := ⟨modulus, publicExponent, privateExponent, prime₁, prime₂, exponent₁, exponent₂,
    coefficient⟩
  if rest = [] ∧ k.sound then some k.describe else none

/-! ## Wrapped keys -/

/-- Reads a key with the name of its algorithm around it. What may follow the key is skipped. -/
def ofWrapped? (bs : Bytes) : Option Bytes := do
  let wrapped ← only? tagSequence bs
  let (version, rest) ← expectNatural? wrapped
  if 1 < version then none
  let (algorithm, rest) ← expect? tagSequence rest
  let (object, parameters) ← expect? tagObject algorithm
  let (key, _) ← expect? tagOctetString rest
  if object = rsaObject then
    if parameters = encode tagNull [] then ofRsa? key else none
  else if object = curveKeyObject then
    ofCurve? (← Curve.ofObject? (← only? tagObject parameters)) key
  else none

end CacheServer.Tls.PrivateKey
