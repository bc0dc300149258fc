import CacheServer.Tls.Der

/-!
# Certificates

Of a certificate only its outline is read, to find the public key that it certifies: it is a
version 3 certificate, the two places that name its signature algorithm agree, and its extensions
are well formed. An extension that is critical must be one of those that are known, and each of
these occurs once. Signatures and dates are left to the peers that rely on the certificate.
-/

namespace CacheServer.Tls

open Der

/-- What is read of a certificate. -/
structure Certificate where
  /-- The description of the public key, without its outer tag and length. -/
  publicKey : Bytes
  deriving DecidableEq, Repr

namespace Certificate

/-- The prefix of the object identifiers of the standard extensions. -/
def standardExtensions : Bytes := [0x55, 0x1D]

/-- The standard extensions that are known, by the last byte of their identifiers: key usage,
alternative names, basic constraints, name constraints, revocation lists and extended key usage. -/
def knownExtensions : List UInt8 := [15, 17, 19, 30, 31, 37]

/-- Reads a flag, which is false if it is left out. -/
def flag? (bs : Bytes) : Option (Bool × Bytes) :=
  if next tagBoolean bs then
    match expect? tagBoolean bs with
    | some ([0xFF], rest) => some (true, rest)
    | some ([0x00], rest) => some (false, rest)
    | _ => none
  else some (false, bs)

/-- The number of a known extension from its identifier. -/
def knownNumber? (object : Bytes) : Option UInt8 :=
  match object with
  | [a, b, n] => if [a, b] = standardExtensions then knownExtensions.find? (· == n) else none
  | _ => none

/-- Checks one extension, where `seen` are the known ones before it. All of these but key usage
hold a sequence. -/
def extension? (seen : List UInt8) (bs : Bytes) : Option (List UInt8) := do
  let (object, rest) ← expect? tagObject bs
  let (critical, rest) ← flag? rest
  let value ← only? tagOctetString rest
  match knownNumber? object with
  | none => if critical then none else some seen
  | some n =>
    if seen.contains n then none
    else if n = 15 then some (n :: seen)
    else (only? tagSequence value).map fun _ => n :: seen

/-- Checks a list of extensions. -/
def extensions? : (fuel : Nat) → (seen : List UInt8) → Bytes → Option Unit
  | 0, _, _ => none
  | _ + 1, _, [] => some ()
  | fuel + 1, seen, bs => do
    let (extension, rest) ← expect? tagSequence bs
    extensions? fuel (← extension? seen extension) rest

/-- Checks the part of a certificate behind the public key. -/
def trailer? : Bytes → Option Unit
  | [] => some ()
  | bs => do
    let list ← only? tagSequence (← only? (tagField 3) bs)
    if list = [] then none else extensions? (list.length + 1) [] list

/-- Reads the part of a certificate that is signed, given the algorithm of the signature. -/
def body? (algorithm bs : Bytes) : Option Certificate := do
  let (version, rest) ← expect? (tagField 0) bs
  if (← natural? (← only? tagInteger version)) ≠ 2 then none
  let (_serial, rest) ← expect? tagInteger rest
  let (signature, rest) ← expect? tagSequence rest
  if signature ≠ algorithm then none
  let (_issuer, rest) ← expect? tagSequence rest
  let (_validity, rest) ← expect? tagSequence rest
  let (_subject, rest) ← expect? tagSequence rest
  let (publicKey, rest) ← expect? tagSequence rest
  trailer? rest
  return ⟨publicKey⟩

/-- Reads a certificate. -/
def read? (bs : Bytes) : Option Certificate := do
  let signed ← only? tagSequence bs
  let (body, rest) ← expect? tagSequence signed
  let (algorithm, rest) ← expect? tagSequence rest
  let _signature ← wholeBytes? (← only? tagBitString rest)
  body? algorithm body

end Certificate

end CacheServer.Tls
