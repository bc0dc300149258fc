import CacheServer.Bytes

/-!
# PEM files

A PEM file holds sections of binary data in base64, each between a line `-----BEGIN label-----` and
a line `-----END label-----`. What stands outside of sections is skipped, and so are sections with
labels that are not known. A file is read line by line (`Reader.line?`), up to the first thing that
cannot be read: a beginning without its five dashes, a section that is not base64, or a section
without an end.
-/

namespace CacheServer.Tls.Pem

/-! ## Base64 -/

/-- Blanks and line ends, which base64 skips. -/
def isSpace (b : UInt8) : Bool := b == 0x20 || (0x09 ≤ b && b ≤ 0x0D)

/-- The six bits that a byte stands for. -/
def sextet? (b : UInt8) : Option Nat :=
  if 0x41 ≤ b && b ≤ 0x5A then some (b.toNat - 0x41)
  else if 0x61 ≤ b && b ≤ 0x7A then some (b.toNat - 0x61 + 26)
  else if 0x30 ≤ b && b ≤ 0x39 then some (b.toNat - 0x30 + 52)
  else if b = 0x2B then some 62
  else if b = 0x2F then some 63
  else none

/-- The number that the sextets of some bytes make up. -/
def sextets? (bs : Bytes) : Option Nat :=
  bs.foldlM (fun n b => (sextet? b).map (64 * n + ·)) 0

/-- The last one, two or three bytes of a number. -/
def lowBytes (n : Nat) : (count : Nat) → Bytes
  | 0 => []
  | count + 1 => UInt8.ofNat (n / Nat.pow 256 count) :: lowBytes n count

/-- Decodes groups of four; the last one may be padded or cut short. `done` is in reverse. -/
def decodeGroups? (done : Bytes) : Bytes → Option Bytes
  | [] => some done.reverse
  | [_] => none
  | [a, b] | [a, b, 0x3D, 0x3D] =>
    (sextets? [a, b]).map fun n => done.reverse ++ lowBytes (n / 16) 1
  | [a, b, c] | [a, b, c, 0x3D] =>
    (sextets? [a, b, c]).map fun n => done.reverse ++ lowBytes (n / 4) 2
  | a :: b :: c :: d :: rest =>
    match sextets? [a, b, c, d] with
    | none => none
    | some n => decodeGroups? ((lowBytes n 3).reverse ++ done) rest

/-- Decodes base64. -/
def decode? (bs : Bytes) : Option Bytes := decodeGroups? [] (bs.filter (!isSpace ·))

/-! ## Sections -/

/-- The labels that are known. -/
inductive Label
  | certificate
  | publicKey
  | rsaPrivateKey
  | privateKey
  | ecPrivateKey
  | revocationList
  | certificateRequest
  deriving DecidableEq, Repr

/-- The label with a name. -/
def Label.ofName? (name : Bytes) : Option Label :=
  if name = Bytes.ofText "CERTIFICATE" then some .certificate
  else if name = Bytes.ofText "PUBLIC KEY" then some .publicKey
  else if name = Bytes.ofText "RSA PRIVATE KEY" then some .rsaPrivateKey
  else if name = Bytes.ofText "PRIVATE KEY" then some .privateKey
  else if name = Bytes.ofText "EC PRIVATE KEY" then some .ecPrivateKey
  else if name = Bytes.ofText "X509 CRL" then some .revocationList
  else if name = Bytes.ofText "CERTIFICATE REQUEST" then some .certificateRequest
  else none

/-- A section of a file. -/
structure Section where
  label : Label
  content : Bytes
  deriving DecidableEq, Repr

/-- How a line that begins a section begins. -/
def opening : Bytes := Bytes.ofText "-----BEGIN "

/-- The line that ends a section. -/
def ending (name : Bytes) : Bytes := Bytes.ofText "-----END " ++ name ++ Bytes.ofText "-----"

/-- The dash. -/
def dash : UInt8 := 0x2D

/-- What may stand behind the name in a line that begins a section. -/
def isTrailer (b : UInt8) : Bool := b == dash || b == 0x0A || b == 0x0D || b == 0x20

/-- The name in a line that begins a section; there are five dashes behind it, not counting blanks
and line ends. -/
def name? (line : Bytes) : Option Bytes :=
  let trailer := line.reverse.takeWhile isTrailer
  let gap := (trailer.reverse.takeWhile (· != dash)).length
  if trailer.count dash = 5 then
    some ((line.take (line.length - trailer.length + gap)).drop opening.length)
  else none

/-- A reader of sections. -/
structure Reader where
  /-- The name of the section that it is in. -/
  current : Option Bytes
  /-- The lines since the last section, in reverse. -/
  buffer : List Bytes
  /-- The sections so far, in reverse. -/
  sections : List Section

namespace Reader

/-- The reader at the beginning of a file. -/
def start : Reader := ⟨none, [], []⟩

/-- Ends the section with a name. -/
def close? (r : Reader) (name : Bytes) : Option Reader :=
  match Label.ofName? name with
  | none => some ⟨none, [], r.sections⟩
  | some label =>
    (decode? r.buffer.reverse.flatten).map fun content => ⟨none, [], ⟨label, content⟩ :: r.sections⟩

/-- Reads one line. A beginning inside of a section takes the place of the one before. -/
def line? (r : Reader) (line : Bytes) : Option Reader :=
  if opening.isPrefixOf line then
    (name? line).map fun name => { r with current := some name }
  else
    match r.current with
    | none => some r
    | some name =>
      if (ending name).isPrefixOf line then r.close? name
      else some { r with buffer := line :: r.buffer }

end Reader

/-- What a file holds: the sections up to the first error, and whether there was none. -/
structure Contents where
  sections : List Section
  complete : Bool

/-- Reads lines. -/
def readLines (r : Reader) : List Bytes → Contents
  | [] => ⟨r.sections.reverse, r.current.isNone⟩
  | line :: rest =>
    match r.line? line with
    | some r => readLines r rest
    | none => ⟨r.sections.reverse, false⟩

/-- The lines of a file, with the line feeds and carriage returns that end them. -/
def lines (bs : Bytes) : List Bytes :=
  bs.foldr (fun b lines =>
    if b = 0x0A ∨ b = 0x0D then [b] :: lines
    else match lines with
      | [] => [[b]]
      | line :: rest => (b :: line) :: rest) []

/-- Reads a file. -/
def read (bs : Bytes) : Contents := readLines .start (lines bs)

end CacheServer.Tls.Pem
