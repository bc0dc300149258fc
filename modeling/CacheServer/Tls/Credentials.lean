import CacheServer.Error
import CacheServer.Tls.Certificate
import CacheServer.Tls.Pem
import CacheServer.Tls.PrivateKey

/-!
# Credentials

What an encrypted interface shows to its peers: a chain of certificates, the first one its own, and
the private key that belongs to this one. Both come from PEM files. The certificates are read before
the key, and whether they fit together is looked at last.
-/

namespace CacheServer.Tls

/-- A chain of certificates and a private key, in DER. -/
structure Credentials where
  chain : List Bytes
  key : Pem.Section
  deriving DecidableEq, Repr

/-- A file that is needed: its name, and what it holds unless there is no such file. -/
structure File where
  name : String
  contents : Option Bytes

namespace File

/-- Reads a PEM file. -/
def open? (f : File) : Except Failure Pem.Contents :=
  match f.contents with
  | none => .error (.tls ("Failed to open " ++ f.name ++ ": " ++ IoError.notFound.message))
  | some bytes => .ok (Pem.read bytes)

/-- The failure of a file with a section that cannot be read. -/
def unreadable (f : File) : Failure := .tls ("Failed to read " ++ f.name)

/-- The certificates of a file, all of whose sections must be readable. -/
def certificates (f : File) : Except Failure (List Bytes) :=
  match f.open? with
  | .error e => .error e
  | .ok found =>
    if !found.complete then .error f.unreadable
    else
      match (found.sections.filter (·.label == .certificate)).map (·.content) with
      | [] => .error (.tls ("No certificates found in " ++ f.name))
      | chain => .ok chain

/-- The first private key of a file; what stands behind it need not be readable. -/
def privateKey (f : File) : Except Failure Pem.Section :=
  match f.open? with
  | .error e => .error e
  | .ok found =>
    let isKey (s : Pem.Section) : Bool :=
      s.label == .rsaPrivateKey || s.label == .privateKey || s.label == .ecPrivateKey
    match found.sections.find? isKey with
    | some key => .ok key
    | none =>
      if found.complete then .error (.tls ("No private key found in " ++ f.name))
      else .error f.unreadable

end File

/-- The description of the public key that belongs to a private key. -/
def publicKey? (key : Pem.Section) : Option Bytes :=
  match key.label with
  | .rsaPrivateKey => PrivateKey.ofRsa? key.content
  | .privateKey => PrivateKey.ofWrapped? key.content
  | .ecPrivateKey => PrivateKey.ofCurve? none key.content
  | _ => none

/-- Whether the first certificate of a chain is that of a private key. -/
def Credentials.fit (c : Credentials) : Bool :=
  match c.chain.head?.bind Certificate.read?, publicKey? c.key with
  | some certificate, some key => certificate.publicKey == key
  | _, _ => false

/-- Loads the credentials of an interface. -/
def load (certFile keyFile : File) : Except Failure Credentials :=
  match certFile.certificates with
  | .error e => .error e
  | .ok chain =>
    match keyFile.privateKey with
    | .error e => .error e
    | .ok key =>
      if (⟨chain, key⟩ : Credentials).fit then .ok ⟨chain, key⟩
      else .error (.tls "Invalid certificate/key pair")

end CacheServer.Tls
