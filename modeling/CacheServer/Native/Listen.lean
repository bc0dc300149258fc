import CacheServer.Error
import CacheServer.Text.Numeral
import CacheServer.Tls.Credentials

/-!
# Listening

Before it listens, a server that is shutting down gives up without an error. For an encrypted
listener the credentials are loaded next, so that nothing is bound without them, and last comes the
address: a host and, behind the last colon, a port.
-/

namespace CacheServer.Native

/-- An address to listen on. -/
structure Address where
  host : String
  port : UInt16
  deriving DecidableEq, Repr

namespace Address

/-- Reads an address. -/
def parse (text : String) : Except IoError Address :=
  let reversed := text.toList.reverse
  match reversed.span (· != ':') with
  | (port, _ :: host) =>
    match Text.readUnsigned? (Nat.pow 2 16) port.reverse with
    | some n => .ok ⟨String.ofList host.reverse, UInt16.ofNat n⟩
    | none => .error .invalidPortValue
  | (_, []) => .error .invalidSocketAddress

end Address

/-- A listener: its address, and the credentials if it is encrypted. -/
structure Listener where
  address : Address
  credentials : Option Tls.Credentials
  deriving DecidableEq, Repr

/-- The listener of an address with or without credentials. -/
def bind (address : String) (credentials : Option Tls.Credentials) : Except Failure Listener :=
  match Address.parse address with
  | .ok parsed => .ok ⟨parsed, credentials⟩
  | .error e => .error (.io e)

/-- Prepares a plain listener; there is none if the server is shutting down. -/
def listen (shuttingDown : Bool) (address : String) : Except Failure (Option Listener) :=
  if shuttingDown then .ok none else (bind address none).map some

/-- Prepares an encrypted listener; there is none if the server is shutting down. -/
def listenTls (shuttingDown : Bool) (address : String) (certFile keyFile : Tls.File) :
    Except Failure (Option Listener) :=
  if shuttingDown then .ok none
  else
    match Tls.load certFile keyFile with
    | .error e => .error e
    | .ok credentials => (bind address (some credentials)).map some

end CacheServer.Native
