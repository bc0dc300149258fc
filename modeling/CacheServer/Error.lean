/-!
# Failures

Three families. A `ProtocolError` is bad data on the wire: the connection stays open and its
client is told `clientMessage`. An `IoError` is a transport or file that failed. A `Failure` is
what an operation of the server as a whole reports to its caller, and `Failure.message` is the one
place where its text is written.
-/

namespace CacheServer

/-- What can be wrong with a message of the native protocol. -/
inductive ProtocolError
  | malformedRequest
  | malformedResponse
  | unknownProtocol
  | invalidKey
  | invalidValue
  deriving DecidableEq, Repr

namespace ProtocolError

/-- The description of the error in reports. -/
def message : ProtocolError → String
  | malformedRequest => "malformed request"
  | malformedResponse => "malformed response"
  | unknownProtocol => "unknown protocol"
  | invalidKey => "invalid key"
  | invalidValue => "invalid value"

/-- What the client is told about its message. -/
def clientMessage : ProtocolError → String
  | malformedRequest => "Malformed request"
  | malformedResponse => "Malformed response"
  | unknownProtocol => "Unknown protocol"
  | invalidKey => "Received invalid key"
  | invalidValue => "Received invalid value"

end ProtocolError

/-- How a transport, an address or a file can fail. -/
inductive IoError
  /-- The peer broke the connection off. -/
  | connectionReset
  /-- A write met a closed connection. -/
  | brokenPipe
  /-- The stream ended inside something that was announced. -/
  | earlyEof
  /-- A line is not UTF-8. -/
  | invalidUtf8
  /-- The peer took too long. -/
  | timedOut
  /-- An address has no port. -/
  | invalidSocketAddress
  /-- The port of an address is not a number in range. -/
  | invalidPortValue
  /-- A listening socket has failed. -/
  | invalidArgument
  /-- An address is taken. -/
  | addressInUse
  /-- There is no such file. -/
  | notFound
  /-- A text file is not UTF-8. -/
  | notText
  /-- Any other cause, in its own words. -/
  | other (text : String)
  deriving DecidableEq, Repr

namespace IoError

/-- The description of the error in reports. -/
def message : IoError → String
  | connectionReset => "connection reset"
  | brokenPipe => "broken pipe"
  | earlyEof => "early eof"
  | invalidUtf8 => "invalid utf-8"
  | timedOut => "timed out"
  | invalidSocketAddress => "invalid socket address"
  | invalidPortValue => "invalid port value"
  | invalidArgument => "Invalid argument (os error 22)"
  | addressInUse => "Address already in use (os error 98)"
  | notFound => "No such file or directory (os error 2)"
  | notText => "stream did not contain valid UTF-8"
  | other text => text

end IoError

/-- What an operation of the server reports when it fails. -/
inductive Failure
  | protocol (error : ProtocolError)
  | io (error : IoError)
  | tls (reason : String)
  | config (reason : String)
  | shutdownInterrupted (remaining : Nat)
  deriving DecidableEq, Repr

namespace Failure

/-- The description of a failure in reports. -/
def message : Failure → String
  | protocol error => "Protocol error: " ++ error.message
  | io error => "IO error: " ++ error.message
  | tls reason => "TLS error: " ++ reason
  | config reason => "Configuration error: " ++ reason
  | shutdownInterrupted remaining =>
    "Shutdown interrupted with " ++ Nat.repr remaining ++ " connection(s) still open"

end Failure

end CacheServer
