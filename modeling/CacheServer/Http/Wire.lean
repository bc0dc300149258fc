import CacheServer.Error
import CacheServer.Http.Gateway
import CacheServer.Native.Connection
import CacheServer.Text.Blank
import CacheServer.Text.Case

/-!
# HTTP on the wire

What is read of a request: the first two words of its first line, which are the method and the
target, the header lines up to the first blank one, of which only the content length counts, and
then the body. Lines end with a line feed, and what they end with beyond text is dropped. A
request that cannot be understood is no request (`none`); a stream that fails, or ends inside the
body, is an error.

An answer is one status line, three headers, a blank line and the body. The connection is not used
again.
-/

namespace CacheServer.Http

/-- The largest number of header lines, the blank line included. -/
def maxHeaderLines : Nat := 64

/-- The largest body, in bytes. -/
def maxBodySize : Nat := 1048576

/-- What is left to read of a stream, and how the stream ends. -/
structure Input where
  rest : Bytes
  ending : StreamEnd

namespace Input

/-- The failure of reading on at the end of what a stream delivers. `atEof` is the one that belongs
to a stream that has ended properly. -/
def failure (ending : StreamEnd) (atEof : IoError) : IoError :=
  match ending with
  | .eof => atEof
  | .reset => .connectionReset
  | .hang => .timedOut

/-- Cuts off the first line, with its line feed if it has one. -/
def cutLine (bs : Bytes) : Bytes × Bytes :=
  match bs.span (· != 0x0A) with
  | (line, 0x0A :: rest) => (line ++ [0x0A], rest)
  | (line, rest) => (line, rest)

/-- Reads one line as text. The last line needs no line feed, and behind it there are empty lines
without one; but a stream that does not end properly fails there. -/
def readLine (input : Input) : Except IoError (String × Input) :=
  let (line, rest) := cutLine input.rest
  if line.getLast? ≠ some 0x0A ∧ input.ending ≠ .eof then
    .error (failure input.ending .earlyEof)
  else
    match Text.decode? line with
    | some text => .ok (text, { input with rest })
    | none => .error .invalidUtf8

/-- Reads `n` bytes. -/
def readExactly (input : Input) (n : Nat) : Except IoError Bytes :=
  if n ≤ input.rest.length then .ok (input.rest.take n)
  else .error (failure input.ending .earlyEof)

end Input

/-- The text in front of the first colon and the text behind it. -/
def splitColon? (line : List Char) : Option (List Char × List Char) :=
  match line.span (· != ':') with
  | (name, ':' :: value) => some (name, value)
  | _ => none

/-- What a header line says about the length of the body: nothing, or a numeral that may be
unreadable. -/
def contentLength? (line : List Char) : Option (Option Nat) :=
  match splitColon? line with
  | some (name, value) =>
    if Text.equalFold (Text.trim name) "content-length".toList then
      some (Text.readUnsigned? (Nat.pow 2 64) (Text.trim value))
    else none
  | none => none

/-- Reads the header lines, of which at most `lines` are left, and the body. `length` is the
content length so far. -/
def readHeaders (input : Input) (length : Nat) : (lines : Nat) → Except IoError (Option Bytes)
  | 0 => .ok none
  | lines + 1 =>
    match input.readLine with
    | .error e => .error e
    | .ok (line, input) =>
      if line = "" then .ok none
      else
        let line := Text.trimEnd line.toList
        if line = [] then
          if maxBodySize < length then .ok none
          else (input.readExactly length).map some
        else
          match contentLength? line with
          | none => readHeaders input length lines
          | some none => .ok none
          | some (some length) => readHeaders input length lines

/-- The first two words of a line. -/
def twoWords? (line : List Char) : Option (String × String) :=
  let (first, rest) := Text.firstWord line
  let (second, _) := Text.firstWord rest
  if second = [] then none else some (String.ofList first, String.ofList second)

/-- Reads a request. -/
def readRequest (input : Input) : Except IoError (Option Request) :=
  match input.readLine with
  | .error e => .error e
  | .ok (line, input) =>
    match twoWords? line.toList with
    | none => .ok none
    | some (method, target) =>
      (readHeaders input 0 maxHeaderLines).map (·.map fun body => ⟨method, target, body⟩)

/-- The text behind the number of a status. -/
def statusText (status : UInt16) : String :=
  if status = 200 then "OK"
  else if status = 400 then "Bad Request"
  else if status = 404 then "Not Found"
  else if status = 405 then "Method Not Allowed"
  else if status = 500 then "Internal Server Error"
  else "Unknown"

/-- The head of an answer, with the blank line that ends it. -/
def Reply.head (reply : Reply) : String :=
  "HTTP/1.1 " ++ Nat.repr reply.status.toNat ++ " " ++ statusText reply.status ++ "\r\n" ++
    "Content-Type: " ++ reply.contentType ++ "\r\n" ++
    "Content-Length: " ++ Nat.repr reply.body.utf8ByteSize ++ "\r\n" ++
    "Connection: close\r\n\r\n"

/-- An answer as it is sent. -/
def Reply.bytes (reply : Reply) : Bytes := Bytes.ofText (reply.head ++ reply.body)

end CacheServer.Http
