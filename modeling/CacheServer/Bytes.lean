/-!
# Bytes

What travels over a connection, and what the store holds as values, is a list of bytes. This
module has the few ways in which byte strings are cut: at the first occurrence of a separator
(`splitFirst`), at every space or other single byte (`splitAt`), at every line end (`lines`), and
at an optional ending (`dropEnding`).

All of them run in constant stack, so that a message of the largest size can be cut as well as a
short one.
-/

namespace CacheServer

/-- A byte string. -/
abbrev Bytes := List UInt8

namespace Bytes

/-- The UTF-8 bytes of a text. -/
def ofText (s : String) : Bytes :=
  s.toByteArray.data.toList

/-- The line end, carriage return and line feed. -/
def crlf : Bytes := [13, 10]

/-- `splitFirst sep bs` cuts `bs` at the first occurrence of `sep`: what stands before it and what
stands after it. There is no result if `sep` does not occur. -/
def splitFirst (sep bs : Bytes) : Option (Bytes × Bytes) :=
  go [] bs
where
  /-- The search, with the bytes already passed in reverse. -/
  go (passed : Bytes) : Bytes → Option (Bytes × Bytes)
    | [] => if sep.isEmpty then some (passed.reverse, []) else none
    | b :: rest =>
      if sep.isPrefixOf (b :: rest) then some (passed.reverse, (b :: rest).drop sep.length)
      else go (b :: passed) rest

/-- The pieces of a byte string between the occurrences of one byte; there is always one more
piece than there are occurrences. -/
def splitAt (sep : UInt8) (bs : Bytes) : List Bytes :=
  bs.foldr (fun b pieces =>
    if b = sep then [] :: pieces
    else match pieces with
      | [] => [[b]]
      | piece :: others => (b :: piece) :: others) [[]]

/-- Puts one byte in front of a list of lines. A carriage return in front of a line that opens
with a line feed makes the two a line end. -/
def consLine (b : UInt8) : List Bytes → List Bytes
  | [] => [[b]]
  | (10 :: line) :: others => if b = 13 then [] :: line :: others else (b :: 10 :: line) :: others
  | line :: others => (b :: line) :: others

/-- The lines of a byte string, cut at every line end. The line ends are left out, so a byte
string that ends with one has an empty last line. -/
def lines (bs : Bytes) : List Bytes :=
  bs.foldr consLine [[]]

/-- Takes `ending` off the end of `bs` once, if it is there. -/
def dropEnding (ending bs : Bytes) : Bytes :=
  if ending.isSuffixOf bs then bs.take (bs.length - ending.length) else bs

end Bytes

end CacheServer
