/-!
# Blanks

The characters with the Unicode property `White_Space`, and the two ways in which a text is cut at
them: off its ends (`trim`, `trimEnd`) and into its words (`words`).
-/

namespace CacheServer.Text

/-- The Unicode property `White_Space`. -/
def isBlank (c : Char) : Bool :=
  let n := c.toNat
  (0x09 ≤ n && n ≤ 0x0D) || n == 0x20 || n == 0x85 || n == 0xA0 || n == 0x1680 ||
    (0x2000 ≤ n && n ≤ 0x200A) || n == 0x2028 || n == 0x2029 || n == 0x202F || n == 0x205F ||
    n == 0x3000

/-- Drops the blanks at the front. -/
def trimStart (cs : List Char) : List Char := cs.dropWhile isBlank

/-- Drops the blanks at the end. -/
def trimEnd (cs : List Char) : List Char := (cs.reverse.dropWhile isBlank).reverse

/-- Drops the blanks at both ends. -/
def trim (cs : List Char) : List Char := trimEnd (trimStart cs)

/-- The first word: the blanks in front of it are dropped, and it runs to the next blank. It is
empty only if there is no word. With it comes the text behind it. -/
def firstWord (cs : List Char) : List Char × List Char :=
  (trimStart cs).span (!isBlank ·)

end CacheServer.Text
