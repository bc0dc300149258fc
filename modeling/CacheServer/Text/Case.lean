/-!
# Letter case

Names are compared without regard to the case of the letters A to Z; every other character, letters
beyond ASCII included, stands for itself.
-/

namespace CacheServer.Text

/-- The text with the letters A to Z made small. -/
def lower (cs : List Char) : List Char := cs.map Char.toLower

/-- Equality up to the case of the letters A to Z. -/
def equalFold (a b : List Char) : Bool := lower a == lower b

end CacheServer.Text
