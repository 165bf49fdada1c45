import FilterLang.Text.Ranges

/-!
# Blank characters

The characters that separate tokens are those with the Unicode property White_Space.
-/

namespace FilterLang.Text

/-- The blank characters behind ASCII. -/
def blankRanges : Ranges :=
  [(0x85, 0x85), (0xA0, 0xA0), (0x1680, 0x1680), (0x2000, 0x200A), (0x2028, 0x2029),
   (0x202F, 0x202F), (0x205F, 0x205F), (0x3000, 0x3000)]

/-- The character separates words and is otherwise empty. -/
def isBlank (c : Char) : Bool :=
  if c.toNat < 0x80 then c == ' ' || (9 ≤ c.toNat && c.toNat ≤ 13) else blankRanges.contains c

/-- The text behind its leading blanks. -/
def skipBlanks (cs : List Char) : List Char := cs.dropWhile isBlank

/-- The text without the blanks at its two ends. -/
def trimBlanks (cs : List Char) : List Char :=
  ((skipBlanks cs).reverse.dropWhile isBlank).reverse

end FilterLang.Text
