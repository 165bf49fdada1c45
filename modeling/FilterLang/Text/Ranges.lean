/-!
# Sets of characters given by ranges

A property of characters that a standard tabulates is stored as a list of inclusive ranges of code
points.  The tables of this library start behind the ASCII characters, whose properties are decided
without one.
-/

namespace FilterLang.Text

/-- A set of code points, as inclusive ranges. -/
abbrev Ranges := List (Nat × Nat)

/-- The character lies in one of the ranges. -/
def Ranges.contains (ranges : Ranges) (c : Char) : Bool :=
  ranges.any fun (low, high) => low ≤ c.toNat && c.toNat ≤ high

end FilterLang.Text
