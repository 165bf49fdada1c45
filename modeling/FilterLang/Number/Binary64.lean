/-!
# Double-precision numbers

A query may hold fractional numbers, and every target stores them in the 64-bit binary format.  This
file gives those numbers as exact data: a sign, and a magnitude that is a whole multiple of the
smallest positive number of the format.  Nothing here is approximate; rounding is one function on
natural numbers, `Magnitude.nearest?`, and every other operation that has to round goes through it.
-/

namespace FilterLang

/-- Two natural numbers divided, rounded to the nearest whole number; a quotient halfway between two
whole numbers goes to the even one. -/
def divRoundEven (num den : Nat) : Nat :=
  let quotient := num / den
  let twice := 2 * (num % den)
  if den < twice ∨ (den = twice ∧ quotient % 2 = 1) then quotient + 1 else quotient

/-- The pairs that name a magnitude: at most 53 bits of mantissa, all 53 of them unless the shift is
the least one, and a shift within the range of the format.  Each magnitude has exactly one such
pair. -/
def Magnitude.Canonical (mantissa shift : Nat) : Prop :=
  mantissa < Nat.pow 2 53 ∧ shift ≤ 2045 ∧ (shift = 0 ∨ Nat.pow 2 52 ≤ mantissa)

instance (mantissa shift : Nat) : Decidable (Magnitude.Canonical mantissa shift) :=
  inferInstanceAs (Decidable (_ ∧ _ ∧ _))

/-- A finite magnitude of the format: `mantissa * 2 ^ shift` times the smallest positive number,
which is `2 ^ (-1074)`. -/
structure Magnitude where
  /-- The significant bits. -/
  mantissa : Nat
  /-- How far they are shifted up. -/
  shift : Nat
  /-- The pair is the one that names this magnitude. -/
  canonical : Magnitude.Canonical mantissa shift
deriving DecidableEq

namespace Magnitude

/-- The magnitude zero. -/
def zero : Magnitude := ⟨0, 0, by decide⟩

/-- The magnitude as a multiple of `2 ^ (-1074)`. -/
def units (x : Magnitude) : Nat := x.mantissa * Nat.pow 2 x.shift

/-- The magnitude named by a pair, if the pair names one. -/
def ofParts? (mantissa shift : Nat) : Option Magnitude :=
  if h : Canonical mantissa shift then some ⟨mantissa, shift, h⟩ else none

/-- The magnitude nearest to `num / den`, a tie going to the even mantissa; `none` if the quotient
is too large for the format.  The quotient is cut at 53 bits, or at the least shift if it is so
small that fewer bits remain; a carry out of the 53 bits moves to the next shift. -/
def nearest? (num den : Nat) : Option Magnitude :=
  let scaled := num * Nat.pow 2 1074
  let shift := (scaled / den).log2 - 52
  let mantissa := divRoundEven scaled (den * Nat.pow 2 shift)
  if mantissa = Nat.pow 2 53 then ofParts? (Nat.pow 2 52) (shift + 1) else ofParts? mantissa shift

/-- The product of two magnitudes, rounded once. -/
def mul? (x y : Magnitude) : Option Magnitude :=
  nearest? (x.units * y.units) (Nat.pow 2 1074 * Nat.pow 2 1074)

/-- The quotient of two magnitudes, rounded once. -/
def div? (x y : Magnitude) : Option Magnitude :=
  nearest? x.units y.units

/-- The magnitude is a whole number. -/
def isWhole (x : Magnitude) : Bool := x.units % Nat.pow 2 1074 == 0

/-- The whole part of the magnitude. -/
def floor (x : Magnitude) : Nat := x.units / Nat.pow 2 1074

end Magnitude

/-- A number of the 64-bit binary format.  The two zeros are different numbers here; `Binary64.same`
is the comparison under which they agree. -/
inductive Binary64 where
  /-- The result of an operation that has none. -/
  | nan
  /-- One of the two infinities. -/
  | infinite (negative : Bool)
  /-- A number with a finite magnitude. -/
  | finite (negative : Bool) (magnitude : Magnitude)
deriving DecidableEq

namespace Binary64

/-- A sign put in front of a rounded magnitude; a magnitude too large for the format gives the
infinity of that sign. -/
def signed (negative : Bool) : Option Magnitude → Binary64
  | some magnitude => .finite negative magnitude
  | none => .infinite negative

/-- The number nearest to `num / den` with a given sign. -/
def ofRatio (negative : Bool) (num den : Nat) : Binary64 :=
  signed negative (Magnitude.nearest? num den)

/-- The number nearest to a whole number. -/
def ofInt (n : Int) : Binary64 := ofRatio (decide (n < 0)) n.natAbs 1

/-- The number is neither infinite nor the missing result. -/
def isFinite : Binary64 → Bool
  | .finite _ _ => true
  | _ => false

/-- The number is finite and has no fractional part. -/
def isWhole : Binary64 → Bool
  | .finite _ magnitude => magnitude.isWhole
  | _ => false

/-- The number is greater than zero. -/
def isPositive : Binary64 → Bool
  | .finite false magnitude => magnitude.mantissa != 0
  | .infinite false => true
  | _ => false

/-- Numeric equality: the two zeros are equal, and a missing result differs from everything,
itself included. -/
def same : Binary64 → Binary64 → Bool
  | .finite s x, .finite t y => x == y && (s == t || x.mantissa == 0)
  | .infinite s, .infinite t => s == t
  | _, _ => false

end Binary64

end FilterLang
