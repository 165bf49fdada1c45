import FilterLang.Number.Binary64

/-!
# Decimal forms of double-precision numbers

A magnitude has many decimal forms that read back as it.  This file reads a decimal form
(`Magnitude.ofDecimal?`, `Binary64.ofText?`) and picks the shortest one to write
(`Magnitude.shortest`).  Picking tests each candidate with the reader itself, so that what is
written always reads back.
-/

namespace FilterLang

/-- The number that a run of digits names. -/
def natOfDigits (digits : List Char) : Nat :=
  digits.foldl (fun n c => 10 * n + (c.toNat - '0'.toNat)) 0

/-- The digits of a natural number. -/
def digitsOfNat (n : Nat) : List Char := Nat.toDigits 10 n

/-- A positive number in decimal: the value is `0.d₁d₂…dₙ * 10 ^ point`. -/
structure Decimal where
  /-- The significant digits. -/
  digits : List Char
  /-- How many places the point stands to the right of the first digit. -/
  point : Int
deriving DecidableEq

namespace Decimal

/-- The digits in front of the point and those behind it, when the number is written without an
exponent.  Zeros fill the places up to the point; a number below one has a single zero in front. -/
def positional (d : Decimal) : List Char × List Char :=
  if d.point ≤ 0 then
    (['0'], List.replicate (-d.point).toNat '0' ++ d.digits)
  else
    let front := d.point.toNat
    if d.digits.length ≤ front then
      (d.digits ++ List.replicate (front - d.digits.length) '0', [])
    else
      (d.digits.take front, d.digits.drop front)

end Decimal

/-- Which of two equally near candidates is written. -/
inductive Tie where
  /-- The larger one. -/
  | up
  /-- The one whose last digit is even. -/
  | even
deriving DecidableEq

namespace Magnitude

/-- The magnitude nearest to `coefficient / 10 ^ places`. -/
def ofPlaces? (coefficient places : Nat) : Option Magnitude :=
  nearest? coefficient (Nat.pow 10 places)

/-- The magnitude nearest to `coefficient * 10 ^ exponent`.  An exponent that alone decides the
result is answered at once: above 400 everything but zero is too large, and far enough below zero
everything rounds to zero. -/
def ofDecimal? (coefficient : Nat) (exponent : Int) : Option Magnitude :=
  if coefficient = 0 then some zero
  else if exponent < -(400 + coefficient.log2) then some zero
  else if exponent < 0 then ofPlaces? coefficient (-exponent).toNat
  else if 400 < exponent then none
  else ofPlaces? (coefficient * Nat.pow 10 exponent.toNat) 0

/-- The magnitude as a multiple of `10 ^ (-1074)`, which is exact. -/
def decimalUnits (x : Magnitude) : Nat := x.units * Nat.pow 5 1074

/-- The candidate `n` grid steps long, if it reads back as the given magnitude. -/
def reads (x : Magnitude) (grid n : Nat) : Bool :=
  ofPlaces? (n * grid) 1074 == some x

/-- The one of the two multiples of `grid` around `units` that is written, given which of them read
back: the nearer one if both do, and at equal distance the one that the tie rule prefers. -/
def neighbour? (tie : Tie) (grid units : Nat) (belowReads aboveReads : Bool) : Option Nat :=
  let below := units / grid
  let above := below + 1
  match belowReads, aboveReads with
  | true, false => some below
  | false, true => some above
  | false, false => none
  | true, true =>
    let twice := 2 * (units % grid)
    let takeAbove :=
      if twice = grid then
        match tie with
        | .up => true
        | .even => below % 2 == 1
      else decide (grid < twice)
    some (if takeAbove then above else below)

/-- The multiple of `grid` next to the magnitude that reads back as it. -/
def nearestOn? (x : Magnitude) (tie : Tie) (grid : Nat) : Option Nat :=
  let below := x.decimalUnits / grid
  neighbour? tie grid x.decimalUnits (reads x grid below) (reads x grid (below + 1))

/-- The fewest decimal digits that read back as the magnitude, and of those the nearest.  Seventeen
digits always suffice; without them the exact form would be written, which reads back too. -/
def shortest (x : Magnitude) (tie : Tie) : Decimal :=
  if x.mantissa = 0 then ⟨['0'], 1⟩
  else
    let width := (digitsOfNat x.decimalUnits).length
    let grids := (List.range 17).map fun n => Nat.pow 10 (width - (n + 1))
    let written :=
      (grids.findSome? fun grid => (nearestOn? x tie grid).map (· * grid)).getD x.decimalUnits
    let digits := digitsOfNat written
    ⟨(digits.reverse.dropWhile (· == '0')).reverse, digits.length - 1074⟩

end Magnitude

/-- How a number is laid out as text, once its digits are chosen. -/
structure NumberStyle where
  /-- What to do between two equally near digit strings. -/
  tie : Tie
  /-- The positions of the point for which the number is written without an exponent; `none` allows
  every position. -/
  positional : Option (Int × Int)
  /-- Whether a whole number keeps a point and a zero behind it. -/
  pointZero : Bool
  /-- Whether a positive exponent has its sign written. -/
  exponentPlus : Bool

namespace NumberStyle

/-- The number without an exponent. -/
def plain (style : NumberStyle) (d : Decimal) : String :=
  match d.positional with
  | (front, []) => String.ofList (if style.pointZero then front ++ ['.', '0'] else front)
  | (front, back) => String.ofList (front ++ '.' :: back)

/-- The number with one digit in front of the point and an exponent. -/
def scientific (style : NumberStyle) (d : Decimal) : String :=
  let mantissa :=
    match d.digits with
    | [] => []
    | [digit] => [digit]
    | digit :: more => digit :: '.' :: more
  let exponent := d.point - 1
  let plus := if 0 ≤ exponent ∧ style.exponentPlus then "+" else ""
  s!"{String.ofList mantissa}e{plus}{exponent}"

/-- A magnitude in this style. -/
def magnitude (style : NumberStyle) (x : Magnitude) : String :=
  let d := x.shortest style.tie
  match style.positional with
  | none => style.plain d
  | some (low, high) =>
    if low ≤ d.point ∧ d.point ≤ high then style.plain d else style.scientific d

/-- A number in this style. -/
def render (style : NumberStyle) : Binary64 → String
  | .nan => "NaN"
  | .infinite negative => if negative then "-inf" else "inf"
  | .finite negative x => (if negative then "-" else "") ++ style.magnitude x

end NumberStyle

namespace Binary64

/-- The style of running text: no exponent ever, and no point in a whole number. -/
def textStyle : NumberStyle := ⟨.up, none, false, false⟩

/-- The number in running text. -/
def text (x : Binary64) : String := textStyle.render x

/-- A whole number with all its digits and one zero behind the point; any other number as in running
text. -/
def literal (x : Binary64) : String :=
  match x with
  | .finite negative magnitude =>
    if magnitude.isWhole then
      (if negative then "-" else "") ++ toString magnitude.floor ++ ".0"
    else x.text
  | _ => x.text

/-- Two texts agree up to the case of ASCII letters. -/
def sameWord (cs : List Char) (word : String) : Bool := cs.map Char.toLower == word.toList

/-- The exponent behind the mark of a decimal text: an optional sign and at least one digit. -/
def exponentOf? (cs : List Char) : Option Int :=
  let (negative, digits) :=
    match cs with
    | '-' :: rest => (true, rest)
    | '+' :: rest => (false, rest)
    | _ => (false, cs)
  if digits.isEmpty || !digits.all Char.isDigit then none
  else
    let n : Int := natOfDigits digits
    some (if negative then -n else n)

/-- The magnitude that an unsigned decimal text names: digits, of which some may stand behind a
point and at least one is there, and an optional exponent. -/
def decimal? (cs : List Char) : Option (Option Magnitude) :=
  let (whole, rest) := cs.span Char.isDigit
  let (fraction, rest) :=
    match rest with
    | '.' :: more => more.span Char.isDigit
    | _ => ([], rest)
  if whole.isEmpty && fraction.isEmpty then none
  else
    let coefficient := natOfDigits (whole ++ fraction)
    let places : Int := fraction.length
    match rest with
    | [] => some (Magnitude.ofDecimal? coefficient (-places))
    | mark :: more =>
      if mark == 'e' || mark == 'E' then
        (exponentOf? more).map fun e => Magnitude.ofDecimal? coefficient (e - places)
      else none

/-- The number that a text names: a decimal text or one of the words for an infinity and the missing
result, each with an optional sign. -/
def ofText? (text : String) : Option Binary64 :=
  let (negative, cs) :=
    match text.toList with
    | '-' :: rest => (true, rest)
    | '+' :: rest => (false, rest)
    | cs => (false, cs)
  if sameWord cs "nan" then some .nan
  else if sameWord cs "inf" || sameWord cs "infinity" then some (.infinite negative)
  else (decimal? cs).map (signed negative)

end Binary64

end FilterLang
