import FilterLang.Number.Decimal

/-!
# The pieces of a document's text

A document is written with blanks, fixed words, numbers and strings.  Here numbers and strings are
taken off the front of a text as they are written.  What they mean is a second question, because not
every number that can be written fits the range of doubles, and not every string that can be written
has characters behind its escapes.
-/

namespace FilterLang.Json

/-- The text behind the blanks that may stand between the parts of a document. -/
def skipSpace (cs : List Char) : List Char :=
  cs.dropWhile fun c => c == ' ' || c == '\t' || c == '\n' || c == '\r'

/-- The text behind a word. -/
def word? (word : String) (cs : List Char) : Option (List Char) :=
  if word.toList.isPrefixOf cs then some (cs.drop word.length) else none

/-! ## Numbers -/

/-- A number as it is written. -/
structure NumberText where
  negative : Bool
  /-- The digits in front of the point. -/
  whole : List Char
  /-- The digits behind the point; empty if there is no point. -/
  fraction : List Char
  exponent : Option Int

/-- The digits behind a point, if there is one: at least one digit. -/
def fraction? : List Char → Option (List Char × List Char)
  | '.' :: rest =>
    let (digits, rest) := rest.span Char.isDigit
    if digits.isEmpty then none else some (digits, rest)
  | cs => some ([], cs)

/-- The exponent, if there is a mark for one: an optional sign and at least one digit. -/
def exponent? : List Char → Option (Option Int × List Char)
  | [] => some (none, [])
  | mark :: rest =>
    if mark == 'e' || mark == 'E' then
      let (negative, rest) :=
        match rest with
        | '-' :: more => (true, more)
        | '+' :: more => (false, more)
        | _ => (false, rest)
      let (digits, rest) := rest.span Char.isDigit
      let n : Int := natOfDigits digits
      if digits.isEmpty then none else some (some (if negative then -n else n), rest)
    else some (none, mark :: rest)

/-- The number at the front of a text.  A zero in front of other digits is not allowed. -/
def numberText? (cs : List Char) : Option (NumberText × List Char) := do
  let (negative, cs) :=
    match cs with
    | '-' :: rest => (true, rest)
    | _ => (false, cs)
  let (whole, cs) := cs.span Char.isDigit
  if whole.isEmpty || (whole.head? == some '0' && whole.length != 1) then none
  else
    let (fraction, cs) ← fraction? cs
    let (exponent, cs) ← exponent? cs
    return (⟨negative, whole, fraction, exponent⟩, cs)

/-! ## Strings -/

/-- What stands for a piece of a string. -/
inductive StringPiece where
  /-- A character, as itself or behind a backslash. -/
  | char (value : Char)
  /-- A word of 16 bits, given by its digits.  It may be half of a character. -/
  | word (value : Nat)

/-- The value of a hexadecimal digit. -/
def hexDigit? (c : Char) : Option Nat :=
  if '0' ≤ c ∧ c ≤ '9' then some (c.toNat - '0'.toNat)
  else if 'a' ≤ c ∧ c ≤ 'f' then some (c.toNat - 'a'.toNat + 10)
  else if 'A' ≤ c ∧ c ≤ 'F' then some (c.toNat - 'A'.toNat + 10)
  else none

/-- The value of four hexadecimal digits. -/
def hexWord? (a b c d : Char) : Option Nat :=
  match hexDigit? a, hexDigit? b, hexDigit? c, hexDigit? d with
  | some a, some b, some c, some d => some (((a * 16 + b) * 16 + c) * 16 + d)
  | _, _, _, _ => none

/-- The character that a letter behind a backslash stands for. -/
def escape? : Char → Option Char
  | '"' => some '"'
  | '\\' => some '\\'
  | '/' => some '/'
  | 'b' => some '\x08'
  | 'f' => some '\x0c'
  | 'n' => some '\n'
  | 'r' => some '\r'
  | 't' => some '\t'
  | _ => none

/-- The pieces of a string behind its opening quote, the last one first, put in front of `pieces`;
and what follows the closing quote.  A control character has to be escaped. -/
def stringPieces? (pieces : List StringPiece) : List Char → Option (List StringPiece × List Char)
  | [] => none
  | '"' :: rest => some (pieces, rest)
  | '\\' :: 'u' :: a :: b :: c :: d :: rest =>
    match hexWord? a b c d with
    | none => none
    | some value => stringPieces? (.word value :: pieces) rest
  | '\\' :: c :: rest =>
    match escape? c with
    | none => none
    | some c => stringPieces? (.char c :: pieces) rest
  | '\\' :: [] => none
  | c :: rest => if c.toNat < 0x20 then none else stringPieces? (.char c :: pieces) rest

end FilterLang.Json
