import FilterLang.Json.Basic
import FilterLang.Json.Skip

/-!
# Reading documents

Options and filters arrive as JSON text.  The reader keeps the members of an object as they are
written, repeated keys included, so that a caller can tell a repetition from a single member;
`Json.merged` is the document in which the last value of a repeated key counts.  A caller who only
needs a part of the document says so by a `Selection`, and the rest is passed over.

A number that is not whole is not read to the last bit.  Its digits are collected as long as they
fit into 64 bits, the rest only counts places, and the nearest number of the collected digits is
then multiplied or divided once by the nearest power of ten.
-/

namespace FilterLang.Json

/-! ## Numbers -/

/-- The largest number of 64 bits. -/
def wordMax : Nat := Nat.pow 2 64 - 1

/-- Digits appended to a number as long as the result fits into 64 bits, and the digits left
over. -/
def collect (significand : Nat) : List Char → Nat × List Char
  | [] => (significand, [])
  | c :: rest =>
    let next := 10 * significand + (c.toNat - '0'.toNat)
    if next ≤ wordMax then collect next rest else (significand, c :: rest)

/-- The magnitude next to a power of ten. -/
def powerOfTen (n : Nat) : Option Magnitude := Magnitude.nearest? (Nat.pow 10 n) 1

/-- A magnitude divided by `10 ^ 308` a number of times, or until nothing is left of it. -/
def shrink : Nat → Magnitude → Option Magnitude
  | 0, x => some x
  | rounds + 1, x =>
    if x.mantissa = 0 then some x
    else (powerOfTen 308).bind fun power => (x.div? power).bind (shrink rounds)

/-- A magnitude divided by a power of ten, at most 308 places at a time. -/
def divideByPower (x : Magnitude) (places : Nat) : Option Magnitude :=
  let rounds := (places - 1) / 308
  (shrink rounds x).bind fun y => (powerOfTen (places - 308 * rounds)).bind y.div?

/-- A collected number scaled by a power of ten; `none` if the result is too large. -/
def scale (significand : Nat) (exponent : Int) : Option Magnitude :=
  match Magnitude.nearest? significand 1 with
  | none => none
  | some x =>
    if exponent < 0 then divideByPower x (-exponent).toNat
    else if exponent ≤ 308 then (powerOfTen exponent.toNat).bind x.mul?
    else if x.mantissa = 0 then some x
    else none

/-- A whole number of at most 64 bits.  Minus zero, and a negative number below the range of signed
words, are kept as the nearest double. -/
def ofWhole (negative : Bool) (n : Nat) : Json :=
  if !negative then .int n
  else if n = 0 || Nat.pow 2 63 < n then .float (.ofRatio true n 1)
  else .int (-n)

/-- The number that a text names; `none` if it is too large. -/
def NumberText.value? (number : NumberText) : Option Json :=
  let (significand, skipped) := collect 0 number.whole
  if number.fraction.isEmpty && number.exponent.isNone && skipped.isEmpty then
    some (ofWhole number.negative significand)
  else
    let (significand, dropped) := collect significand number.fraction
    let places : Int := (number.fraction.length - dropped.length : Nat)
    (scale significand (skipped.length - places + number.exponent.getD 0)).map fun x =>
      .float (.finite number.negative x)

/-! ## Strings -/

/-- The text that pieces stand for, the last one first, put in front of `text`.  A character beyond
the basic plane is two words that come together; `none` if half of one is on its own. -/
def textOfPieces? (text : List Char) : List StringPiece → Option (List Char)
  | [] => some text
  | .char c :: rest => textOfPieces? (c :: text) rest
  | .word low :: .word high :: rest =>
    if 0xDC00 ≤ low ∧ low < 0xE000 then
      if 0xD800 ≤ high ∧ high < 0xDC00 then
        textOfPieces? (Char.ofNat (0x10000 + (high - 0xD800) * 0x400 + (low - 0xDC00)) :: text) rest
      else none
    else if 0xD800 ≤ low ∧ low < 0xDC00 then none
    else textOfPieces? (Char.ofNat low :: text) (.word high :: rest)
  | .word value :: rest =>
    if 0xD800 ≤ value ∧ value < 0xE000 then none
    else textOfPieces? (Char.ofNat value :: text) rest

/-- The text of a string behind its opening quote, and what follows the closing one. -/
def string? (cs : List Char) : Option (String × List Char) :=
  match stringPieces? [] cs with
  | none => none
  | some (pieces, rest) => (textOfPieces? [] pieces).map fun text => (String.ofList text, rest)

/-! ## Parts of a document -/

/-- The part of a document that a caller needs. -/
inductive Selection where
  /-- All of it. -/
  | all
  /-- The same part of the value of every member. -/
  | each (part : Selection)
  /-- The members with certain keys, and a part of each of their values.  An array may stand for
  them, whose items are the values in this order. -/
  | only (parts : List (String × Selection))

/-- The part of the value of a key; `none` if the member is not needed. -/
def Selection.at? (selection : Selection) (key : String) : Option Selection :=
  match selection with
  | all => some all
  | each part => some part
  | only parts => parts.lookup key

/-- The parts of the first items of an array; of the others everything is needed. -/
def Selection.items : Selection → List Selection
  | only parts => parts.map Prod.snd
  | _ => []

/-! ## Documents -/

mutual

/-- A part of the document at the front of a text.  `levels` bounds how deep arrays and objects
nest; `steps` bounds the recursion, and a step is only taken for a character or a level. -/
def value? (steps levels : Nat) (part : Selection) (cs : List Char) : Option (Json × List Char) :=
  match steps with
  | 0 => none
  | steps + 1 =>
    match skipSpace cs with
    | [] => none
    | '"' :: rest => (string? rest).map fun (value, rest) => (.str value, rest)
    | '[' :: rest =>
      match levels with
      | 0 => none
      | levels + 1 =>
        match skipSpace rest with
        | ']' :: rest => some (.arr [], rest)
        | _ => (items? steps levels part.items rest).map fun (items, rest) => (.arr items, rest)
    | '\x7b' :: rest =>
      match levels with
      | 0 => none
      | levels + 1 =>
        match skipSpace rest with
        | '\x7d' :: rest => some (.obj [], rest)
        | _ => (members? steps levels part rest).map fun (members, rest) => (.obj members, rest)
    | 'n' :: rest => (word? "ull" rest).map fun rest => (.null, rest)
    | 't' :: rest => (word? "rue" rest).map fun rest => (.bool true, rest)
    | 'f' :: rest => (word? "alse" rest).map fun rest => (.bool false, rest)
    | rest =>
      match numberText? rest with
      | none => none
      | some (number, rest) => number.value?.map fun value => (value, rest)
termination_by structural steps

/-- The items of an array up to its closing bracket, at least one. -/
def items? (steps levels : Nat) (parts : List Selection) (cs : List Char) :
    Option (List Json × List Char) :=
  match steps with
  | 0 => none
  | steps + 1 =>
    match value? steps levels (parts.headD .all) cs with
    | none => none
    | some (item, rest) =>
      match skipSpace rest with
      | ',' :: rest =>
        (items? steps levels parts.tail rest).map fun (items, rest) => (item :: items, rest)
      | ']' :: rest => some ([item], rest)
      | _ => none
termination_by structural steps

/-- The members of an object up to its closing brace, at least one being written there.  Those that
are not needed are passed over and left out. -/
def members? (steps levels : Nat) (part : Selection) (cs : List Char) :
    Option (Members × List Char) :=
  match steps with
  | 0 => none
  | steps + 1 =>
    match skipSpace cs with
    | '"' :: rest =>
      match string? rest with
      | none => none
      | some (key, rest) =>
        match skipSpace rest with
        | ':' :: rest =>
          let member :=
            match part.at? key with
            | none => (behindValue? rest).map fun rest => ([], rest)
            | some part =>
              (value? steps levels part rest).map fun (value, rest) => ([(key, value)], rest)
          match member with
          | none => none
          | some (member, rest) =>
            match skipSpace rest with
            | ',' :: rest =>
              (members? steps levels part rest).map fun (members, rest) => (member ++ members, rest)
            | '\x7d' :: rest => some (member, rest)
            | _ => none
        | _ => none
    | _ => none
termination_by structural steps

end

/-- A part of the document that a text holds, with nothing but blanks around it, if arrays and
objects in that part nest at most `levels` deep. -/
def readPart? (part : Selection) (levels : Nat) (text : String) : Option Json :=
  let cs := text.toList
  match value? (2 * cs.length + 2) levels part cs with
  | some (document, rest) => if (skipSpace rest).isEmpty then some document else none
  | none => none

/-- The document that a text holds, if arrays and objects nest at most `levels` deep. -/
def read? (levels : Nat) (text : String) : Option Json := readPart? .all levels text

mutual

/-- The document in which only the last value of a repeated key is left, at the place of the
first. -/
def merged : Json → Json
  | .arr items => .arr (mergedItems items)
  | .obj members => .obj (Members.ofList (mergedMembers members))
  | document => document
termination_by structural document => document

/-- Every item merged. -/
def mergedItems : List Json → List Json
  | [] => []
  | item :: rest => item.merged :: mergedItems rest
termination_by structural items => items

/-- Every member merged. -/
def mergedMembers : List (String × Json) → List (String × Json)
  | [] => []
  | (key, value) :: rest => (key, value.merged) :: mergedMembers rest
termination_by structural members => members

end

/-- How deep a document from outside may nest. -/
def maxLevels : Nat := 127

/-- The document that a text from outside holds. -/
def ofText? (text : String) : Option Json := (read? maxLevels text).map merged

end FilterLang.Json
