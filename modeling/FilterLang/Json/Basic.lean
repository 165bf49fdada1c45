import FilterLang.Number.Decimal

/-!
# Documents

Filters leave this library as JSON documents.  The members of an object keep the order in which they
were first written: giving a key a new value leaves it in its place, and a new key goes to the end.
This file holds the type, the operations on members, and the compact text of a document.
-/

namespace FilterLang

/-- A JSON document. -/
inductive Json where
  | null
  | bool (value : Bool)
  /-- A number written without a point or an exponent. -/
  | int (value : Int)
  /-- Any other number. -/
  | float (value : Binary64)
  | str (value : String)
  | arr (items : List Json)
  | obj (members : List (String × Json))

/-- The members of an object, in order. -/
abbrev Members := List (String × Json)

namespace Members

/-- The members with a key set to a value: in its place if the key is there, else at the end. -/
def set (key : String) (value : Json) : Members → Members
  | [] => [(key, value)]
  | (k, v) :: rest => if k = key then (k, value) :: rest else (k, v) :: set key value rest

/-- The key is one of the members. -/
def has (key : String) (members : Members) : Bool := (members.lookup key).isSome

/-- The members without a key.  The last member takes the place that becomes free, so that the order
of the others does not change. -/
def swapErase (key : String) (members : Members) : Members :=
  match members.getLast? with
  | none => []
  | some last =>
    if !has key members then members
    else if last.1 = key then members.dropLast
    else members.dropLast.map fun member => if member.1 = key then last else member

/-- Members written one after the other: a later value of a key replaces an earlier one. -/
def ofList (entries : List (String × Json)) : Members :=
  entries.foldl (fun members (key, value) => set key value members) []

end Members

namespace Json

/-- An object with one member. -/
def single (key : String) (value : Json) : Json := .obj [(key, value)]

/-- The value of a key; nothing unless the document is an object that has it. -/
def get? (key : String) : Json → Option Json
  | .obj members => members.lookup key
  | _ => none

/-- The text of a string; nothing for any other document. -/
def asStr? : Json → Option String
  | .str value => some value
  | _ => none

/-! ## Text -/

/-- One character between the quotes of a string.  Everything from the space on stands for itself,
the quote and the backslash apart. -/
def escapeChar (c : Char) : List Char :=
  match c with
  | '"' => ['\\', '"']
  | '\\' => ['\\', '\\']
  | '\x08' => ['\\', 'b']
  | '\x0c' => ['\\', 'f']
  | '\n' => ['\\', 'n']
  | '\r' => ['\\', 'r']
  | '\t' => ['\\', 't']
  | _ =>
    if c.toNat < 0x20 then
      ['\\', 'u', '0', '0', Nat.digitChar (c.toNat / 16), Nat.digitChar (c.toNat % 16)]
    else [c]

/-- A string between quotes. -/
def strText (value : String) : String :=
  String.ofList ('"' :: value.toList.flatMap escapeChar ++ ['"'])

/-- Numbers in a document always show that they are not whole numbers, by a point or by an exponent
whose sign is written; the exponent is used from `10 ^ 16` on and below `10 ^ (-5)`. -/
def numberStyle : NumberStyle := ⟨.even, some (-4, 16), true, true⟩

mutual

/-- The compact text of a document. -/
def text : Json → String
  | .null => "null"
  | .bool value => if value then "true" else "false"
  | .int value => toString value
  | .float value => numberStyle.render value
  | .str value => strText value
  | .arr items => "[" ++ ",".intercalate (itemTexts items) ++ "]"
  | .obj members => "\x7b" ++ ",".intercalate (memberTexts members) ++ "\x7d"
termination_by structural document => document

/-- The texts of the items of an array. -/
def itemTexts : List Json → List String
  | [] => []
  | item :: rest => item.text :: itemTexts rest
termination_by structural items => items

/-- The texts of the members of an object. -/
def memberTexts : List (String × Json) → List String
  | [] => []
  | (key, value) :: rest => (strText key ++ ":" ++ value.text) :: memberTexts rest
termination_by structural members => members

end

end Json

end FilterLang
