import FilterLang.Json.Reader
import FilterLang.Policy.Basic

/-!
# Policies from documents

Everything in a policy but a caller's own check can be written as a JSON document.  A part that is
missing or `null` is not there; a key that means nothing is passed over; a value of the wrong kind,
or a part given twice, makes the whole document unusable.

A whitelist on its own is read part by part, so that a value under a key that means nothing only has
to be written correctly.  A policy is read as a whole before its parts are looked at.
-/

namespace FilterLang

/-- The value of a key that may occur once; `none` if it occurs more often. -/
def Members.once? (key : String) (members : Members) : Option (Option Json) :=
  match members.filter (·.1 == key) with
  | [] => some none
  | [(_, value)] => some (some value)
  | _ => none

/-- A part that may be missing or `null`. -/
def optional? {α : Type} (read : Json → Option α) : Option Json → Option (Option α)
  | none | some .null => some none
  | some value => (read value).map some

/-- A part that may be missing but not `null`. -/
def defaulted? {α : Type} (read : Json → Option α) (fallback : α) : Option Json → Option α
  | none => some fallback
  | some value => read value

namespace Json

/-- The truth value that a document is. -/
def bool? : Json → Option Bool
  | .bool value => some value
  | _ => none

/-- The items of an array, each read in the same way. -/
def list? {α : Type} (read : Json → Option α) : Json → Option (List α)
  | .arr items => items.mapM read
  | _ => none

/-- The size that a document is: a whole number of at most 64 bits. -/
def size? : Json → Option Nat
  | .int value => if 0 ≤ value ∧ value.toNat ≤ wordMax then some value.toNat else none
  | _ => none

/-- The document is `null`. -/
def isNull : Json → Bool
  | .null => true
  | _ => false

/-- The document is `null` or an object without members. -/
def isNullOrEmpty : Json → Bool
  | .null | .obj [] => true
  | _ => false

/-- A name out of a fixed set: a string, or an object whose only member has the name as its key and
a value that says nothing. -/
def name? {α : Type} (saysNothing : Json → Bool) (ofName? : String → Option α) : Json → Option α
  | .str name => ofName? name
  | .obj [(name, value)] => if saysNothing value then ofName? name else none
  | _ => none

/-- The values that a document gives for some parts: the members of an object, none of these keys
being repeated, or the items of an array in the order of the parts, of which the last may be
missing. -/
def parts? (parts : List (String × Selection)) : Json → Option (List (Option Json))
  | .obj members => parts.mapM fun (key, _) => Members.once? key members
  | .arr items =>
    if parts.length < items.length then none
    else some (items.map some ++ List.replicate (parts.length - items.length) none)
  | _ => none

end Json

namespace FieldRule

/-- The parts of a document that describe a rule. -/
def parts : List (String × Json.Selection) :=
  [ ("type", .all),
    ("allowNull", .all),
    ("acceptsArrays", .all),
    ("enumValues", .all),
    ("elementType", .all) ]

/-- The rule that a document describes. -/
def ofJson? (saysNothing : Json → Bool) (document : Json) : Option FieldRule := do
  match ← document.parts? parts with
  | [fieldType, allowNull, acceptsArrays, enumValues, elementType] =>
    let typeNamed? := Json.name? saysNothing FieldType.ofName?
    let fieldType ← fieldType.bind typeNamed?
    let allowNull ← defaulted? Json.bool? false allowNull
    let acceptsArrays ← defaulted? Json.bool? false acceptsArrays
    let enumValues ← optional? (Json.list? Scalar.ofJson?) enumValues
    let elementType ← optional? typeNamed? elementType
    return { fieldType, allowNull, acceptsArrays, enumValues, elementType }
  | _ => none

end FieldRule

/-- The rules that a document describes, by field; the last rule for a field counts. -/
def rulesOfJson? (saysNothing : Json → Bool) : Json → Option (List (String × FieldRule))
  | .obj members => do
    let rules ← members.mapM fun (field, document) => do
      return (field, ← FieldRule.ofJson? saysNothing document)
    return rules.foldl (fun sorted (field, rule) => insertRule field rule sorted) []
  | _ => none

namespace Whitelist

/-- The parts of a document that describe a whitelist. -/
def parts : List (String × Json.Selection) :=
  [ ("allowedFields", .all),
    ("allowedOperators", .all),
    ("fieldTypes", .each (.only FieldRule.parts)) ]

/-- The whitelist that a document describes. -/
def ofJson? (saysNothing : Json → Bool) (document : Json) : Option Whitelist := do
  match ← document.parts? parts with
  | [fields, operators, rules] =>
    let fields ← optional? (Json.list? Json.asStr?) fields
    let operators ← optional? (Json.list? (Json.name? saysNothing Operator.ofName?)) operators
    let rules ← optional? (rulesOfJson? saysNothing) rules
    return {
      fields := fields.map sortNames
      operators := operators.map fun operators => Operator.all.filter operators.contains
      rules }
  | _ => none

/-- The whitelist that a text describes.  The value beside a name has to be `null`. -/
def ofText? (text : String) : Option Whitelist :=
  (Json.readPart? (.only parts) Json.maxLevels text).bind (ofJson? Json.isNull)

end Whitelist

/-- The policy that a text describes.  The value beside a name may also be an object without
members. -/
def Policy.ofText? (text : String) : Option Policy :=
  match Json.read? Json.maxLevels text with
  | some (.obj members) => do
    let whitelist ← Whitelist.ofJson? Json.isNullOrEmpty (.obj members)
    let validate ← optional? Json.bool? (← Members.once? "validate" members)
    let maxDepth ← optional? Json.size? (← Members.once? "maxDepth" members)
    let maxNodes ← optional? Json.size? (← Members.once? "maxNodes" members)
    let maxClauses ← optional? Json.size? (← Members.once? "maxClauses" members)
    return { whitelist, validate, limits := { maxDepth, maxNodes, maxClauses } }
  | _ => none

end FilterLang
