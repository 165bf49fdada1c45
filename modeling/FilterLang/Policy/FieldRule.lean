import FilterLang.Calendar.Text
import FilterLang.Filter.Basic
import FilterLang.Text.Quoted

/-!
# What a field may be compared with

A rule for a field names the type of its values and a few exceptions: whether `null` is allowed,
whether a list may stand where a single value is expected, which values an enumeration has, and a
check of the caller's own.
-/

namespace FilterLang

/-- The declared type of a field. -/
inductive FieldType where
  | string
  | number
  | boolean
  | date
  | datetime
  /-- One of a given list of values. -/
  | enum
  | uuid
  /-- Anything but `null`. -/
  | json
deriving DecidableEq

namespace FieldType

/-- Every type. -/
def all : List FieldType := [string, number, boolean, date, datetime, enum, uuid, json]

/-- The name of the type. -/
def name : FieldType → String
  | string => "string"
  | number => "number"
  | boolean => "boolean"
  | date => "date"
  | datetime => "datetime"
  | enum => "enum"
  | uuid => "uuid"
  | json => "json"

instance : ToString FieldType := ⟨name⟩

/-- The type with a given name. -/
def ofName? (name : String) : Option FieldType := all.find? (·.name = name)

end FieldType

/-- A rule for one field. -/
structure FieldRule where
  /-- The type of the field. -/
  fieldType : FieldType
  /-- `null` is accepted. -/
  allowNull : Bool := false
  /-- A list is accepted by operators that compare with a single value. -/
  acceptsArrays : Bool := false
  /-- The values of an enumeration. -/
  enumValues : Option (List Scalar) := none
  /-- The type of the items of an accepted list, if it differs from the type of the field. -/
  elementType : Option FieldType := none
  /-- A check of the caller's own on the whole value. -/
  predicate : Option (Value → Bool) := none

namespace FieldRule

/-- The rule with `null` accepted. -/
def nullable (rule : FieldRule) : FieldRule := { rule with allowNull := true }

/-- The rule with lists accepted, whose items may have a type of their own. -/
def acceptingArrays (rule : FieldRule) (elementType : Option FieldType) : FieldRule :=
  { rule with acceptsArrays := true, elementType }

/-- The rule with the values of an enumeration. -/
def withEnumValues (rule : FieldRule) (values : List Scalar) : FieldRule :=
  { rule with enumValues := some values }

/-- The rule with a check of the caller's own. -/
def withPredicate (rule : FieldRule) (predicate : Value → Bool) : FieldRule :=
  { rule with predicate := some predicate }

end FieldRule

/-! ## Values of a type -/

/-- The character is a hexadecimal digit. -/
def isHexDigit (c : Char) : Bool :=
  c.isDigit || ('a' ≤ c && c ≤ 'f') || ('A' ≤ c && c ≤ 'F')

/-- The text is a universally unique identifier: five groups of hexadecimal digits, of which the
third starts with a version from 1 to 5 and the fourth with the variant. -/
def isUuid (text : String) : Bool :=
  match text.toList.splitOn '-' with
  | [a, b, c, d, e] =>
    [a, b, c, d, e].map List.length == [8, 4, 4, 4, 12]
      && (a ++ b ++ c ++ d ++ e).all isHexDigit
      && c.head?.any (fun version => '1' ≤ version && version ≤ '5')
      && d.head?.any (fun variant => "89abAB".toList.contains variant)
  | _ => false

/-- Two literals name the same value; numbers are compared as doubles, whatever their kind. -/
def Scalar.sameValue (a b : Scalar) : Bool :=
  match a.asFloat?, b.asFloat? with
  | some x, some y => x.same y
  | _, _ => a.same b

/-- A literal that is not `null` has a type.  An enumeration asks for one of its values. -/
def FieldType.admits (fieldType : FieldType) (enumValues : List Scalar) (value : Scalar) : Bool :=
  match fieldType, value with
  | .string, .str _ => true
  | .number, .int _ => true
  | .number, .float x => x.isFinite
  | .boolean, .bool _ => true
  | .date, .str text | .datetime, .str text => Calendar.isDateText text
  | .uuid, .str text => isUuid text
  | .json, value => !value.isNull
  | .enum, value => enumValues.any (·.sameValue value)
  | _, _ => false

/-! ## Rules as diagnostic text -/

/-- Numbers in diagnostic text keep a point, and have an exponent from `10 ^ 16` on and below
`10 ^ (-4)`. -/
def diagnosticNumbers : NumberStyle := ⟨.up, some (-3, 16), true, false⟩

/-- A literal with its kind. -/
def Scalar.diagnostic : Scalar → String
  | .null => "Null"
  | .bool value => s!"Boolean({value})"
  | .int value => s!"Integer({value.toInt})"
  | .float value => s!"Float({diagnosticNumbers.render value})"
  | .str value => s!"String({Text.quoted value})"

/-- The capitalised name of a type. -/
def FieldType.diagnostic (fieldType : FieldType) : String := fieldType.name.capitalize

/-- Something that may be missing. -/
def optionDiagnostic : Option String → String
  | some text => s!"Some({text})"
  | none => "None"

/-- All parts of a rule. -/
def FieldRule.diagnostic (rule : FieldRule) : String :=
  let values := rule.enumValues.map fun values =>
    "[" ++ ", ".intercalate (values.map Scalar.diagnostic) ++ "]"
  let elementType := rule.elementType.map FieldType.diagnostic
  let predicate := rule.predicate.map fun _ => Text.quoted "<fn>"
  let parts :=
    [ s!"field_type: {rule.fieldType.diagnostic}",
      s!"allow_null: {rule.allowNull}",
      s!"accepts_arrays: {rule.acceptsArrays}",
      s!"enum_values: {optionDiagnostic values}",
      s!"element_type: {optionDiagnostic elementType}",
      s!"validator: {optionDiagnostic predicate}" ]
  "FieldTypeDefinition \x7b " ++ ", ".intercalate parts ++ " \x7d"

end FilterLang
