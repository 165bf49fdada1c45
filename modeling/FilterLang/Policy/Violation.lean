import FilterLang.Policy.Basic

/-!
# Checking a filter against a whitelist

The comparisons are checked from left to right and the first violation is reported.  Within a
comparison the order is: the field, the operator, the kind of value, the caller's own check, and
then the type of every literal.
-/

namespace FilterLang

/-- The kind of value that an operator needs. -/
inductive ExpectedShape where
  | array
  | range
  | single
deriving DecidableEq

/-- The kind of value in words. -/
def ExpectedShape.text : ExpectedShape → String
  | array => "an array value"
  | range => "a [lower, upper] range"
  | single => "a single value"

/-- The kind of value that an operator needs. -/
def Operator.expectedShape : Operator → ExpectedShape
  | .isIn | .notIn => .array
  | .between => .range
  | _ => .single

/-- A comparison that a whitelist does not accept. -/
inductive Violation where
  | fieldNotAllowed (field : String) (allowed : List String)
  | operatorNotAllowed (field : String) (op : Operator) (allowed : List Operator)
  /-- The operator cannot be used with this kind of value. -/
  | invalidShape (field : String) (op : Operator) (expected : ExpectedShape)
  | stringRequired (field : String) (op : Operator)
  /-- The caller's own check refused the value. -/
  | rejected (field : String) (op : Operator)
  | nullNotAllowed (field : String) (op : Operator)
  | typeMismatch (field : String) (op : Operator) (expected : FieldType) (found : String)
  | enumMismatch (field : String) (op : Operator) (allowed : List String) (found : String)
deriving DecidableEq

namespace Violation

/-- The field of the comparison. -/
def field : Violation → String
  | fieldNotAllowed field _ => field
  | operatorNotAllowed field _ _ => field
  | invalidShape field _ _ => field
  | stringRequired field _ => field
  | rejected field _ => field
  | nullNotAllowed field _ => field
  | typeMismatch field _ _ _ => field
  | enumMismatch field _ _ _ => field

/-- The operator of the comparison; a field is refused before its operator is looked at. -/
def operator? : Violation → Option Operator
  | fieldNotAllowed _ _ => none
  | operatorNotAllowed _ op _ => some op
  | invalidShape _ op _ => some op
  | stringRequired _ op => some op
  | rejected _ op => some op
  | nullNotAllowed _ op => some op
  | typeMismatch _ op _ _ => some op
  | enumMismatch _ op _ _ => some op

/-- Names one after the other. -/
def joined (names : List String) : String := ", ".intercalate names

/-- The wording of the violation. -/
def message : Violation → String
  | fieldNotAllowed field allowed =>
    s!"Field '{field}' is not allowed. Allowed fields: {joined allowed}"
  | operatorNotAllowed field op allowed =>
    s!"Operator '{op}' is not allowed on field '{field}'. Allowed operators: "
      ++ joined (allowed.map Operator.name)
  | invalidShape field op expected =>
    s!"Operator '{op}' on field '{field}' requires {expected.text}"
  | stringRequired field op => s!"Operator '{op}' on field '{field}' requires a string value"
  | rejected field _ => s!"Value for field '{field}' was rejected by its custom validator"
  | nullNotAllowed field _ => s!"Field '{field}' does not accept null values"
  | typeMismatch field _ expected found =>
    s!"Invalid value for field '{field}': expected {expected}, got {found}"
  | enumMismatch field _ allowed found =>
    s!"Invalid value for field '{field}': {found} is not one of [{joined allowed}]"

end Violation

/-- A literal as violations show it. -/
def Scalar.describe : Scalar → String
  | .str value => "\"" ++ value ++ "\""
  | value => value.typeName ++ " " ++ value.text

namespace FieldRule

section

variable (field : String) (op : Operator) (rule : FieldRule)

/-- A literal against a type.  Only `null` is exempt from the type, where the rule allows it. -/
def checkScalar (fieldType : FieldType) (value : Scalar) : Except Violation Unit :=
  let enumValues := rule.enumValues.getD []
  if value.isNull then
    if rule.allowNull then .ok () else .error (.nullNotAllowed field op)
  else if fieldType.admits enumValues value then .ok ()
  else if fieldType = .enum then
    .error (.enumMismatch field op (enumValues.map Scalar.describe) value.describe)
  else .error (.typeMismatch field op fieldType value.describe)

/-- Every literal of a list against a type. -/
def checkScalars (fieldType : FieldType) : List Scalar → Except Violation Unit
  | [] => .ok ()
  | value :: rest => do
    checkScalar field op rule fieldType value
    checkScalars fieldType rest

/-- The literals of a value.  An open end of a range has none; a text search needs a string. -/
def checkLiterals (value : Value) : Except Violation Unit :=
  match value with
  | .list items =>
    if op.takesList then checkScalars field op rule rule.fieldType items
    else if op.isPattern then .error (.stringRequired field op)
    else if rule.acceptsArrays then
      checkScalars field op rule (rule.elementType.getD rule.fieldType) items
    else .error (.invalidShape field op .single)
  | .range lower upper =>
    checkScalars field op rule rule.fieldType ([lower, upper].filterMap Scalar.bound?)
  | .scalar value =>
    if op.isPattern && value.asStr?.isNone then .error (.stringRequired field op)
    else checkScalar field op rule rule.fieldType value

/-- A value of the right kind against a rule. -/
def check (value : Value) : Except Violation Unit :=
  if rule.predicate.any (fun predicate => !predicate value) then .error (.rejected field op)
  else checkLiterals field op rule value

end

end FieldRule

namespace Whitelist

/-- A comparison against a whitelist. -/
def checkComparison (whitelist : Whitelist) (field : String) (op : Operator) (value : Value) :
    Except Violation Unit := do
  if let some allowed := whitelist.fields then
    if !allowed.contains field then throw (.fieldNotAllowed field allowed)
  if let some allowed := whitelist.operators then
    if !allowed.contains op then throw (.operatorNotAllowed field op allowed)
  if !op.accepts value then throw (.invalidShape field op op.expectedShape)
  match whitelist.rule? field with
  | none => return ()
  | some rule => rule.check field op value

/-- A filter against a whitelist. -/
def check (whitelist : Whitelist) : Filter → Except Violation Unit
  | .comparison field op value => whitelist.checkComparison field op value
  | .logical _ left right => do
    whitelist.check left
    whitelist.check right
  | .not child => whitelist.check child

end Whitelist

end FilterLang
