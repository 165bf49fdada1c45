import FilterLang.Filter.Basic

/-!
# Filters for a target

What the targets share: the errors that stop a filter from being expressed, the path of a field, and
the envelopes in which an operator travels to a target whose operators only exist on its own side.
-/

namespace FilterLang

/-! ## Errors -/

/-- A comparison that a target cannot express. -/
inductive CompileError where
  /-- The operator does not take this kind of value at all. -/
  | invalidNode (field : String) (op : Operator) (found : String)
  /-- The target has no such comparison. -/
  | unsupportedValue (field : String) (op : Operator) (found : String)
  /-- A list operator without values. -/
  | emptyList (field : String) (op : Operator)
deriving DecidableEq

namespace CompileError

/-- The wording of the error. -/
def message : CompileError → String
  | invalidNode field op found =>
    s!"Invalid node for field '{field}': operator '{op}' cannot take a {found} value"
  | unsupportedValue field op found =>
    s!"Operator '{op}' on field '{field}' cannot take a {found} value for this target"
  | emptyList field op => s!"Operator '{op}' on field '{field}' requires a non-empty list"

end CompileError

/-- A comparison whose value is of the kind that its operator takes. -/
def checkShape (field : String) (op : Operator) (value : Value) : Except CompileError Unit :=
  if op.accepts value then .ok () else .error (.invalidNode field op value.kindName)

/-- The text that a pattern operator looks for. -/
def patternText (field : String) (op : Operator) (value : Value) : Except CompileError String :=
  match value with
  | .scalar literal => .ok literal.text
  | .list _ => .error (.unsupportedValue field op value.kindName)
  | .range _ _ => .error (.invalidNode field op value.kindName)

/-! ## Paths -/

/-- The parts of a field name between its points. -/
def fieldPath (field : String) : List String := (field.toList.splitOn '.').map String.ofList

/-- A document at the end of a path, as nested objects. -/
def nest (path : List String) (document : Json) : Json := path.foldr Json.single document

/-- A condition on a field, as the members of the outermost object of its path. -/
def nestPath (field : String) (condition : Json) : Members :=
  match fieldPath field with
  | [] => []
  | key :: rest => [(key, nest rest condition)]

/-- The bounds that a range sets, each under its own key; an open end sets none. -/
def boundMembers (lowerKey upperKey : String) (lower upper : Scalar) : Members :=
  (lower.bound?.map fun bound => (lowerKey, bound.toJson)).toList
    ++ (upper.bound?.map fun bound => (upperKey, bound.toJson)).toList

/-! ## Envelopes -/

/-- The key of an operator in an envelope. -/
def operatorMarker : String := "__qast_operator__"

/-- The key of a connective in an envelope. -/
def logicalMarker : String := "__qast_logical__"

/-- The key of a negated filter. -/
def notMarker : String := "__qast_not__"

/-- A value with the operator that compares with it. -/
def envelope (op : String) (value : Json) : Json :=
  .obj [(operatorMarker, .str op), ("value", value)]

/-- The condition that a comparison puts on its field: the value itself for equality, and an
envelope for every other operator. -/
def enveloped (op : Operator) (value : Value) : Json :=
  match op with
  | .eq => value.toJson
  | _ => envelope op.name value.toJson

/-- The name in an operator envelope. -/
def envelopeName? (document : Json) : Option String :=
  (document.get? operatorMarker).bind Json.asStr?

/-- The document is an object that is not an operator envelope. -/
def isRelation : Json → Bool
  | .obj members => !Members.has operatorMarker members
  | _ => false

end FilterLang
