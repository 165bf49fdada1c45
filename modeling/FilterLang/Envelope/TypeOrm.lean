import FilterLang.Envelope.Negation
import FilterLang.Policy.Basic
import FilterLang.Text.Quoted

/-!
# TypeORM calls

The envelopes of a TypeORM filter are opened by calling the function that the target has for the
operator.  Negations are moved onto the fields before that.
-/

namespace FilterLang.TypeOrm

/-- The functions that stand for operators, by name; the first entry for a name counts. -/
structure FunctionTable where
  functions : List (String × (List Json → Json))

namespace FunctionTable

/-- The table without functions. -/
def empty : FunctionTable := ⟨[]⟩

/-- The table with a function for a name, in place of an earlier one. -/
def insert (table : FunctionTable) (name : String) (function : List Json → Json) : FunctionTable :=
  ⟨(name, function) :: table.functions⟩

/-- The names that a filter may need. -/
def names : List String :=
  ["equal", "not", "moreThan", "moreThanOrEqual", "lessThan", "lessThanOrEqual", "in", "like",
   "between", "isNull", "and"]

/-- The result of a function. -/
def call (table : FunctionTable) (name : String) (arguments : List Json) :
    Except EnvelopeError Json :=
  match table.functions.lookup name with
  | some function => .ok (function arguments)
  | none => .error (.missingOperator .typeOrm name)

/-- The names in the table, for diagnostic output. -/
def diagnostic (table : FunctionTable) : String :=
  let names := sortNames (table.functions.map (·.1))
  "TypeOrmOperators \x7b functions: [" ++ ", ".intercalate (names.map Text.quoted) ++ "] \x7d"

end FunctionTable

section

variable (table : FunctionTable)

/-! ## Conditions -/

/-- A value that is no envelope, as a condition in the form of a call. -/
def callPlain (value : Json) : Except EnvelopeError Json :=
  match value with
  | .null => table.call "isNull" []
  | value => table.call "equal" [value]

/-- The opposite of an opened condition.  A condition that always holds has none. -/
def callNot : Option Json → Except EnvelopeError (Option Json)
  | none => unsupported .overUnbounded
  | some condition => do return some (← table.call "not" [condition])

/-- Several opened conditions together. -/
def callAnd : List Json → Except EnvelopeError (Option Json)
  | [] => .ok none
  | [condition] => .ok (some condition)
  | conditions => do return some (← table.call "and" conditions)

/-- An operator other than equality with its value, as a call; nothing is left of a range that is
open on both sides. -/
def callOperator (op : Operator) (value : Json) : Except EnvelopeError (Option Json) :=
  match op with
  | .eq => do return some (← callPlain table value)
  | .ne =>
    match value with
    | .null => do return some (← table.call "not" [← table.call "isNull" []])
    | value => do return some (← table.call "not" [value])
  | .gt => do return some (← table.call "moreThan" [value])
  | .gte => do return some (← table.call "moreThanOrEqual" [value])
  | .lt => do return some (← table.call "lessThan" [value])
  | .lte => do return some (← table.call "lessThanOrEqual" [value])
  | .isIn => do return some (← table.call "in" [value])
  | .notIn => do return some (← table.call "not" [← table.call "in" [value]])
  | .contains | .startsWith | .endsWith => do
    let text := searchedText value
    return some (← table.call "like" [.str ((op.likePattern? text).getD text)])
  | .between =>
    match rangeBounds? value with
    | none => invalid (.notARange value)
    | some (some lower, some upper) => do return some (← table.call "between" [lower, upper])
    | some (some lower, none) => do return some (← table.call "moreThanOrEqual" [lower])
    | some (none, some upper) => do return some (← table.call "lessThanOrEqual" [upper])
    | some (none, none) => .ok none

/-- The operator with a given name. -/
def operatorNamed (name : String) : Except EnvelopeError Operator :=
  match Operator.ofName? name with
  | some op => .ok op
  | none => invalid (.unknownOperator s!"'{name}'")

mutual

/-- A condition in the form of a call. -/
def callForm : Json → Except EnvelopeError (Option Json)
  | .obj members =>
    if Members.has operatorMarker members then
      match envelopeName? (.obj members) with
      | some name => openNamed name members
      | none => .ok (some (.obj members))
    else do return some (← callPlain table (.obj members))
  | value => do return some (← callPlain table value)
termination_by structural document => document

/-- An envelope with a given name, opened.  Its value is one of its members, or else `null`. -/
def openNamed (name : String) : List (String × Json) → Except EnvelopeError (Option Json)
  | [] =>
    if name = "not" then do callNot table (some (← callPlain table .null))
    else if name = "and" then .ok none
    else do callOperator table (← operatorNamed name) .null
  | (key, value) :: rest =>
    if key ≠ "value" then openNamed name rest
    else if name = "not" then do callNot table (← callForm value)
    else if name = "and" then
      match value with
      | .arr items => do callAnd table (← callForms items)
      | _ => .ok none
    else do
      let op ← operatorNamed name
      if op = .eq then callForm value else callOperator table op value
termination_by structural members => members

/-- Conditions in the form of calls, without those that always hold. -/
def callForms : List Json → Except EnvelopeError (List Json)
  | [] => .ok []
  | item :: rest => do
    let opened ← callForm item
    let more ← callForms rest
    return opened.toList ++ more
termination_by structural items => items

end

/-- A condition on a field; a plain value other than `null` stays as it is. -/
def openCondition (condition : Json) : Except EnvelopeError (Option Json) :=
  match condition with
  | .null => do return some (← table.call "isNull" [])
  | .obj members =>
    match envelopeName? condition with
    | some name => openNamed table name members
    | none => .ok (some condition)
  | condition => .ok (some condition)

/-! ## Filters -/

/-- The members of an object without negations: relations by `nested`, and conditions opened.  A
field without a condition is left out. -/
def openMembers (nested : Members → Except EnvelopeError Members) :
    Members → Except EnvelopeError Members
  | [] => .ok []
  | (key, value) :: rest => do
    let opened ←
      match value with
      | .obj members =>
        if isRelation value then do pure (some (.obj (← nested members)))
        else openCondition table value
      | value => openCondition table value
    let more ← openMembers nested rest
    return match opened with
      | some value => (key, value) :: more
      | none => more

/-- An object with its envelopes opened.  Relations nest at most as deep as the document, so that
its height is a bound on the levels. -/
def resolveObject : Nat → Members → Except EnvelopeError Members
  | 0, members => do openMembers table .ok (← lower members)
  | levels + 1, members => do openMembers table (resolveObject levels) (← lower members)

mutual

/-- How deep arrays and objects nest in a document. -/
def height : Json → Nat
  | .arr items => heightIn items + 1
  | .obj members => heightAmong members + 1
  | _ => 0
termination_by structural document => document

/-- The greatest height of an item. -/
def heightIn : List Json → Nat
  | [] => 0
  | item :: rest => max (height item) (heightIn rest)
termination_by structural items => items

/-- The greatest height of a member. -/
def heightAmong : List (String × Json) → Nat
  | [] => 0
  | (_, value) :: rest => max (height value) (heightAmong rest)
termination_by structural members => members

end

/-- One alternative of a filter with its envelopes opened. -/
def resolveBranch (branch : Json) : Except EnvelopeError Json :=
  match branch with
  | .obj members => do return .obj (← resolveObject table (height branch) members)
  | other => invalid (.expectedObject other)

/-- A filter with its envelopes opened. -/
def resolve (filter : Json) : Except EnvelopeError Json :=
  match filter with
  | .arr branches => do return .arr (← branches.mapM (resolveBranch table))
  | other => resolveBranch table other

end

end FilterLang.TypeOrm
