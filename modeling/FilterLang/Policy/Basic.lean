import FilterLang.Policy.FieldRule

/-!
# Policies

A policy says which queries are accepted: which fields and operators they may use, which values they
may compare with, and how large they may be.  Each part may be missing, and then does not restrict.
-/

namespace FilterLang

/-! ## Sorted names -/

/-- A name put into a sorted list, which has each name once. -/
def insertName (name : String) : List String → List String
  | [] => [name]
  | other :: rest =>
    if name < other then name :: other :: rest
    else if name = other then other :: rest
    else other :: insertName name rest

/-- Names in order, each of them once. -/
def sortNames (names : List String) : List String :=
  names.foldl (fun sorted name => insertName name sorted) []

/-- A rule put into a list sorted by field, which has each field once; an earlier rule for the field
gives way. -/
def insertRule (field : String) (rule : FieldRule) :
    List (String × FieldRule) → List (String × FieldRule)
  | [] => [(field, rule)]
  | (other, r) :: rest =>
    if field < other then (field, rule) :: (other, r) :: rest
    else if field = other then (field, rule) :: rest
    else (other, r) :: insertRule field rule rest

/-! ## Policies -/

/-- The fields, operators and values that a query may use. -/
structure Whitelist where
  /-- The fields in order, each of them once. -/
  fields : Option (List String) := none
  /-- The operators in the order of `Operator.all`, each of them once. -/
  operators : Option (List Operator) := none
  /-- The rules in the order of their fields, one for each. -/
  rules : Option (List (String × FieldRule)) := none

namespace Whitelist

/-- The whitelist with the given fields and no others. -/
def allowFields (whitelist : Whitelist) (fields : List String) : Whitelist :=
  { whitelist with fields := some (sortNames fields) }

/-- The whitelist with the given operators and no others. -/
def allowOperators (whitelist : Whitelist) (operators : List Operator) : Whitelist :=
  { whitelist with operators := some (Operator.all.filter operators.contains) }

/-- The whitelist with a rule for a field. -/
def withRule (whitelist : Whitelist) (field : String) (rule : FieldRule) : Whitelist :=
  { whitelist with rules := some (insertRule field rule (whitelist.rules.getD [])) }

/-- The whitelist with a check of the caller's own on a field; without a rule for the field there is
nothing to attach it to. -/
def withPredicate (whitelist : Whitelist) (field : String) (predicate : Value → Bool) : Whitelist :=
  { whitelist with
    rules := whitelist.rules.map fun rules => rules.map fun (other, rule) =>
      (other, if other = field then rule.withPredicate predicate else rule) }

/-- The rule for a field. -/
def rule? (whitelist : Whitelist) (field : String) : Option FieldRule :=
  whitelist.rules.bind fun rules => rules.lookup field

/-- Some part is there and not empty. -/
def hasRules (whitelist : Whitelist) : Bool :=
  whitelist.fields.any (!·.isEmpty) || whitelist.operators.any (!·.isEmpty)
    || whitelist.rules.any (!·.isEmpty)

end Whitelist

/-- A whitelist, limits on the size of a query, and whether the whitelist is applied. -/
structure Policy where
  whitelist : Whitelist := {}
  /-- Asks for the whitelist to be applied or not. -/
  validate : Option Bool := none
  limits : ComplexityLimits := {}

/-- The whitelist is applied: as asked for, or else if it has any rules. -/
def Policy.shouldValidate (policy : Policy) : Bool :=
  policy.validate.getD policy.whitelist.hasRules

end FilterLang
