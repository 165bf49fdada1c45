/-!
# Comparison operators

The operators that a comparison may use, their names in a query, and the few properties that the
rest of the library asks of them.
-/

namespace FilterLang

/-- A comparison operator. -/
inductive Operator where
  | eq
  | ne
  | gt
  | lt
  | gte
  | lte
  /-- Membership in a list. -/
  | isIn
  /-- Absence from a list. -/
  | notIn
  /-- The text holds a given one somewhere. -/
  | contains
  | startsWith
  | endsWith
  /-- The value lies in a range, both ends included; either end may be open. -/
  | between
deriving DecidableEq

namespace Operator

/-- Every operator, in the order in which answers list them. -/
def all : List Operator :=
  [eq, ne, gt, lt, gte, lte, isIn, notIn, contains, startsWith, endsWith, between]

/-- The name of the operator, which is also its keyword. -/
def name : Operator → String
  | eq => "eq"
  | ne => "ne"
  | gt => "gt"
  | lt => "lt"
  | gte => "gte"
  | lte => "lte"
  | isIn => "in"
  | notIn => "notIn"
  | contains => "contains"
  | startsWith => "startsWith"
  | endsWith => "endsWith"
  | between => "between"

instance : ToString Operator := ⟨name⟩

/-- The operator with a given name. -/
def ofName? (name : String) : Option Operator := all.find? (·.name = name)

/-- The wording of the refusal of a name that no operator has. -/
def unknownMessage (name : String) : String := s!"Unknown operator '{name}'"

/-- The keywords in the order in which a reader of queries tries them.  A keyword is only taken if
no word goes on behind it, so the order cannot change what is read. -/
def keywords : List Operator :=
  [startsWith, contains, endsWith, between, notIn, gte, lte, eq, ne, gt, lt, isIn]

/-- The operator compares with a list of values. -/
def takesList : Operator → Bool
  | isIn | notIn => true
  | _ => false

/-- The operator looks for a text inside another. -/
def isPattern : Operator → Bool
  | contains | startsWith | endsWith => true
  | _ => false

/-- The pattern with wildcards that a text search amounts to. -/
def likePattern? (op : Operator) (text : String) : Option String :=
  match op with
  | contains => some ("%" ++ text ++ "%")
  | startsWith => some (text ++ "%")
  | endsWith => some ("%" ++ text)
  | _ => none

end Operator

end FilterLang
