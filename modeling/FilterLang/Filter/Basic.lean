import FilterLang.Value

/-!
# Filters

A filter is a tree: comparisons at the leaves, joined by `and` and `or` and negated by `not`.  This
file holds the type, the list of its comparisons, and the measure of its size against which limits
are checked.
-/

namespace FilterLang

/-- How two filters are joined. -/
inductive Connective where
  | and
  | or
deriving DecidableEq

/-- The keyword of a connective. -/
def Connective.name : Connective → String
  | .and => "and"
  | .or => "or"

instance : ToString Connective := ⟨Connective.name⟩

/-- A filter. -/
inductive Filter where
  /-- A field compared with a value. -/
  | comparison (field : String) (op : Operator) (value : Value)
  /-- Two filters joined. -/
  | logical (kind : Connective) (left right : Filter)
  /-- A filter negated. -/
  | not (child : Filter)
deriving DecidableEq

namespace Filter

/-- Both filters hold. -/
abbrev and (left right : Filter) : Filter := .logical .and left right

/-- One of the filters holds. -/
abbrev or (left right : Filter) : Filter := .logical .or left right

/-- The filter joins two others. -/
def isLogical : Filter → Bool
  | logical _ _ _ => true
  | _ => false

/-- Equality of filters, value by value. -/
def same : Filter → Filter → Bool
  | comparison f o v, comparison g p w => f == g && o == p && v.same w
  | logical k a b, logical l c d => k == l && a.same c && b.same d
  | not a, not b => a.same b
  | _, _ => false

/-! ## Comparisons -/

/-- The comparisons from left to right. -/
def comparisons : Filter → List (String × Operator × Value)
  | comparison field op value => [(field, op, value)]
  | logical _ left right => left.comparisons ++ right.comparisons
  | not child => child.comparisons

/-- A list without the items that have occurred before. -/
def firsts {α : Type} [BEq α] (items : List α) : List α :=
  items.foldl (fun seen item => if seen.contains item then seen else seen ++ [item]) []

/-- The fields of the filter in order of their first use. -/
def fields (filter : Filter) : List String := firsts (filter.comparisons.map (·.1))

/-- The operators of the filter in order of their first use. -/
def operators (filter : Filter) : List Operator := firsts (filter.comparisons.map (·.2.1))

end Filter

/-! ## Size -/

/-- The size of a filter: the longest path to a leaf, the number of all its parts, and the number of
its comparisons. -/
structure Complexity where
  depth : Nat
  nodes : Nat
  clauses : Nat
deriving DecidableEq

/-- The size of a filter. -/
def Filter.complexity : Filter → Complexity
  | .comparison _ _ _ => ⟨1, 1, 1⟩
  | .not child =>
    let inner := child.complexity
    ⟨inner.depth + 1, inner.nodes + 1, inner.clauses⟩
  | .logical _ left right =>
    let l := left.complexity
    let r := right.complexity
    ⟨max l.depth r.depth + 1, l.nodes + r.nodes + 1, l.clauses + r.clauses⟩

/-- Limits on the size of a filter; a missing one does not limit. -/
structure ComplexityLimits where
  maxDepth : Option Nat := none
  maxNodes : Option Nat := none
  maxClauses : Option Nat := none
deriving DecidableEq

/-- No limit is set. -/
def ComplexityLimits.isUnbounded (limits : ComplexityLimits) : Bool :=
  limits.maxDepth.isNone && limits.maxNodes.isNone && limits.maxClauses.isNone

/-- The part of the size that a limit is about. -/
inductive Dimension where
  | depth
  | nodes
  | clauses
deriving DecidableEq

/-- The name of the limit on a dimension. -/
def Dimension.limitName : Dimension → String
  | .depth => "maxDepth"
  | .nodes => "maxNodes"
  | .clauses => "maxClauses"

/-- A filter is larger than a limit allows. -/
structure ComplexityError where
  dimension : Dimension
  max : Nat
  actual : Nat
deriving DecidableEq

/-- The wording of the error. -/
def ComplexityError.message (e : ComplexityError) : String :=
  s!"Query complexity limit exceeded: {e.dimension.limitName} is {e.max}, query has {e.actual}"

namespace Filter

/-- One dimension against its limit. -/
def checkDimension (dimension : Dimension) (limit : Option Nat) (actual : Nat) :
    Except ComplexityError Unit :=
  match limit with
  | some max => if max < actual then .error ⟨dimension, max, actual⟩ else .ok ()
  | none => .ok ()

/-- The size of a filter, if it is within the limits.  The depth is checked first, then the parts,
then the comparisons. -/
def checkComplexity (filter : Filter) (limits : ComplexityLimits) :
    Except ComplexityError Complexity := do
  let size := filter.complexity
  checkDimension .depth limits.maxDepth size.depth
  checkDimension .nodes limits.maxNodes size.nodes
  checkDimension .clauses limits.maxClauses size.clauses
  return size

end Filter

end FilterLang
