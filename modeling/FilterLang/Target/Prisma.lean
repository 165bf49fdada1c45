import FilterLang.Target.Basic

/-!
# Prisma filters

A filter is an object of conditions that all have to hold.  Two filters are joined by putting their
members together; a key that both have goes into a list under `AND`.  A disjunction is a list under
`OR`, and a negation an object under `NOT`.
-/

namespace FilterLang.Prisma

/-- The condition of a comparison on its field. -/
def condition (field : String) (op : Operator) (value : Value) : Except CompileError Json := do
  checkShape field op value
  match op, value with
  | .between, .range lower upper => return .obj (boundMembers "gte" "lte" lower upper)
  | .eq, value => return .single "equals" value.toJson
  | .ne, value => return .single "not" value.toJson
  | op, value => return .single op.name value.toJson

/-- Filters appended to the list under `AND`, which starts out empty; anything else found there
becomes its first item. -/
def appendConjuncts (members : Members) (incoming : List Json) : Members :=
  let conjuncts :=
    match members.lookup "AND" with
    | none => incoming
    | some (.arr items) => items ++ incoming
    | some other => other :: incoming
  Members.set "AND" (.arr conjuncts) members

/-- A member joined to a filter. -/
def mergeMember (left : Members) (key : String) (value : Json) : Members :=
  if !Members.has key left then Members.set key value left
  else if key = "AND" then
    match value with
    | .arr items => appendConjuncts left items
    | other => appendConjuncts left [other]
  else appendConjuncts left [.single key value]

/-- Both filters have to hold. -/
def mergeAnd (left right : Members) : Members :=
  right.foldl (fun merged (key, value) => mergeMember merged key value) left

/-- The alternatives of a filter: those of a disjunction, and else the filter itself. -/
def alternatives (members : Members) : List Json :=
  match members with
  | [("OR", .arr items)] => items
  | _ => [.obj members]

/-- The members of a filter. -/
def members : Filter → Except CompileError Members
  | .comparison field op value => do
    return nestPath field (← condition field op value)
  | .logical .and left right => do
    return mergeAnd (← members left) (← members right)
  | .logical .or left right => do
    return [("OR", .arr (alternatives (← members left) ++ alternatives (← members right)))]
  | .not child => do
    return [("NOT", .obj (← members child))]

/-- A filter as Prisma takes it. -/
def compile (filter : Filter) : Except CompileError Json := do
  return .single "where" (.obj (← members filter))

end FilterLang.Prisma
