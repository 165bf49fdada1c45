import FilterLang.Target.Basic

/-!
# TypeORM filters

A filter is an object of conditions that all have to hold, or a list of such objects of which one
has to hold.  A path of fields is a chain of nested objects, which are called relations here.
Operators stay in envelopes, because the functions that stand for them only exist on the other side.

Joining an object to a list joins it to every item.  Two lists cannot be joined in this form; they
are appended, which accepts more than both together.
-/

namespace FilterLang.TypeOrm

/-! ## Joining objects -/

/-- A condition added to another on the same field: to the list of an `and` envelope, or else in a
new one. -/
def combine (current incoming : Json) : Json :=
  match envelopeName? current, current with
  | some "and", .obj members =>
    match members.lookup "value" with
    | some (.arr items) => .obj (Members.set "value" (.arr (items ++ [incoming])) members)
    | _ => envelope "and" (.arr [current, incoming])
  | _, _ => envelope "and" (.arr [current, incoming])

mutual

/-- The value of a key that both sides have: two relations are joined member by member, unless they
are negated, and everything else is combined. -/
def mergeValue (key : String) (current : Json) : Json → Json
  | .obj incoming =>
    match current with
    | .obj members =>
      if key ≠ notMarker ∧ isRelation current ∧ isRelation (.obj incoming) then
        .obj (mergeObjects members incoming)
      else combine current (.obj incoming)
    | _ => combine current (.obj incoming)
  | incoming => combine current incoming
termination_by structural incoming => incoming

/-- Two objects joined. -/
def mergeObjects (left : Members) : List (String × Json) → Members
  | [] => left
  | (key, value) :: rest =>
    match left.lookup key with
    | none => mergeObjects (left ++ [(key, value)]) rest
    | some current => mergeObjects (Members.set key (mergeValue key current value) left) rest
termination_by structural right => right

end

/-! ## Filters -/

/-- A filter: one object, or alternatives. -/
inductive Where where
  | all (members : Members)
  | any (branches : List Members)

namespace Where

/-- The alternatives of a filter. -/
def branches : Where → List Members
  | all members => [members]
  | any branches => branches

/-- Both filters have to hold, as far as that can be said. -/
def and : Where → Where → Where
  | any left, any right => any (left ++ right)
  | any branches, all members => any (branches.map (mergeObjects · members))
  | all members, any branches => any (branches.map (mergeObjects · members))
  | all left, all right => all (mergeObjects left right)

/-- One of the filters has to hold. -/
def or (left right : Where) : Where := any (left.branches ++ right.branches)

/-- The filter as a document. -/
def toJson : Where → Json
  | all members => .obj members
  | any branches => .arr (branches.map .obj)

/-- The filter must not hold. -/
def not (child : Where) : Where := all [(notMarker, child.toJson)]

/-- The filter in this form. -/
def ofFilter : Filter → Except CompileError Where
  | .comparison field op value => do
    checkShape field op value
    return all (nestPath field (enveloped op value))
  | .logical .and left right => do
    return and (← ofFilter left) (← ofFilter right)
  | .logical .or left right => do
    return or (← ofFilter left) (← ofFilter right)
  | .not child => do
    return not (← ofFilter child)

end Where

/-- A filter as TypeORM takes it, with its operators in envelopes. -/
def compile (filter : Filter) : Except CompileError Json := do
  return (← Where.ofFilter filter).toJson

end FilterLang.TypeOrm
