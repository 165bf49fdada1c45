import FilterLang.Target.Basic

/-!
# Sequelize filters

A comparison is an object with the field as its key, whatever points the name has.  Operators and
connectives stay in envelopes, because the symbols that stand for them only exist on the other side.
Groups of the same connective are joined into one.
-/

namespace FilterLang.Sequelize

/-- Filters joined by a connective. -/
def group (kind : Connective) (conditions : List Json) : Json :=
  .obj [(logicalMarker, .str kind.name), ("conditions", .arr conditions)]

/-- The filters in a group of a connective. -/
def groupConditions? (kind : Connective) (filter : Json) : Option (List Json) :=
  if (filter.get? logicalMarker).bind Json.asStr? = some kind.name then
    match filter.get? "conditions" with
    | some (.arr items) => some items
    | _ => none
  else none

/-- The conditions that a filter brings to a group: those of a group of the same connective, and
else the filter itself. -/
def conditions (kind : Connective) (filter : Json) : List Json :=
  (groupConditions? kind filter).getD [filter]

/-- A filter as Sequelize takes it, with its operators and connectives in envelopes. -/
def compile : Filter → Except CompileError Json
  | .comparison field op value => do
    checkShape field op value
    return .single field (enveloped op value)
  | .logical kind left right => do
    return group kind (conditions kind (← compile left) ++ conditions kind (← compile right))
  | .not child => do
    return .obj [(logicalMarker, .str "not"), ("condition", ← compile child)]

end FilterLang.Sequelize
