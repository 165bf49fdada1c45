import FilterLang.Target.Basic

/-!
# Opening envelopes

Two of the targets receive their operators in envelopes.  Before a filter is used, every envelope is
replaced by what a table of the target gives for its operator.  This file holds what the two have in
common; the documents may come from anywhere, so every surprise is an error.
-/

namespace FilterLang

/-- The targets whose filters have envelopes. -/
inductive EnvelopeTarget where
  | typeOrm
  | sequelize
deriving DecidableEq

/-- The name of the target. -/
def EnvelopeTarget.name : EnvelopeTarget → String
  | typeOrm => "TypeORM"
  | sequelize => "Sequelize"

/-- What can be wrong with a filter that has envelopes. -/
inductive EnvelopeCause where
  | expectedObject (found : Json)
  | groupWithoutConditions (kind : String)
  | notWithoutCondition
  | unknownLogicalKind (found : Json)
  | unknownOperator (found : String)
  | notARange (found : Json)
  | andWithoutList (found : Json)
  | negatedNonObject (found : Json)

/-- The wording of the cause. -/
def EnvelopeCause.message : EnvelopeCause → String
  | expectedObject found => s!"expected an object, got {found.text}"
  | groupWithoutConditions kind => s!"'{kind}' group without conditions"
  | notWithoutCondition => "'not' without condition"
  | unknownLogicalKind found => s!"unknown logical kind {found.text}"
  | unknownOperator found => s!"unknown operator {found}"
  | notARange found => s!"between expects [lower, upper], got {found.text}"
  | andWithoutList found => s!"'and' envelope without a list: {found.text}"
  | negatedNonObject found => s!"'not' payload {found.text}"

/-- A negation that cannot be said field by field. -/
inductive NegationCause where
  | overOr
  | overSeveralFields
  | overUnbounded
deriving DecidableEq

/-- The wording of the cause. -/
def NegationCause.message : NegationCause → String
  | overOr => "NOT over an OR condition"
  | overSeveralFields => "NOT over a condition on more than one field"
  | overUnbounded => "NOT over an unbounded between"

/-- A filter whose envelopes cannot be opened. -/
inductive EnvelopeError where
  /-- The table has nothing for an operator. -/
  | missingOperator (target : EnvelopeTarget) (name : String)
  | unsupported (target : EnvelopeTarget) (cause : NegationCause)
  | invalid (target : EnvelopeTarget) (cause : EnvelopeCause)

namespace EnvelopeError

/-- The target of the filter. -/
def target : EnvelopeError → EnvelopeTarget
  | missingOperator target _ => target
  | unsupported target _ => target
  | invalid target _ => target

/-- The wording of the error. -/
def message : EnvelopeError → String
  | missingOperator target name => s!"{target.name} operator table has no entry for '{name}'"
  | unsupported target cause => s!"Unsupported {target.name} filter: {cause.message}"
  | invalid target cause => s!"Invalid {target.name} envelope: {cause.message}"

end EnvelopeError

/-- The text that a pattern operator looks for: a string as it is, and anything else as a
document. -/
def searchedText : Json → String
  | .str value => value
  | document => document.text

/-- An end of a range; `null` leaves it open. -/
def Json.bound? : Json → Option Json
  | .null => none
  | bound => some bound

/-- The two ends of a range. -/
def rangeBounds? : Json → Option (Option Json × Option Json)
  | .arr [lower, upper] => some (lower.bound?, upper.bound?)
  | _ => none

end FilterLang
