import FilterLang.Envelope.Basic
import FilterLang.Target.TypeOrm

/-!
# Negations field by field

A TypeORM filter can only negate the condition on one field.  A negated filter is therefore taken
apart: its negation moves onto the field that it is about and is joined to what else is said of that
field.  Two negations cancel.  A negated disjunction, or one about several fields, has no such form.
-/

namespace FilterLang.TypeOrm

/-- A filter that cannot be expressed. -/
def unsupported {α : Type} (cause : NegationCause) : Except EnvelopeError α :=
  .error (.unsupported .typeOrm cause)

/-- An error in the filter. -/
def invalid {α : Type} (cause : EnvelopeCause) : Except EnvelopeError α :=
  .error (.invalid .typeOrm cause)

/-- What is left of two negations: the filter inside them. -/
def cancel (inner : Json) : Except EnvelopeError Members :=
  match inner with
  | .arr _ => unsupported .overOr
  | .obj members =>
    if envelopeName? inner = some "and" then unsupported .overOr else .ok members
  | other => invalid (.negatedNonObject other)

mutual

/-- The opposite of a filter, field by field.  Negations that were joined stand in an `and`
envelope, and each is taken apart on its own. -/
def negate : Json → Except EnvelopeError Members
  | .obj members =>
    if envelopeName? (.obj members) = some "and" then negateListed (.obj members) members
    else
      match members with
      | [] => .ok []
      | [(key, value)] =>
        if key = notMarker then cancel value
        else if isRelation value then do return [(key, .obj (← negate value))]
        else .ok [(key, envelope "not" value)]
      | _ => unsupported .overSeveralFields
  | .arr _ => unsupported .overOr
  | other => invalid (.negatedNonObject other)
termination_by structural document => document

/-- The opposites of the filters that an envelope lists, joined. -/
def negateListed (payload : Json) : List (String × Json) → Except EnvelopeError Members
  | [] => invalid (.andWithoutList payload)
  | (key, value) :: rest =>
    if key = "value" then
      match value with
      | .arr items => negateAll [] items
      | _ => invalid (.andWithoutList payload)
    else negateListed payload rest
termination_by structural members => members

/-- The opposites of filters, joined to what has been joined before. -/
def negateAll (joined : Members) : List Json → Except EnvelopeError Members
  | [] => .ok joined
  | item :: rest => do negateAll (mergeObjects joined (← negate item)) rest
termination_by structural items => items

end

/-! ## Moving all negations of an object -/

mutual

/-- How many negations there are anywhere in a document. -/
def negations : Json → Nat
  | .arr items => negationsIn items
  | .obj members => negationsAmong members
  | _ => 0
termination_by structural document => document

/-- How many negations there are in the items of a list. -/
def negationsIn : List Json → Nat
  | [] => 0
  | item :: rest => negations item + negationsIn rest
termination_by structural items => items

/-- How many negations there are among the members of an object and inside them. -/
def negationsAmong : List (String × Json) → Nat
  | [] => 0
  | (key, value) :: rest =>
    (if key = notMarker then 1 else 0) + negations value + negationsAmong rest
termination_by structural members => members

end

/-- The negation of an object moved onto its fields, at most a number of times; taking one negation
apart may leave another in its place. -/
def lowerWithin : Nat → Members → Except EnvelopeError Members
  | 0, members => .ok members
  | rounds + 1, members =>
    match members.lookup notMarker with
    | none => .ok members
    | some payload => do
      lowerWithin rounds (mergeObjects (Members.swapErase notMarker members) (← negate payload))

/-- An object without negations among its members.  Every round takes at least one negation away, so
that as many rounds as there are negations suffice. -/
def lower (members : Members) : Except EnvelopeError Members :=
  lowerWithin (negationsAmong members) members

end FilterLang.TypeOrm
