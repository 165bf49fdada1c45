import FilterLang.Envelope.TypeOrm
import FilterLang.Proofs.Filter.Meaning

/-!
# What a TypeORM filter matches

The functions of TypeORM are not part of this library.  Here they are replaced by functions that record
their call: the function `x` gives the object `{"@x": arguments}`.  A filter whose envelopes were opened
with these functions can be read.  A list matches if one of its branches does, an object if all of its
members do, a nested object leads to the fields of a relation, and a recorded call does what its name
says.

A record is what it answers to a test of the value at the end of a path.  Nothing is assumed about how the
answers to different tests hang together, except that inequality and absence from a list are the opposites
of equality and membership, and that a range is both of its bounds.
-/

namespace FilterLang.TypeOrm

/-! ## Records -/

/-- What can be asked of the value at the end of a path. -/
inductive Test where
  | equal (value : Json)
  | more (value : Json)
  | atLeast (value : Json)
  | less (value : Json)
  | atMost (value : Json)
  | among (values : Json)
  | like (pattern : String)

/-- A record, given by its answers to the tests of the values at the ends of paths. -/
abbrev Record := List String → Test → Bool

/-- An operator with its value as a document.  A text is searched for as the pattern that the opened
filter has for it, and `null` leaves an end of a range open. -/
def operatorHolds (answer : Test → Bool) (op : Operator) (value : Json) : Bool :=
  match op with
  | .eq => answer (.equal value)
  | .ne => !answer (.equal value)
  | .gt => answer (.more value)
  | .gte => answer (.atLeast value)
  | .lt => answer (.less value)
  | .lte => answer (.atMost value)
  | .isIn => answer (.among value)
  | .notIn => !answer (.among value)
  | .contains => answer (.like ("%" ++ searchedText value ++ "%"))
  | .startsWith => answer (.like (searchedText value ++ "%"))
  | .endsWith => answer (.like ("%" ++ searchedText value))
  | .between =>
    match value with
    | .arr [lower, upper] =>
      (lower.bound?.all fun bound => answer (.atLeast bound)) &&
        upper.bound?.all fun bound => answer (.atMost bound)
    | _ => false

/-- A comparison of a value that answers tests; a range is the bounds that it sets. -/
def comparisonHolds (answer : Test → Bool) : Operator → Value → Bool
  | .between, .range lower upper =>
    (lower.bound?.all fun bound => answer (.atLeast bound.toJson)) &&
      upper.bound?.all fun bound => answer (.atMost bound.toJson)
  | op, value => operatorHolds answer op value.toJson

/-- The record satisfies the filter. -/
def Record.satisfies (record : Record) (t : Filter) : Bool :=
  t.eval .twoValued fun field op value => comparisonHolds (record (fieldPath field)) op value

/-! ## Recorded calls -/

/-- The function for a name that records its call. -/
def recorder (name : String) (arguments : List Json) : Json := .single ("@" ++ name) (.arr arguments)

/-- The table of all functions, each of which records its call. -/
def FunctionTable.recording : FunctionTable := ⟨names.map fun name => (name, recorder name)⟩

/-- The document is a recorded call. -/
def isCall : Json → Bool
  | .obj [(name, .arr _)] => name.toList.head? = some '@'
  | _ => false

/-- A recorded call other than a negation or a conjunction. -/
def testHolds (answer : Test → Bool) (name : String) (arguments : List Json) : Bool :=
  match name, arguments with
  | "@equal", [value] => answer (.equal value)
  | "@isNull", [] => answer (.equal .null)
  | "@moreThan", [value] => answer (.more value)
  | "@moreThanOrEqual", [value] => answer (.atLeast value)
  | "@lessThan", [value] => answer (.less value)
  | "@lessThanOrEqual", [value] => answer (.atMost value)
  | "@in", [values] => answer (.among values)
  | "@like", [.str pattern] => answer (.like pattern)
  | "@between", [lower, upper] => answer (.atLeast lower) && answer (.atMost upper)
  | _, _ => false

mutual

/-- An opened condition on a value: a recorded call, or else the value that it has to equal. -/
def conditionHolds (answer : Test → Bool) : Json → Bool
  | .obj [("@not", .arr [condition])] => !conditionHolds answer condition
  | .obj [("@and", .arr conditions)] => conditionsHold answer conditions
  | .obj [(name, .arr arguments)] => testHolds answer name arguments
  | .obj _ => false
  | value => answer (.equal value)
termination_by structural condition => condition

/-- Several opened conditions on a value. -/
def conditionsHold (answer : Test → Bool) : List Json → Bool
  | [] => true
  | condition :: rest => conditionHolds answer condition && conditionsHold answer rest
termination_by structural conditions => conditions

end

/-! ## Opened filters -/

section

variable (record : Record)

mutual

/-- What an opened filter says at the end of a path: a condition, or the members of a relation. -/
def entryHolds (path : List String) : Json → Bool
  | .obj members =>
    if isCall (.obj members) then conditionHolds (record path) (.obj members)
    else membersHold path members
  | value => conditionHolds (record path) value
termination_by structural value => value

/-- All members of an object at the end of a path. -/
def membersHold (path : List String) : List (String × Json) → Bool
  | [] => true
  | (key, value) :: rest => entryHolds (path ++ [key]) value && membersHold path rest
termination_by structural members => members

end

/-- An alternative of an opened filter. -/
def branchHolds : Json → Bool
  | .obj members => membersHold record [] members
  | _ => false

/-- The record matches the opened filter. -/
def Record.matchesFilter : Json → Bool
  | .arr branches => branches.any (branchHolds record)
  | filter => branchHolds record filter

end

end FilterLang.TypeOrm

/-! ## Disjunctions of a filter -/

namespace FilterLang.Filter

/-- The filter has a disjunction. -/
def hasOr : Filter → Bool
  | comparison _ _ _ => false
  | logical .or _ _ => true
  | logical .and left right => left.hasOr || right.hasOr
  | not child => child.hasOr

/-- The filter has a disjunction that is not below a negation. -/
def alternates : Filter → Bool
  | comparison _ _ _ | not _ => false
  | logical .or _ _ => true
  | logical .and left right => left.alternates || right.alternates

/-- The filter has a disjunction below a negation. -/
def negatesOr : Filter → Bool
  | comparison _ _ _ => false
  | logical _ left right => left.negatesOr || right.negatesOr
  | not child => child.hasOr

/-- The filter has a conjunction both of whose sides have a disjunction that is not below a
negation. -/
def widens : Filter → Bool
  | comparison _ _ _ | not _ => false
  | logical .or left right => left.widens || right.widens
  | logical .and left right =>
    (left.alternates && right.alternates) || left.widens || right.widens

lemma alternates_or_negatesOr {t : Filter} (h : t.hasOr = true) :
    t.alternates = true ∨ t.negatesOr = true := by
  induction t with
  | comparison field op value => exact absurd h (by simp [hasOr])
  | logical kind left right ihleft ihright =>
    cases kind with
    | or => exact .inl rfl
    | and =>
      simp only [hasOr, Bool.or_eq_true] at h
      simp only [alternates, negatesOr, Bool.or_eq_true]
      rcases h with h | h
      · rcases ihleft h with h | h
        · exact .inl (.inl h)
        · exact .inr (.inl h)
      · rcases ihright h with h | h
        · exact .inl (.inr h)
        · exact .inr (.inr h)
  | not child ih => exact .inr h

lemma widens_of_not_alternates {t : Filter} (h : t.alternates = false) : t.widens = false := by
  induction t with
  | comparison field op value => rfl
  | logical kind left right ihleft ihright =>
    cases kind with
    | or => exact absurd h (by simp [alternates])
    | and =>
      simp only [alternates, Bool.or_eq_false_iff] at h
      simp [widens, h.1, ihleft h.1, ihright h.2]
  | not child ih => rfl

end FilterLang.Filter
