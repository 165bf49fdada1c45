import FilterLang.Proofs.Policy.Formats
import FilterLang.Proofs.Target.Faults

/-!
# What a whitelist requires

`Whitelist.Accepts` says which comparisons a whitelist accepts, and `Whitelist.requirements` puts the same
demands in a row, each with the violation that stands for it.  Checking a filter goes through the
comparisons from left to right, and through the requirements of each in their order, up to the first that
does not hold (`Whitelist.check_first_broken`).

A check and a row of requirements belong together if the check has a result exactly when all of them hold,
and otherwise the violation of the first that does not (`Enforced`).  This is kept when checks are made one
after the other, so it is shown of the single checks only.
-/

namespace FilterLang

/-- The operator takes neither a list nor a range, and does not look for a text. -/
def Operator.isPlain (op : Operator) : Bool := !op.takesList && !op.isPattern && op != .between

lemma Operator.not_isPattern_of_takesList {op : Operator} (h : op.takesList = true) :
    op.isPattern = false := by
  cases op <;> first | rfl | cases h

/-! ## What is accepted -/

namespace FieldRule

variable (rule : FieldRule)

/-- A rule takes a literal for a value of a type.  Only `null` depends on the rule and not on the type. -/
inductive Suits : FieldType → Scalar → Prop
  | null {fieldType : FieldType} (allowed : rule.allowNull = true) : Suits fieldType .null
  | string (text : String) : Suits .string (.str text)
  | whole (n : Int64) : Suits .number (.int n)
  | fraction {x : Binary64} (finite : x.isFinite = true) : Suits .number (.float x)
  | boolean (value : Bool) : Suits .boolean (.bool value)
  | date {text : String} (dateText : Calendar.isDateText text = true) : Suits .date (.str text)
  | datetime {text : String} (dateText : Calendar.isDateText text = true) : Suits .datetime (.str text)
  | uuid {text : String} (uuidText : isUuid text = true) : Suits .uuid (.str text)
  | json {literal : Scalar} (notNull : literal ≠ .null) : Suits .json literal
  | enum {literal candidate : Scalar} (notNull : literal ≠ .null)
      (listed : candidate ∈ rule.enumValues.getD []) (same : candidate.sameValue literal = true) :
      Suits .enum literal

/-- A rule takes a value behind an operator. -/
inductive Fits : Operator → Value → Prop
  | members {op : Operator} {items : List Scalar} (takesList : op.takesList = true)
      (suit : ∀ item ∈ items, rule.Suits rule.fieldType item) : Fits op (.list items)
  | bounds {lower upper : Scalar}
      (suit : ∀ bound ∈ [lower, upper], bound ≠ .null → rule.Suits rule.fieldType bound) :
      Fits .between (.range lower upper)
  | text {op : Operator} {text : String} (isPattern : op.isPattern = true)
      (suits : rule.Suits rule.fieldType (.str text)) : Fits op (.scalar (.str text))
  | single {op : Operator} {literal : Scalar} (isPlain : op.isPlain = true)
      (suits : rule.Suits rule.fieldType literal) : Fits op (.scalar literal)
  | array {op : Operator} {items : List Scalar} (isPlain : op.isPlain = true)
      (accepted : rule.acceptsArrays = true)
      (suit : ∀ item ∈ items, rule.Suits (rule.elementType.getD rule.fieldType) item) :
      Fits op (.list items)

end FieldRule

/-- A whitelist accepts a comparison: each of its parts does that is there. -/
structure Whitelist.Accepts (whitelist : Whitelist) (field : String) (op : Operator) (value : Value) :
    Prop where
  fields : ∀ allowed, whitelist.fields = some allowed → field ∈ allowed
  operators : ∀ allowed, whitelist.operators = some allowed → op ∈ allowed
  shape : op.accepts value = true
  predicate : ∀ rule, whitelist.rule? field = some rule →
    ∀ predicate, rule.predicate = some predicate → predicate value = true
  fits : ∀ rule, whitelist.rule? field = some rule → rule.Fits op value

/-! ## Requirements in order -/

/-- Something that has to hold, and the violation if it does not. -/
structure Requirement where
  Holds : Prop
  violation : Violation

/-- The first requirement of a row that does not hold has this violation. -/
inductive FirstBroken : List Requirement → Violation → Prop
  | here {r : Requirement} {rest : List Requirement} (broken : ¬ r.Holds) :
      FirstBroken (r :: rest) r.violation
  | later {r : Requirement} {rest : List Requirement} {violation : Violation} (holds : r.Holds)
      (first : FirstBroken rest violation) : FirstBroken (r :: rest) violation

namespace FieldRule

variable (rule : FieldRule) (field : String) (op : Operator)

/-- The literals of a value from left to right, with the types that a rule asks of them.  An open end of a
range is none. -/
def literals : Value → List (FieldType × Scalar)
  | .scalar literal => [(rule.fieldType, literal)]
  | .list items =>
    items.map fun item =>
      (if op.takesList then rule.fieldType else rule.elementType.getD rule.fieldType, item)
  | .range lower upper => ([lower, upper].filter (· ≠ .null)).map fun bound => (rule.fieldType, bound)

/-- The violation for a literal that is not of a type. -/
def objection : FieldType → Scalar → Violation
  | _, .null => .nullNotAllowed field op
  | .enum, literal =>
    .enumMismatch field op ((rule.enumValues.getD []).map Scalar.describe) literal.describe
  | fieldType, literal => .typeMismatch field op fieldType literal.describe

/-- A literal has to be of a type. -/
def literalRequirement (literal : FieldType × Scalar) : Requirement :=
  ⟨rule.Suits literal.1 literal.2, rule.objection field op literal.1 literal.2⟩

/-- A value behind an operator that looks for a text has to be one. -/
def textRequirement (value : Value) : Requirement :=
  ⟨op.isPattern = true → ∃ text, value = .scalar (.str text), .stringRequired field op⟩

/-- A list behind an operator that takes none has to be accepted by the rule. -/
def arrayRequirement (value : Value) : Requirement :=
  ⟨op.isPlain = true → value.isList = true → rule.acceptsArrays = true, .invalidShape field op .single⟩

/-- What a rule requires of a value of the right kind: the caller's own check, the kind of value where the
rule has a say in it, and then the literals one by one. -/
def requirements (value : Value) : List Requirement :=
  ⟨∀ predicate, rule.predicate = some predicate → predicate value = true, .rejected field op⟩ ::
    textRequirement field op value :: rule.arrayRequirement field op value ::
    (rule.literals op value).map (rule.literalRequirement field op)

end FieldRule

/-- What a whitelist requires of a comparison. -/
def Whitelist.requirements (whitelist : Whitelist) (field : String) (op : Operator) (value : Value) :
    List Requirement :=
  [ ⟨∀ allowed, whitelist.fields = some allowed → field ∈ allowed,
      .fieldNotAllowed field (whitelist.fields.getD [])⟩,
    ⟨∀ allowed, whitelist.operators = some allowed → op ∈ allowed,
      .operatorNotAllowed field op (whitelist.operators.getD [])⟩,
    ⟨op.accepts value = true, .invalidShape field op op.expectedShape⟩ ]
    ++ (whitelist.rule? field).elim [] fun rule => rule.requirements field op value

/-! ## Checks that enforce requirements -/

lemma FirstBroken.append_left {front : List Requirement} {violation : Violation}
    (h : FirstBroken front violation) (back : List Requirement) :
    FirstBroken (front ++ back) violation := by
  induction h with
  | here broken => exact .here broken
  | later holds _ ih => exact .later holds ih

lemma FirstBroken.append_right {front back : List Requirement} {violation : Violation}
    (holds : ∀ r ∈ front, r.Holds) (h : FirstBroken back violation) :
    FirstBroken (front ++ back) violation := by
  induction front with
  | nil => exact h
  | cons r rest ih =>
    exact .later (holds r List.mem_cons_self) (ih fun q hq => holds q (List.mem_cons_of_mem r hq))

/-- Where one requirement is broken, not all of them hold. -/
lemma FirstBroken.not_forall {requirements : List Requirement} {violation : Violation}
    (h : FirstBroken requirements violation) : ¬ ∀ r ∈ requirements, r.Holds := by
  induction h with
  | here broken => exact fun holds => broken (holds _ List.mem_cons_self)
  | later _ _ ih => exact fun holds => ih fun q hq => holds q (List.mem_cons_of_mem _ hq)

/-- There is one first requirement that is broken. -/
lemma FirstBroken.unique {requirements : List Requirement} {violation other : Violation}
    (h : FirstBroken requirements violation) (h' : FirstBroken requirements other) :
    violation = other := by
  induction h with
  | here broken =>
    cases h' with
    | here => rfl
    | later holds => exact absurd holds broken
  | later holds _ ih =>
    cases h' with
    | here broken => exact absurd holds broken
    | later _ first => exact ih first

/-- A check has a result if all requirements hold, and else the violation of the first that does not. -/
def Enforced (requirements : List Requirement) (check : Except Violation Unit) : Prop :=
  Meets (fun _ => ∀ r ∈ requirements, r.Holds) (FirstBroken requirements) check

namespace Enforced

variable {front back : List Requirement} {x y : Except Violation Unit}

lemma nil : Enforced [] (.ok ()) := by
  intro r hr
  cases hr

/-- Checks one after the other. -/
lemma bind (hx : Enforced front x) (hy : Enforced back y) :
    Enforced (front ++ back) (x >>= fun _ => y) := by
  cases x with
  | error violation => exact FirstBroken.append_left hx back
  | ok =>
    cases y with
    | error violation => exact FirstBroken.append_right hx hy
    | ok => exact fun r hr => (List.mem_append.1 hr).elim (hx r) (hy r)

/-- A requirement that holds need not be checked. -/
lemma cons_of_holds {r : Requirement} (holds : r.Holds) (hx : Enforced back x) :
    Enforced (r :: back) x := by
  cases x with
  | error violation => exact .later holds hx
  | ok => exact List.forall_mem_cons.2 ⟨holds, hx⟩

lemma cons_of_broken {r : Requirement} (broken : ¬ r.Holds) (back : List Requirement) :
    Enforced (r :: back) (.error r.violation) :=
  .here broken

/-- A requirement that is checked in front of others, which may rely on it. -/
lemma cons {r : Requirement} {p : Prop} [Decidable p] (h : p ↔ r.Holds) (hx : p → Enforced back x) :
    Enforced (r :: back) (if p then x else .error r.violation) := by
  split
  · exact cons_of_holds (h.1 ‹p›) (hx ‹p›)
  · exact cons_of_broken (mt h.2 ‹¬ p›) back

lemma eq_ok_iff (h : Enforced front x) : x = .ok () ↔ ∀ r ∈ front, r.Holds := by
  cases x with
  | error violation => exact ⟨nofun, fun holds => absurd holds (FirstBroken.not_forall h)⟩
  | ok => exact ⟨fun _ => h, fun _ => rfl⟩

lemma eq_error_iff (h : Enforced front x) {violation : Violation} :
    x = .error violation ↔ FirstBroken front violation := by
  cases x with
  | error other =>
    constructor
    · rintro ⟨⟩
      exact h
    · intro first
      rw [FirstBroken.unique h first]
  | ok => exact ⟨nofun, fun first => absurd h (FirstBroken.not_forall first)⟩

end Enforced

/-! ## Literals -/

namespace FieldRule

variable {rule : FieldRule} {field : String} {op : Operator} {value : Value}

lemma suits_null_iff {fieldType : FieldType} :
    rule.Suits fieldType .null ↔ rule.allowNull = true := by
  constructor
  · intro h
    cases h with
    | null allowed => exact allowed
    | json notNull => exact absurd rfl notNull
    | enum notNull => exact absurd rfl notNull
  · exact .null

lemma suits_iff_admits {fieldType : FieldType} {literal : Scalar} (h : literal ≠ .null) :
    rule.Suits fieldType literal ↔ fieldType.admits (rule.enumValues.getD []) literal = true := by
  constructor
  · intro hsuits
    cases hsuits with
    | null => exact absurd rfl h
    | string | whole | boolean => rfl
    | fraction holds | date holds | datetime holds | uuid holds => exact holds
    | json => cases literal <;> first | rfl | exact absurd rfl h
    | enum _ listed same => exact List.any_eq_true.2 ⟨_, listed, same⟩
  · intro hadmits
    cases fieldType with
    | json => exact .json h
    | enum =>
      obtain ⟨candidate, listed, same⟩ := List.any_eq_true.1 hadmits
      exact .enum h listed same
    | string => cases literal <;> first | exact .string _ | cases hadmits
    | boolean => cases literal <;> first | exact .boolean _ | cases hadmits
    | number => cases literal <;> first | exact .whole _ | exact .fraction hadmits | cases hadmits
    | date => cases literal <;> first | exact .date hadmits | cases hadmits
    | datetime => cases literal <;> first | exact .datetime hadmits | cases hadmits
    | uuid => cases literal <;> first | exact .uuid hadmits | cases hadmits

lemma suits_iff {fieldType : FieldType} {literal : Scalar} :
    rule.Suits fieldType literal ↔ literal = .null ∧ rule.allowNull = true ∨
      literal ≠ .null ∧ fieldType.admits (rule.enumValues.getD []) literal = true := by
  by_cases h : literal = .null
  · subst h
    simp [suits_null_iff]
  · simp [h, suits_iff_admits h]

/-- The check of a literal, with its two ways to a result put together. -/
lemma checkScalar_eq (fieldType : FieldType) (literal : Scalar) :
    checkScalar field op rule fieldType literal =
      if literal = .null ∧ rule.allowNull = true ∨
          literal ≠ .null ∧ fieldType.admits (rule.enumValues.getD []) literal = true
      then .ok () else .error (rule.objection field op fieldType literal) := by
  cases literal with
  | null => simp [checkScalar, Scalar.isNull, objection]
  | _ => cases fieldType <;> simp [checkScalar, Scalar.isNull, objection]

lemma checkScalar_enforced (fieldType : FieldType) (literal : Scalar) :
    Enforced [rule.literalRequirement field op (fieldType, literal)]
      (checkScalar field op rule fieldType literal) := by
  rw [checkScalar_eq]
  exact .cons suits_iff.symm fun _ => .nil

lemma checkScalars_enforced (fieldType : FieldType) (items : List Scalar) :
    Enforced (items.map fun item => rule.literalRequirement field op (fieldType, item))
      (checkScalars field op rule fieldType items) := by
  induction items with
  | nil => exact .nil
  | cons item rest ih => exact (checkScalar_enforced fieldType item).bind ih

/-! ## Values -/

/-- The ends of a range that are set. -/
lemma filterMap_bound? (bounds : List Scalar) :
    bounds.filterMap Scalar.bound? = bounds.filter (· ≠ .null) := by
  induction bounds with
  | nil => rfl
  | cons bound rest ih => cases bound <;> simp [Scalar.bound?, Scalar.isNull, ih]

/-- What the check of a rule asks of a value behind the caller's own check. -/
def EnforcesLiterals (rule : FieldRule) (field : String) (op : Operator) (value : Value) : Prop :=
  Enforced (textRequirement field op value :: rule.arrayRequirement field op value ::
      (rule.literals op value).map (rule.literalRequirement field op))
    (checkLiterals field op rule value)

/-- A list operator takes a list as it is; behind any other operator the list has to be accepted. -/
lemma enforcesLiterals_list (items : List Scalar) (hbetween : op ≠ .between) :
    EnforcesLiterals rule field op (.list items) := by
  have hitems : ∀ fieldType, Enforced
      ((items.map fun item => (fieldType, item)).map (rule.literalRequirement field op))
      (checkScalars field op rule fieldType items) := by
    intro fieldType
    rw [List.map_map]
    exact checkScalars_enforced fieldType items
  unfold EnforcesLiterals checkLiterals literals
  by_cases htakes : op.takesList = true
  · have hpattern := Operator.not_isPattern_of_takesList htakes
    have htext : (textRequirement field op (.list items)).Holds := by simp [textRequirement, hpattern]
    have harray : (rule.arrayRequirement field op (.list items)).Holds := by
      simp [arrayRequirement, Operator.isPlain, htakes]
    simp only [htakes, if_true]
    exact .cons_of_holds htext (.cons_of_holds harray (hitems rule.fieldType))
  simp only [htakes]
  by_cases hpattern : op.isPattern = true
  · simp only [hpattern, if_true]
    exact .cons_of_broken (by simp [textRequirement, hpattern]) _
  simp only [hpattern]
  have hplain : op.isPlain = true := by simp [Operator.isPlain, htakes, hpattern, hbetween]
  refine .cons_of_holds (by simp [textRequirement, hpattern]) (.cons ?_ fun _ => hitems _)
  simp [arrayRequirement, hplain, Value.isList]

lemma enforcesLiterals_range (lower upper : Scalar) :
    EnforcesLiterals rule field .between (.range lower upper) := by
  unfold EnforcesLiterals checkLiterals literals
  dsimp only
  rw [filterMap_bound?, List.map_map]
  refine .cons_of_holds ?_ (.cons_of_holds ?_ (checkScalars_enforced _ _))
  · simp [textRequirement, Operator.isPattern]
  · simp [arrayRequirement, Value.isList]

lemma enforcesLiterals_scalar (literal : Scalar) :
    EnforcesLiterals rule field op (.scalar literal) := by
  have htext : ¬ (op.isPattern && literal.asStr?.isNone) = true ↔
      (textRequirement field op (.scalar literal)).Holds := by
    cases literal <;> simp [textRequirement, Scalar.asStr?]
  have harray : (rule.arrayRequirement field op (.scalar literal)).Holds := by
    simp [arrayRequirement, Value.isList]
  unfold EnforcesLiterals checkLiterals literals
  dsimp only
  rw [← ite_not]
  exact .cons htext fun _ => .cons_of_holds harray (checkScalar_enforced rule.fieldType literal)

lemma enforcesLiterals (accepts : op.accepts value = true) : EnforcesLiterals rule field op value := by
  cases value with
  | scalar literal => exact enforcesLiterals_scalar literal
  | list items => exact enforcesLiterals_list items (by simpa [Operator.accepts_list] using accepts)
  | range lower upper =>
    obtain rfl : op = .between := by simpa [Operator.accepts_range] using accepts
    exact enforcesLiterals_range lower upper

lemma forall_literals_range {lower upper : Scalar} :
    (∀ literal ∈ rule.literals op (.range lower upper), rule.Suits literal.1 literal.2) ↔
      ∀ bound ∈ [lower, upper], bound ≠ .null → rule.Suits rule.fieldType bound := by
  rw [literals, List.forall_mem_map]
  simp only [List.mem_filter, decide_eq_true_eq, and_imp]

/-- The requirements put the same demands on a value as `Fits`. -/
lemma fits_iff (field : String) (accepts : op.accepts value = true) :
    rule.Fits op value ↔ (textRequirement field op value).Holds ∧
      (rule.arrayRequirement field op value).Holds ∧
      ∀ literal ∈ rule.literals op value, rule.Suits literal.1 literal.2 := by
  constructor
  · intro h
    cases h with
    | members takesList suit =>
      have hpattern := Operator.not_isPattern_of_takesList takesList
      simpa [textRequirement, arrayRequirement, literals, Operator.isPlain, takesList, hpattern] using suit
    | bounds suit =>
      refine ⟨?_, ?_, forall_literals_range.2 suit⟩
      · simp [textRequirement, Operator.isPattern]
      · simp [arrayRequirement, Value.isList]
    | text isPattern suits => simpa [textRequirement, arrayRequirement, literals, Value.isList] using suits
    | single isPlain suits =>
      have hpattern : op.isPattern = false := by simp_all [Operator.isPlain]
      simpa [textRequirement, arrayRequirement, literals, Value.isList, hpattern] using suits
    | array isPlain accepted suit =>
      have hkinds : op.isPattern = false ∧ op.takesList = false := by simp_all [Operator.isPlain]
      simpa [textRequirement, arrayRequirement, literals, accepted, hkinds] using suit
  · rintro ⟨text, array, suit⟩
    cases value with
    | scalar literal =>
      have hsuits : rule.Suits rule.fieldType literal := by simpa [literals] using suit
      by_cases hpattern : op.isPattern = true
      · obtain ⟨text, htext⟩ := text hpattern
        cases htext
        exact .text hpattern hsuits
      · rw [Operator.accepts_scalar, Bool.and_eq_true] at accepts
        exact .single (by simp [Operator.isPlain, hpattern, accepts]) hsuits
    | list items =>
      by_cases htakes : op.takesList = true
      · exact .members htakes (by simpa [literals, htakes] using suit)
      · have hpattern : ¬ op.isPattern = true := fun hpattern => by simpa using text hpattern
        have hplain : op.isPlain = true := by
          simpa [Operator.isPlain, htakes, hpattern, Operator.accepts_list] using accepts
        exact .array hplain (array hplain rfl) (by simpa [literals, htakes] using suit)
    | range lower upper =>
      obtain rfl : op = .between := by simpa [Operator.accepts_range] using accepts
      exact .bounds (forall_literals_range.1 suit)

lemma forall_requirements :
    (∀ r ∈ rule.requirements field op value, r.Holds) ↔
      (∀ predicate, rule.predicate = some predicate → predicate value = true) ∧
      (textRequirement field op value).Holds ∧ (rule.arrayRequirement field op value).Holds ∧
      ∀ literal ∈ rule.literals op value, rule.Suits literal.1 literal.2 := by
  simp only [requirements, List.forall_mem_cons, List.forall_mem_map, literalRequirement]

lemma check_enforced (accepts : op.accepts value = true) :
    Enforced (rule.requirements field op value) (rule.check field op value) := by
  unfold requirements check
  rw [← ite_not]
  refine .cons ?_ fun _ => enforcesLiterals accepts
  cases rule.predicate <;> simp

end FieldRule

/-! ## Comparisons -/

namespace Whitelist

variable {whitelist : Whitelist} {field : String} {op : Operator} {value : Value}

lemma checkComparison_enforced (whitelist : Whitelist) (field : String) (op : Operator) (value : Value) :
    Enforced (whitelist.requirements field op value) (whitelist.checkComparison field op value) := by
  rw [checkComparison_eq]
  refine .cons .rfl fun _ => .cons .rfl fun _ => .cons .rfl fun accepts => ?_
  cases whitelist.rule? field with
  | none => exact .nil
  | some rule => exact FieldRule.check_enforced accepts

lemma accepts_iff_requirements :
    whitelist.Accepts field op value ↔ ∀ r ∈ whitelist.requirements field op value, r.Holds := by
  have hall : (∀ r ∈ whitelist.requirements field op value, r.Holds) ↔
      (∀ allowed, whitelist.fields = some allowed → field ∈ allowed) ∧
      (∀ allowed, whitelist.operators = some allowed → op ∈ allowed) ∧ op.accepts value = true ∧
      ∀ rule, whitelist.rule? field = some rule → ∀ r ∈ rule.requirements field op value, r.Holds := by
    cases hrule : whitelist.rule? field <;> simp [requirements, hrule]
  rw [hall]
  constructor
  · rintro ⟨fields, operators, shape, predicate, fits⟩
    refine ⟨fields, operators, shape, fun rule hrule => ?_⟩
    exact FieldRule.forall_requirements.2
      ⟨predicate rule hrule, (FieldRule.fits_iff field shape).1 (fits rule hrule)⟩
  · rintro ⟨fields, operators, shape, hrule⟩
    have hrules := fun rule h => FieldRule.forall_requirements.1 (hrule rule h)
    exact ⟨fields, operators, shape, fun rule h => (hrules rule h).1,
      fun rule h => (FieldRule.fits_iff field shape).2 (hrules rule h).2⟩

lemma accepts_iff_check :
    whitelist.Accepts field op value ↔ whitelist.checkComparison field op value = .ok () :=
  accepts_iff_requirements.trans (whitelist.checkComparison_enforced field op value).eq_ok_iff.symm

/-- **A check reports the first broken requirement.**  A filter passes the check of a whitelist if and only
if the whitelist accepts all its comparisons.  Otherwise the violation is about the leftmost comparison that
is not accepted, and is that of the first of its requirements that does not hold. -/
theorem check_first_broken (whitelist : Whitelist) (t : Filter) :
    (whitelist.check t = .ok () ↔ ∀ c ∈ t.comparisons, whitelist.Accepts c.1 c.2.1 c.2.2) ∧
    ∀ violation, whitelist.check t = .error violation ↔
      ∃ front field op value back, t.comparisons = front ++ (field, op, value) :: back ∧
        (∀ c ∈ front, whitelist.Accepts c.1 c.2.1 c.2.2) ∧ ¬ whitelist.Accepts field op value ∧
        FirstBroken (whitelist.requirements field op value) violation := by
  simp only [accepts_iff_check]
  refine ⟨check_eq_ok_iff, fun violation => ?_⟩
  rw [check_eq_error_iff]
  constructor
  · rintro ⟨front, ⟨field, op, value⟩, back, hsplit, hviolation, hfront⟩
    have hbroken := (whitelist.checkComparison_enforced field op value).eq_error_iff.1 hviolation
    exact ⟨front, field, op, value, back, hsplit, hfront, by simp [hviolation], hbroken⟩
  · rintro ⟨front, field, op, value, back, hsplit, hfront, -, hbroken⟩
    have hviolation := (whitelist.checkComparison_enforced field op value).eq_error_iff.2 hbroken
    exact ⟨front, (field, op, value), back, hsplit, hviolation, hfront⟩

end Whitelist

/-! ## Texts of dates and identifiers -/

namespace FieldRule

variable {rule : FieldRule}

/-- Fields of identifiers take the texts that have the form of one. -/
lemma suits_uuid_iff {text : String} : rule.Suits .uuid (.str text) ↔ HasUuidForm text := by
  rw [← isUuid_iff]
  constructor
  · rintro ⟨⟩
    assumption
  · exact .uuid

section Dates

variable {fieldType : FieldType} (hdate : fieldType = .date ∨ fieldType = .datetime)
include hdate

lemma suits_date_iff {text : String} : rule.Suits fieldType (.str text) ↔ Calendar.isDateText text = true := by
  constructor
  · intro h
    rcases hdate with rfl | rfl
    · cases h
      assumption
    · cases h
      assumption
  · intro h
    rcases hdate with rfl | rfl
    · exact .date h
    · exact .datetime h

/-- Fields of dates and those of moments take the days that exist. -/
lemma suits_day_iff {y m d : List Char} (hy : Calendar.Digits 1 4 y) (hm : Calendar.Digits 1 2 m)
    (hd : Calendar.Digits 1 2 d) :
    rule.Suits fieldType (.str (String.ofList (y ++ '-' :: (m ++ '-' :: d)))) ↔
      (Date.mk (natOfDigits y) (natOfDigits m) (natOfDigits d)).isValid = true := by
  rw [suits_date_iff hdate, Calendar.isDateText_date hy hm hd]

/-- They take the moments that exist, too. -/
lemma suits_moment_iff (w : Calendar.WrittenMoment) :
    rule.Suits fieldType (.str (String.ofList w.text)) ↔ w.moment.isValid = true := by
  rw [suits_date_iff hdate, Calendar.isDateText_moment]

end Dates

end FieldRule

end FilterLang
