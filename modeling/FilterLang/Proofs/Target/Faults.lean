import FilterLang.Policy.Violation
import FilterLang.Proofs.Filter.Inverse
import FilterLang.Proofs.Json.Values
import FilterLang.Proofs.Outcome
import FilterLang.Target.Mongo
import FilterLang.Target.Prisma
import FilterLang.Target.Sequelize
import FilterLang.Target.Sql
import FilterLang.Target.TypeOrm

/-!
# The comparison at fault

A filter is compiled from left to right, and compiling stops at the first comparison that the target
cannot express.  This file says of each target which comparisons these are and what error they cause
(`Target.fault?`), so that the error of a filter can be read off its comparisons.

The targets go through a filter in different ways, but all of them visit the comparisons in order and
fail for no other reason.  So does the check of a whitelist, and what it lets through has few faults left:
none at all, but for a list without items, if the whitelist has a rule for every field.
-/

namespace FilterLang

/-! ## Targets and their faults -/

/-- What a filter can be compiled to. -/
inductive Target where
  | prisma
  | typeOrm
  | sequelize
  | mongo
  | sql
  | drizzle
deriving DecidableEq

/-- The value is a list. -/
def Value.isList : Value → Bool
  | .list _ => true
  | _ => false

namespace Target

/-- The error with which compiling a filter fails. -/
def error? (target : Target) (t : Filter) : Option CompileError :=
  match target with
  | prisma => failure? (Prisma.compile t)
  | typeOrm => failure? (TypeOrm.compile t)
  | sequelize => failure? (Sequelize.compile t)
  | mongo => failure? (Mongo.compile t)
  | sql => failure? (SqlQuery.compile t)
  | drizzle => failure? (SqlQuery.compileDrizzle t)

/-- The target has a pattern in the place of a text search, and none for a list. -/
def writesPatterns : Target → Bool
  | mongo | sql | drizzle => true
  | _ => false

/-- The target has no form for membership in a list without items. -/
def needsItems : Target → Bool
  | sql | drizzle => true
  | _ => false

/-- What is wrong for a target with a comparison whose value is of the right kind. -/
def lack? (target : Target) (field : String) (op : Operator) (value : Value) : Option CompileError :=
  if target.writesPatterns && op.isPattern && value.isList then
    some (.unsupportedValue field op value.kindName)
  else if target.needsItems && op.takesList && value == .list [] then some (.emptyList field op)
  else none

/-- What is wrong with a comparison for a target. -/
def fault? (target : Target) : String × Operator × Value → Option CompileError
  | (field, op, value) =>
    if op.accepts value then target.lack? field op value
    else some (.invalidNode field op value.kindName)

end Target

/-! ## From left to right -/

/-- The steps of a run over a filter fail as its comparisons do, from left to right. -/
structure LeftToRight {ε α : Type} (run : Filter → Except ε α)
    (fault? : String × Operator × Value → Option ε) : Prop where
  comparison : ∀ field op value, failure? (run (.comparison field op value)) = fault? (field, op, value)
  logical : ∀ kind left right,
    failure? (run (.logical kind left right)) = (failure? (run left)).or (failure? (run right))
  not : ∀ child, failure? (run (.not child)) = failure? (run child)

/-- The error of a run is the fault of the first comparison that has one. -/
lemma LeftToRight.failure?_eq {ε α : Type} {run : Filter → Except ε α}
    {fault? : String × Operator × Value → Option ε} (h : LeftToRight run fault?) (t : Filter) :
    failure? (run t) = t.comparisons.findSome? fault? := by
  induction t with
  | comparison field op value => simp [h.comparison, Filter.comparisons]
  | logical kind left right ihleft ihright =>
    rw [h.logical, ihleft, ihright, Filter.comparisons, List.findSome?_append]
  | not child ih => rw [h.not, ih, Filter.comparisons]

/-! ## The targets -/

/-- A comparison of the wrong kind is refused before anything else is asked of it. -/
lemma Target.fault?_eq (target : Target) (field : String) (op : Operator) (value : Value) :
    target.fault? (field, op, value) =
      (failure? (checkShape field op value)).or (target.lack? field op value) := by
  simp only [checkShape, fault?]
  cases op.accepts value <;> rfl

/-- Most targets ask for no more than a value of the right kind. -/
lemma Target.fault?_eq_of_plain {target : Target} (hpatterns : target.writesPatterns = false)
    (hitems : target.needsItems = false) (field : String) (op : Operator) (value : Value) :
    target.fault? (field, op, value) = failure? (checkShape field op value) := by
  simp [fault?_eq, lack?, hpatterns, hitems]

lemma prisma_leftToRight : LeftToRight Prisma.compile (Target.fault? .prisma) := by
  have hcompile : ∀ t, failure? (Prisma.compile t) = failure? (Prisma.members t) :=
    fun t => failure?_bind_ok fun _ => rfl
  refine ⟨fun field op value => ?_, fun kind left right => ?_, fun child => ?_⟩
  · rw [hcompile, Target.fault?_eq_of_plain rfl rfl, Prisma.members, failure?_bind_ok fun _ => rfl]
    refine failure?_bind_ok fun _ => ?_
    split <;> rfl
  · rw [hcompile, hcompile, hcompile]
    cases kind with
    | and => exact failure?_both _ _ Prisma.mergeAnd
    | or => exact failure?_both _ _ fun l r =>
        [("OR", Json.arr (Prisma.alternatives l ++ Prisma.alternatives r))]
  · rw [hcompile, hcompile, Prisma.members]
    exact failure?_bind_ok fun _ => rfl

lemma typeOrm_leftToRight : LeftToRight TypeOrm.compile (Target.fault? .typeOrm) := by
  have hcompile : ∀ t, failure? (TypeOrm.compile t) = failure? (TypeOrm.Where.ofFilter t) :=
    fun t => failure?_bind_ok fun _ => rfl
  refine ⟨fun field op value => ?_, fun kind left right => ?_, fun child => ?_⟩
  · rw [hcompile, Target.fault?_eq_of_plain rfl rfl, TypeOrm.Where.ofFilter]
    exact failure?_bind_ok fun _ => rfl
  · rw [hcompile, hcompile, hcompile]
    cases kind with
    | and => exact failure?_both _ _ TypeOrm.Where.and
    | or => exact failure?_both _ _ TypeOrm.Where.or
  · rw [hcompile, hcompile, TypeOrm.Where.ofFilter]
    exact failure?_bind_ok fun _ => rfl

lemma sequelize_leftToRight : LeftToRight Sequelize.compile (Target.fault? .sequelize) := by
  refine ⟨fun field op value => ?_, fun kind left right => ?_, fun child => ?_⟩
  · rw [Target.fault?_eq_of_plain rfl rfl, Sequelize.compile]
    exact failure?_bind_ok fun _ => rfl
  · exact failure?_both _ _ fun l r =>
      Sequelize.group kind (Sequelize.conditions kind l ++ Sequelize.conditions kind r)
  · exact failure?_bind_ok fun _ => rfl

/-- The text of a pattern can be had from everything but a list. -/
lemma failure?_patternText {target : Target} (hpatterns : target.writesPatterns = true) (field : String)
    {op : Operator} (h : op.isPattern = true) {value : Value} (accepts : op.accepts value = true) :
    failure? (patternText field op value) = target.lack? field op value := by
  have htakes : op.takesList = false := by cases op <;> first | rfl | cases h
  cases value with
  | scalar | list => simp [patternText, Target.lack?, hpatterns, h, htakes, Value.isList]
  | range lower upper =>
    obtain rfl : op = .between := by simpa [Operator.accepts_range] using accepts
    cases h

lemma mongo_comparison (field : String) (op : Operator) (value : Value) :
    failure? (Mongo.comparison field op value) = Target.fault? .mongo (field, op, value) := by
  rw [Target.fault?_eq]
  refine failure?_bind fun _ hshape => ?_
  have accepts := accepts_of_checkShape hshape
  cases op with
  | contains | startsWith | endsWith =>
    exact (failure?_bind_ok fun _ => rfl).trans (failure?_patternText rfl field rfl accepts)
  | between =>
    cases value with
    | scalar | list => cases accepts
    | range lower upper =>
      dsimp only
      split <;> rfl
  | _ => rfl

lemma mongo_leftToRight : LeftToRight Mongo.compile (Target.fault? .mongo) := by
  refine ⟨mongo_comparison, fun kind left right => ?_, fun child => ?_⟩
  · exact failure?_both _ _ fun l r => Json.single (Mongo.connectiveKey kind)
      (.arr (Mongo.operands (Mongo.connectiveKey kind) l ++ Mongo.operands (Mongo.connectiveKey kind) r))
  · exact failure?_bind_ok fun _ => rfl

lemma sql_comparison (field : String) (op : Operator) (value : Value) :
    failure? (SqlCondition.ofComparison field op value) = Target.fault? .sql (field, op, value) := by
  rw [Target.fault?_eq]
  refine failure?_bind fun _ hshape => ?_
  have accepts := accepts_of_checkShape hshape
  cases op with
  | contains | startsWith | endsWith =>
    exact (failure?_bind_ok fun _ => rfl).trans (failure?_patternText rfl field rfl accepts)
  | eq | ne =>
    cases value with
    | scalar literal => cases literal <;> rfl
    | list => rfl
    | range => cases accepts
  | gt | gte | lt | lte => rfl
  | isIn | notIn =>
    cases value with
    | scalar | range => cases accepts
    | list items => cases items <;> rfl
  | between =>
    cases value with
    | scalar | list => cases accepts
    | range lower upper => rfl

lemma sql_leftToRight : LeftToRight SqlQuery.compile (Target.fault? .sql) := by
  have hcompile : ∀ t, failure? (SqlQuery.compile t) = failure? (SqlCondition.ofFilter t) :=
    fun t => failure?_bind_ok fun _ => rfl
  refine ⟨fun field op value => ?_, fun kind left right => ?_, fun child => ?_⟩
  · rw [hcompile]
    exact sql_comparison field op value
  · rw [hcompile, hcompile, hcompile]
    exact failure?_both _ _ fun l r =>
      SqlCondition.group kind (SqlCondition.operands kind l ++ SqlCondition.operands kind r)
  · rw [hcompile, hcompile, SqlCondition.ofFilter]
    exact failure?_bind_ok fun _ => rfl

/-- The error of a compiled filter is the fault of its first comparison that has one. -/
lemma Target.error?_eq (target : Target) (t : Filter) :
    target.error? t = t.comparisons.findSome? target.fault? := by
  cases target with
  | prisma => exact prisma_leftToRight.failure?_eq t
  | typeOrm => exact typeOrm_leftToRight.failure?_eq t
  | sequelize => exact sequelize_leftToRight.failure?_eq t
  | mongo => exact mongo_leftToRight.failure?_eq t
  | sql | drizzle => exact sql_leftToRight.failure?_eq t

/-! ## What a whitelist lets through -/

namespace Whitelist

variable {whitelist : Whitelist} {field : String} {op : Operator} {value : Value}

/-- The four steps of checking a comparison, one inside the other. -/
lemma checkComparison_eq (whitelist : Whitelist) (field : String) (op : Operator) (value : Value) :
    whitelist.checkComparison field op value =
      if ∀ allowed, whitelist.fields = some allowed → field ∈ allowed then
        if ∀ allowed, whitelist.operators = some allowed → op ∈ allowed then
          if op.accepts value = true then
            (whitelist.rule? field).elim (.ok ()) fun rule => rule.check field op value
          else .error (.invalidShape field op op.expectedShape)
        else .error (.operatorNotAllowed field op (whitelist.operators.getD []))
      else .error (.fieldNotAllowed field (whitelist.fields.getD [])) := by
  unfold checkComparison
  -- every part of a whitelist may be missing, and then its step is passed over
  cases whitelist.fields <;> cases whitelist.operators <;> cases whitelist.rule? field <;>
    simp only [unless_eq] <;> simp [pure, Except.pure]

/-- None of the four steps may fail. -/
lemma checkComparison_eq_ok_iff :
    whitelist.checkComparison field op value = .ok () ↔
      (∀ allowed ∈ whitelist.fields, field ∈ allowed) ∧
      (∀ allowed ∈ whitelist.operators, op ∈ allowed) ∧ op.accepts value = true ∧
      ∀ rule ∈ whitelist.rule? field, rule.check field op value = .ok () := by
  rw [checkComparison_eq, ite_error_eq_ok_iff, ite_error_eq_ok_iff, ite_error_eq_ok_iff]
  cases whitelist.rule? field <;> simp

lemma leftToRight (whitelist : Whitelist) :
    LeftToRight whitelist.check fun c => failure? (whitelist.checkComparison c.1 c.2.1 c.2.2) :=
  ⟨fun _ _ _ => rfl, fun _ _ _ => failure?_bind fun _ _ => rfl, fun _ => rfl⟩

/-- A filter is let through if and only if all its comparisons are. -/
lemma check_eq_ok_iff {t : Filter} :
    whitelist.check t = .ok () ↔
      ∀ c ∈ t.comparisons, whitelist.checkComparison c.1 c.2.1 c.2.2 = .ok () := by
  simp only [← failure?_eq_none_iff, whitelist.leftToRight.failure?_eq, List.findSome?_eq_none_iff]

/-- The violation of a filter is that of a comparison in front of which all are let through. -/
lemma check_eq_error_iff {t : Filter} {violation : Violation} :
    whitelist.check t = .error violation ↔
      ∃ front c back, t.comparisons = front ++ c :: back ∧
        whitelist.checkComparison c.1 c.2.1 c.2.2 = .error violation ∧
        ∀ d ∈ front, whitelist.checkComparison d.1 d.2.1 d.2.2 = .ok () := by
  simp only [← failure?_eq_some_iff, ← failure?_eq_none_iff, whitelist.leftToRight.failure?_eq,
    List.findSome?_eq_some_iff]

/-- What is let through has values of the right kinds. -/
lemma accepts_of_check {t : Filter} (h : whitelist.check t = .ok ()) :
    ∀ c ∈ t.comparisons, c.2.1.accepts c.2.2 = true :=
  fun c hc => (checkComparison_eq_ok_iff.1 (check_eq_ok_iff.1 h c hc)).2.2.1

end Whitelist

/-- A rule for a field refuses a list in the place of a searched text. -/
lemma FieldRule.isPattern_of_check {rule : FieldRule} {field : String} {op : Operator}
    {items : List Scalar} (h : rule.check field op (.list items) = .ok ()) : op.isPattern = false := by
  unfold FieldRule.check at h
  split at h
  · cases h
  · cases op <;> first | rfl | cases h

/-! ## Errors -/

namespace Target

variable {target : Target} {c : String × Operator × Value} {t : Filter} {error : CompileError}

lemma exists_fault (h : target.error? t = some error) :
    ∃ c ∈ t.comparisons, target.fault? c = some error := by
  rw [error?_eq] at h
  exact List.exists_of_findSome?_eq_some h

/-- A value of the right kind makes no node invalid. -/
lemma fault?_ne_invalidNode (accepts : c.2.1.accepts c.2.2 = true) (field : String) (op : Operator)
    (found : String) : target.fault? c ≠ some (.invalidNode field op found) := by
  simp only [fault?, accepts, if_true, lack?]
  split_ifs <;> simp

/-- Under a rule for its field, a comparison lacks nothing but items. -/
lemma fault?_of_rule {whitelist : Whitelist} {rule : FieldRule}
    (ok : whitelist.checkComparison c.1 c.2.1 c.2.2 = .ok ()) (hrule : whitelist.rule? c.1 = some rule)
    (h : target.fault? c = some error) :
    target.needsItems = true ∧ error = .emptyList c.1 c.2.1 := by
  obtain ⟨field, op, value⟩ := c
  obtain ⟨-, -, accepts, hcheck⟩ := Whitelist.checkComparison_eq_ok_iff.1 ok
  have hpattern : (op.isPattern && value.isList) = false := by
    cases value with
    | list items => simp [FieldRule.isPattern_of_check (hcheck rule hrule)]
    | scalar | range => simp [Value.isList]
  simp only at accepts
  simp only [fault?, accepts, if_true, lack?, Bool.and_assoc, hpattern, Bool.and_false,
    Bool.false_eq_true, if_false, Option.ite_none_right_eq_some, Bool.and_eq_true,
    Option.some.injEq] at h
  exact ⟨h.1.1, h.2.symm⟩

/-- **Compiling fails at the leftmost comparison at fault.**  The error of a filter is, for every target,
the fault of a comparison in front of which none is at fault; so a filter without faults is compiled.  A
filter that was read off a query, or that a whitelist lets through, has no invalid node.  If the whitelist
has a rule for each of its fields, the only error left is that of a list without items in SQL. -/
theorem fails_at_leftmost_fault (t : Filter) :
    (∀ (target : Target) (error : CompileError), target.error? t = some error ↔
      ∃ front c back, t.comparisons = front ++ c :: back ∧ target.fault? c = some error ∧
        ∀ d ∈ front, target.fault? d = none) ∧
    ((∃ maxNesting text, Filter.parseWithin maxNesting text = .ok t) ∨
        (∃ whitelist : Whitelist, whitelist.check t = .ok ()) →
      ∀ (target : Target) field op found, target.error? t ≠ some (.invalidNode field op found)) ∧
    ∀ whitelist : Whitelist, whitelist.check t = .ok () →
      (∀ c ∈ t.comparisons, (whitelist.rule? c.1).isSome = true) →
      ∀ (target : Target) error, target.error? t = some error →
        target.needsItems = true ∧ ∃ field op, error = .emptyList field op := by
  refine ⟨fun target error => ?_, fun hsource target field op found herror => ?_,
    fun whitelist hcheck hrules target error herror => ?_⟩
  · rw [error?_eq, List.findSome?_eq_some_iff]
  · have shapes : ∀ c ∈ t.comparisons, c.2.1.accepts c.2.2 = true := by
      rcases hsource with ⟨maxNesting, text, hparse⟩ | ⟨whitelist, hcheck⟩
      · exact (Filter.writable_of_parseWithin hparse).shapes
      · exact Whitelist.accepts_of_check hcheck
    obtain ⟨c, hc, hfault⟩ := exists_fault herror
    exact fault?_ne_invalidNode (shapes c hc) field op found hfault
  · obtain ⟨c, hc, hfault⟩ := exists_fault herror
    obtain ⟨rule, hrule⟩ := Option.isSome_iff_exists.1 (hrules c hc)
    obtain ⟨hitems, rfl⟩ := fault?_of_rule (Whitelist.check_eq_ok_iff.1 hcheck c hc) hrule hfault
    exact ⟨hitems, _, _, rfl⟩

/-- Two comparisons at fault: membership in a list without items, and a search for a list. -/
def twoFaults : Filter :=
  .and (.comparison "a" .isIn (.list [])) (.not (.comparison "b" .contains (.list [.str "x"])))

/-- The whitelist with a rule for the field `a` alone. -/
def ruleForA : Whitelist := Whitelist.withRule {} "a" { fieldType := .number }

/-- SQL fails at the first of two faults and MongoDB, for which it is none, at the second.  A whitelist with
a rule for its field lets the first comparison through, and then only SQL fails. -/
theorem fails_at_leftmost_fault_twoFaults :
    (Filter.parseWithin 2 twoFaults.print = .ok twoFaults ∧
      Target.sql.error? twoFaults = some (.emptyList "a" .isIn) ∧
      Target.mongo.error? twoFaults = some (.unsupportedValue "b" .contains "list") ∧
      ∀ (target : Target) field op found,
        target.error? twoFaults ≠ some (.invalidNode field op found)) ∧
    ruleForA.check (.comparison "a" .isIn (.list [])) = .ok () ∧
    ∀ (target : Target) error, target.error? (.comparison "a" .isIn (.list [])) = some error →
      target.needsItems = true ∧ ∃ field op, error = .emptyList field op := by
  have hwritable : twoFaults.Writable := ⟨by decide +kernel, by decide⟩
  have hparse : Filter.parseWithin 2 twoFaults.print = .ok twoFaults :=
    Filter.parseWithin_print_eq_ok hwritable (by decide) (by decide)
  have hcheck : ruleForA.check (.comparison "a" .isIn (.list [])) = .ok () := rfl
  obtain ⟨leftmost, valid, -⟩ := fails_at_leftmost_fault twoFaults
  refine ⟨⟨hparse, (leftmost .sql _).2 ?_, (leftmost .mongo _).2 ?_, valid (.inl ⟨2, _, hparse⟩)⟩, hcheck,
    (fails_at_leftmost_fault _).2.2 ruleForA hcheck (by decide)⟩
  · exact ⟨[], ("a", .isIn, .list []), _, rfl, rfl, by simp⟩
  · exact ⟨[("a", .isIn, .list [])], ("b", .contains, .list [.str "x"]), [], rfl, rfl, by simp; rfl⟩

end Target

end FilterLang
