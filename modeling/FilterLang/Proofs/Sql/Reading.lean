import FilterLang.Proofs.Outcome
import FilterLang.Proofs.Sql.Unambiguous

/-!
# The SQL text means the filter

The condition that a filter becomes is the clause of the filter (`Clause.ofFilter?`) with its columns
quoted.  Its text is that of the clause with its values numbered (`text_toCondition`), its parameters are
the values of the clause (`params_toCondition`), and putting them back in the places of the numbers gives
the clause again (`fill_number`).  Joining two clauses means joining their meanings (`eval_join`), so
the clause means what the filter does in every logic.
-/

namespace FilterLang.Sql

/-! ### Clauses as conditions -/

/-- The condition that a leaf is. -/
def Leaf.toCondition : Leaf Json → SqlCondition
  | on column .isNull => .isNull column.text
  | on column .isNotNull => .isNotNull column.text
  | on column (.compare comparison value) => .compare column.text comparison value
  | on column (.oneOf first rest) => .oneOf column.text (first :: rest)
  | on column (.noneOf first rest) => .noneOf column.text (first :: rest)
  | on column (.between lower upper) => .between column.text lower upper
  | always => .always

mutual

/-- The condition that a clause is. -/
def Clause.toCondition : Clause Json → SqlCondition
  | .single leaf => leaf.toCondition
  | .group kind first second rest =>
    .group kind (first.toCondition :: second.toCondition :: Clause.toConditions rest)
  | .not child => .not child.toCondition
termination_by structural clause => clause

/-- The conditions that several clauses are. -/
def Clause.toConditions : List (Clause Json) → List SqlCondition
  | [] => []
  | clause :: rest => clause.toCondition :: Clause.toConditions rest
termination_by structural clauses => clauses

end

lemma Clause.toConditions_append (xs ys : List (Clause Json)) :
    toConditions (xs ++ ys) = toConditions xs ++ toConditions ys := by
  induction xs with
  | nil => rfl
  | cons clause xs ih =>
    rw [List.cons_append, toConditions, ih]
    rfl

/-! ### The condition of a filter -/

lemma text_ofField (field : String) :
    (Column.ofField field).text = SqlCondition.quoteField field := by
  have hname : nameText = SqlCondition.quoteName := by
    funext name
    rw [← String.toList_inj, nameText, SqlCondition.quoteName]
    simp [doubled]
  rw [Column.text, hname]
  rfl

/-- A range has a leaf, and its condition is that of the leaf. -/
lemma exists_leaf_range (field : String) (lower upper : Scalar) :
    ∃ leaf, Leaf.ofComparison? field .between (.range lower upper) = some leaf ∧
      leaf.toCondition = SqlCondition.ofRange (SqlCondition.quoteField field) lower upper := by
  rw [← text_ofField]
  cases hlower : lower.bound? <;> cases hupper : upper.bound? <;>
    simp only [Leaf.ofComparison?, SqlCondition.ofRange, hlower, hupper] <;>
    exact ⟨_, rfl, rfl⟩

/-- A comparison that has a condition has a leaf, and the condition is that of the leaf. -/
lemma exists_leaf {field : String} {op : Operator} {value : Value} {condition : SqlCondition}
    (h : SqlCondition.ofComparison field op value = .ok condition) :
    ∃ leaf, Leaf.ofComparison? field op value = some leaf ∧ leaf.toCondition = condition := by
  rw [SqlCondition.ofComparison, ← text_ofField] at h
  obtain ⟨u, hshape, h⟩ := bind_eq_ok_iff.mp h
  have haccepts : op.accepts value = true := by
    by_contra hrefused
    rw [checkShape, if_neg hrefused] at hshape
    exact absurd hshape (by simp)
  cases value with
  | scalar literal =>
    cases op with
    | eq | ne => cases literal <;> exact ⟨_, rfl, Except.ok.inj h⟩
    | isIn | notIn | between => exact absurd haccepts Bool.false_ne_true
    | _ => exact ⟨_, rfl, Except.ok.inj h⟩
  | list items =>
    cases op with
    | isIn | notIn =>
      cases items with
      | nil => exact absurd h (by simp [throw, throwThe, MonadExceptOf.throw])
      | cons first rest => exact ⟨_, rfl, Except.ok.inj h⟩
    | between => exact absurd haccepts Bool.false_ne_true
    | contains | startsWith | endsWith => exact absurd h (by simp [patternText, bind, Except.bind])
    | _ => exact ⟨_, rfl, Except.ok.inj h⟩
  | range lower upper =>
    cases op with
    | between =>
      obtain ⟨leaf, hleaf, hcondition⟩ := exists_leaf_range field lower upper
      rw [← text_ofField] at hcondition
      exact ⟨leaf, hleaf, hcondition.trans (Except.ok.inj h)⟩
    | _ => exact absurd haccepts Bool.false_ne_true

lemma Leaf.operands_toCondition (leaf : Leaf Json) (kind : Connective) :
    SqlCondition.operands kind leaf.toCondition = [leaf.toCondition] := by
  cases leaf with
  | on column predicate => cases predicate <;> rfl
  | always => rfl

namespace Clause

/-- The operands that a clause brings to a group are those of its chain. -/
lemma operands_toCondition (kind : Connective) (clause : Clause Json) :
    SqlCondition.operands kind clause.toCondition =
      toConditions ((clause.chain kind).1 :: (clause.chain kind).2) := by
  cases clause with
  | single leaf => exact leaf.operands_toCondition kind
  | group k first second rest =>
    by_cases hk : k = kind
    · simp [toCondition, toConditions, SqlCondition.operands, chain, hk]
    · simp [toCondition, toConditions, SqlCondition.operands, chain, hk]
  | not child => rfl

lemma toCondition_join (kind : Connective) (left right : Clause Json) :
    (join kind left right).toCondition =
      .group kind (SqlCondition.operands kind left.toCondition ++
        SqlCondition.operands kind right.toCondition) := by
  rw [operands_toCondition, operands_toCondition, ← toConditions_append, join]
  rcases left.chain kind with ⟨first, _ | ⟨second, rest⟩⟩
  · rfl
  · rfl

/-- A filter that has a condition has a clause, and the condition is that of the clause. -/
lemma exists_clause {t : Filter} {condition : SqlCondition}
    (h : SqlCondition.ofFilter t = .ok condition) :
    ∃ clause, ofFilter? t = some clause ∧ clause.toCondition = condition := by
  induction t generalizing condition with
  | comparison field op value =>
    obtain ⟨leaf, hleaf, rfl⟩ := exists_leaf h
    exact ⟨.single leaf, by rw [ofFilter?, hleaf]; rfl, rfl⟩
  | logical kind left right ihleft ihright =>
    rw [SqlCondition.ofFilter] at h
    obtain ⟨l, hl, h⟩ := bind_eq_ok_iff.mp h
    obtain ⟨r, hr, h⟩ := bind_eq_ok_iff.mp h
    obtain ⟨a, ha, rfl⟩ := ihleft hl
    obtain ⟨b, hb, rfl⟩ := ihright hr
    refine ⟨join kind a b, by rw [ofFilter?, ha, hb]; rfl, ?_⟩
    rw [toCondition_join]
    exact Except.ok.inj h
  | not child ih =>
    rw [SqlCondition.ofFilter] at h
    obtain ⟨c, hc, h⟩ := bind_eq_ok_iff.mp h
    obtain ⟨a, ha, rfl⟩ := ih hc
    refine ⟨.not a, by rw [ofFilter?, ha]; rfl, ?_⟩
    exact Except.ok.inj h

end Clause

/-! ### Parameters -/

lemma Leaf.params_toCondition (leaf : Leaf Json) : leaf.toCondition.params = leaf.values := by
  cases leaf with
  | on column predicate => cases predicate <;> rfl
  | always => rfl

namespace Clause

mutual

lemma params_toCondition : ∀ clause : Clause Json, clause.toCondition.params = clause.values
  | .single leaf => leaf.params_toCondition
  | .group kind first second rest => by
    simp only [toCondition, SqlCondition.params, SqlCondition.paramsList, values,
      params_toCondition first, params_toCondition second, paramsList_toConditions rest,
      List.append_assoc]
  | .not child => params_toCondition child

lemma paramsList_toConditions : ∀ clauses : List (Clause Json),
    SqlCondition.paramsList (toConditions clauses) = valuesIn clauses
  | [] => rfl
  | clause :: rest => by
    simp only [toConditions, SqlCondition.paramsList, valuesIn, params_toCondition clause,
      paramsList_toConditions rest]

end

end Clause

/-! ### Text -/

lemma numbers_succ (bound count : Nat) :
    numbers bound (count + 1) = (bound + 1) :: numbers (bound + 1) count := by
  rw [numbers, List.range_succ_eq_map, List.map_cons, List.map_map]
  refine congrArg (List.cons (bound + 1)) (List.map_congr_left fun n _ => ?_)
  simp only [Function.comp_apply]
  omega

lemma placeholder_eq (n : Nat) : SqlCondition.placeholder n = placeholderText n := rfl

lemma placeholders_eq (bound count : Nat) :
    SqlCondition.placeholders bound count =
      ", ".intercalate ((numbers bound count).map placeholderText) := by
  rw [SqlCondition.placeholders, numbers, List.map_map]
  rfl

lemma symbol_eq (comparison : SqlComparison) : comparison.symbol = symbol comparison := by
  cases comparison <;> rfl

lemma joiner_eq (kind : Connective) : SqlCondition.joiner kind = joiner kind := by
  cases kind <;> rfl

lemma Leaf.text_toCondition (bound : Nat) (leaf : Leaf Json) :
    leaf.toCondition.text bound = "(" ++ (leaf.number bound).text ++ ")" := by
  rw [← String.toList_inj]
  cases leaf with
  | on column predicate =>
    cases predicate <;>
      simp [toCondition, SqlCondition.text, number, Predicate.number, text, Predicate.text, toString,
        placeholder_eq, placeholders_eq, numbers_succ, symbol_eq]
  | always => rfl

namespace Clause

/-- The texts of the operands with the connective between them. -/
lemma intercalate_joiner (kind : Connective) (clause : Clause Nat) (clauses : List (Clause Nat)) :
    (joiner kind).intercalate (clause.text :: clauses.map text) =
      clause.text ++ tailText kind clauses := by
  induction clauses generalizing clause with
  | nil => simp [tailText, String.intercalate_singleton]
  | cons next clauses ih =>
    rw [List.map_cons, String.intercalate_cons_cons, ih next, tailText, String.append_assoc,
      String.append_assoc]

mutual

lemma text_toCondition (bound : Nat) : ∀ clause : Clause Json,
    clause.toCondition.text bound = (clause.number bound).text
  | .single leaf => leaf.text_toCondition bound
  | .group kind first second rest => by
    have hfirst := text_toCondition bound first
    have hsecond := text_toCondition (bound + first.values.length) second
    have hrest := texts_toConditions (bound + first.values.length + second.values.length) rest
    simp only [toCondition, SqlCondition.text, SqlCondition.texts, params_toCondition, joiner_eq,
      hfirst, hsecond, hrest, number, text, List.length_append]
    rw [← List.map_cons, intercalate_joiner, tailText]
    simp only [String.append_assoc, Nat.add_assoc]
  | .not child => by
    simp only [toCondition, SqlCondition.text, number, text, text_toCondition bound child]

lemma texts_toConditions (bound : Nat) : ∀ clauses : List (Clause Json),
    SqlCondition.texts bound (toConditions clauses) = (numberIn bound clauses).map text
  | [] => rfl
  | clause :: rest => by
    simp only [toConditions, SqlCondition.texts, numberIn, params_toCondition, List.map_cons,
      text_toCondition bound clause, texts_toConditions (bound + clause.values.length) rest]

end

end Clause

/-! ### Putting the parameters back -/

/-- The values are the answers to consecutive numbers. -/
def Answers {α : Type} (f : Nat → Option α) (bound : Nat) (values : List α) : Prop :=
  ∀ i v, values[i]? = some v → f (bound + i + 1) = some v

section

variable {α : Type} {f : Nat → Option α} {bound : Nat}

lemma answers_param? (params : List Json) : Answers (param? params) 0 params := by
  intro i v hv
  rw [Nat.zero_add]
  exact hv

lemma Answers.left {xs ys : List α} (h : Answers f bound (xs ++ ys)) : Answers f bound xs := by
  intro i v hv
  have hi : i < xs.length := (List.getElem?_eq_some_iff.mp hv).1
  exact h i v (by rw [List.getElem?_append_left hi, hv])

lemma Answers.right {xs ys : List α} (h : Answers f bound (xs ++ ys)) :
    Answers f (bound + xs.length) ys := by
  intro i v hv
  have hvalue := h (xs.length + i) v (by rw [List.getElem?_append_right (by omega)]; simpa using hv)
  rwa [← Nat.add_assoc] at hvalue

lemma Answers.head {x : α} {xs : List α} (h : Answers f bound (x :: xs)) :
    f (bound + 1) = some x := h 0 x rfl

lemma Answers.tail {x : α} {xs : List α} (h : Answers f bound (x :: xs)) :
    Answers f (bound + 1) xs := by
  have happend : Answers f bound ([x] ++ xs) := h
  exact happend.right

lemma Answers.mapM {values : List α} (h : Answers f bound values) :
    (numbers bound values.length).mapM f = some values := by
  induction values generalizing bound with
  | nil => rfl
  | cons v values ih =>
    rw [List.length_cons, numbers_succ, List.mapM_cons, h.head, ih h.tail]
    rfl

lemma Predicate.replace_number (p : Predicate α) (h : Answers f bound p.values) :
    (p.number bound).replace f = some p := by
  cases p with
  | isNull => rfl
  | isNotNull => rfl
  | compare comparison value =>
    rw [number, replace, h.head]
    rfl
  | oneOf first rest =>
    rw [number, replace, h.head, h.tail.mapM]
    rfl
  | noneOf first rest =>
    rw [number, replace, h.head, h.tail.mapM]
    rfl
  | between lower upper =>
    rw [number, replace, h.head, h.tail.head]
    rfl

lemma Leaf.replace_number (leaf : Leaf α) (h : Answers f bound leaf.values) :
    (leaf.number bound).replace f = some leaf := by
  cases leaf with
  | on column predicate =>
    rw [number, replace, predicate.replace_number h]
    rfl
  | always => rfl

namespace Clause

mutual

lemma replace_number (bound : Nat) : ∀ clause : Clause α,
    Answers f bound clause.values → (clause.number bound).replace f = some clause
  | .single leaf, h => by
    rw [number, replace, leaf.replace_number h]
    rfl
  | .group kind first second rest, h => by
    have hfirst := replace_number bound first h.left.left
    have hsecond := replace_number _ second h.left.right
    have hrest := replaceIn_numberIn _ rest h.right
    rw [number, replace, hfirst, hsecond, hrest]
    rfl
  | .not child, h => by
    rw [number, replace, replace_number bound child h]
    rfl

lemma replaceIn_numberIn (bound : Nat) : ∀ clauses : List (Clause α),
    Answers f bound (valuesIn clauses) → replaceIn f (numberIn bound clauses) = some clauses
  | [], _ => rfl
  | clause :: rest, h => by
    rw [numberIn, replaceIn, replace_number bound clause h.left, replaceIn_numberIn _ rest h.right]
    rfl

end

/-- Numbering the values of a clause and looking the numbers up again changes nothing. -/
lemma fill_number (clause : Clause Json) : (clause.number 0).fill clause.values = some clause :=
  replace_number 0 clause (answers_param? clause.values)

end Clause

end

/-! ### Meaning -/

section

universe u

variable {α : Type} {Ω : Type u} (logic : Logic Ω) (meaning : Leaf α → Ω)

namespace Clause

/-- What stands in front of the further operands can be joined last. -/
lemma evalTail_join (kind : Connective) (a b : Ω) (clauses : List (Clause α)) :
    evalTail logic meaning kind (logic.join kind a b) clauses =
      logic.join kind a (evalTail logic meaning kind b clauses) := by
  induction clauses generalizing b with
  | nil => rfl
  | cons clause rest ih => rw [evalTail, logic.join_assoc, ih, evalTail]

lemma evalTail_append (kind : Connective) (front : Ω) (xs ys : List (Clause α)) :
    evalTail logic meaning kind front (xs ++ ys) =
      evalTail logic meaning kind (evalTail logic meaning kind front xs) ys := by
  induction xs generalizing front with
  | nil => rfl
  | cons clause xs ih => rw [List.cons_append, evalTail, ih, evalTail]

/-- A clause means what its chain does. -/
lemma eval_chain (kind : Connective) (clause : Clause α) :
    evalTail logic meaning kind ((clause.chain kind).1.eval logic meaning) (clause.chain kind).2 =
      clause.eval logic meaning := by
  cases clause with
  | single leaf => rfl
  | group k first second rest =>
    by_cases hk : k = kind
    · subst hk
      rw [chain, if_pos rfl, evalTail, eval]
    · rw [chain, if_neg hk, evalTail]
  | not child => rfl

/-- Joining clauses joins their meanings. -/
lemma eval_join (kind : Connective) (left right : Clause α) :
    (join kind left right).eval logic meaning =
      logic.join kind (left.eval logic meaning) (right.eval logic meaning) := by
  rw [← eval_chain logic meaning kind left, ← eval_chain logic meaning kind right, join]
  rcases left.chain kind with ⟨first, _ | ⟨second, rest⟩⟩ <;>
    rcases right.chain kind with ⟨next, more⟩
  · rw [eval, evalTail_join, evalTail]
  · rw [eval, evalTail_append, evalTail, evalTail_join, evalTail]

end Clause

end

/-- The clause of a filter means what the filter does. -/
lemma Clause.eval_ofFilter {Ω : Type*} (logic : Logic Ω) (meaning : Leaf Json → Ω)
    (leaf : String → Operator → Value → Ω) {t : Filter} {clause : Clause Json}
    (h : ofFilter? t = some clause)
    (hleaf : ∀ field op value l, Leaf.ofComparison? field op value = some l →
      leaf field op value = meaning l) :
    clause.eval logic meaning = t.eval logic leaf := by
  induction t generalizing clause with
  | comparison field op value =>
    obtain ⟨l, hl, hclause⟩ := Option.bind_eq_some_iff.mp h
    obtain rfl := Option.some.inj hclause
    exact (hleaf field op value l hl).symm
  | logical kind left right ihleft ihright =>
    obtain ⟨a, ha, h⟩ := Option.bind_eq_some_iff.mp h
    obtain ⟨b, hb, hclause⟩ := Option.bind_eq_some_iff.mp h
    obtain rfl := Option.some.inj hclause
    rw [eval_join, ihleft ha, ihright hb, Filter.eval]
  | not child ih =>
    obtain ⟨a, ha, hclause⟩ := Option.bind_eq_some_iff.mp h
    obtain rfl := Option.some.inj hclause
    rw [eval, ih ha, Filter.eval]

end FilterLang.Sql

namespace FilterLang.SqlQuery

open Sql

/-- **The SQL text means the filter.**  The text of a compiled filter can be read in exactly one way.
With the parameters in the places of their numbers, what is read is the filter, with chains of one
connective made one group and every comparison replaced by its leaf.  In every logic, it means what the
filter means, if comparisons mean what their leaves do. -/
theorem compile_reads.{u} {t : Filter} {query : SqlQuery} (h : compile t = .ok query) :
    ∃ clause : Clause Json, Clause.ofFilter? t = some clause ∧
      (∃ numbered : Clause Nat, numbered.fill query.params = some clause ∧
        ∀ other : Clause Nat, other.text = query.text ↔ other = numbered) ∧
      ∀ (Ω : Type u) (logic : Logic Ω) (meaning : Leaf Json → Ω) (leaf : String → Operator → Value → Ω),
        (∀ field op value l, Leaf.ofComparison? field op value = some l →
          leaf field op value = meaning l) →
        clause.eval logic meaning = t.eval logic leaf := by
  obtain ⟨condition, hcondition, hquery⟩ := bind_eq_ok_iff.mp h
  obtain rfl := Except.ok.inj hquery
  obtain ⟨clause, hclause, rfl⟩ := Clause.exists_clause hcondition
  refine ⟨clause, hclause, ⟨clause.number 0, ?_, fun other => ?_⟩, ?_⟩
  · simp only [Clause.params_toCondition]
    exact clause.fill_number
  · simp only [Clause.text_toCondition]
    exact Clause.text_injective.eq_iff
  · intro Ω logic meaning leaf hleaf
    exact Clause.eval_ofFilter logic meaning leaf hclause hleaf

/-- A negated chain, with a quote and a point in the name of a field, a value that looks like a
placeholder, a range with an open end, and searches for texts that have wildcards of their own. -/
def negatedChain : Filter :=
  .not (.and (.comparison "a\"b.c" .isIn (.list [.int 1, .str "$1"]))
    (.and (.and (.comparison "d" .ne (.scalar .null)) (.comparison "e" .between (.range .null (.int 3))))
      (.and (.comparison "f" .contains (.scalar (.str "5%")))
        (.and (.comparison "f" .startsWith (.scalar (.str "_"))) (.comparison "f" .endsWith (.scalar (.int 7)))))))

/-- The text of the clause. -/
def negatedChainText : String :=
  "(NOT ((\"a\"\"b\".\"c\" IN ($1, $2)) AND (\"d\" IS NOT NULL) AND (\"e\" <= $3)" ++
    " AND (\"f\" LIKE $4) AND (\"f\" LIKE $5) AND (\"f\" LIKE $6)))"

/-- The values that are bound to its placeholders. -/
def negatedChainParams : List Json := [.int 1, .str "$1", .int 3, .str "%5%%", .str "_%", .str "%7"]

theorem compile_reads_negatedChain :
    compile negatedChain = .ok ⟨negatedChainText, negatedChainParams⟩ ∧
    ∃ clause numbered, Clause.ofFilter? negatedChain = some clause ∧
      Clause.fill negatedChainParams numbered = some clause ∧
      (∀ other : Clause Nat, other.text = negatedChainText ↔ other = numbered) ∧
      ∀ meaning : Leaf Json → Option Bool, clause.eval .threeValued meaning =
        negatedChain.eval .threeValued fun field op value =>
          (Leaf.ofComparison? field op value).bind meaning := by
  have hcompile : compile negatedChain = .ok ⟨negatedChainText, negatedChainParams⟩ := by
    rfl
  obtain ⟨clause, hclause, ⟨numbered, hfill, hunique⟩, hmeaning⟩ := compile_reads hcompile
  refine ⟨hcompile, clause, numbered, hclause, hfill, hunique, fun meaning => ?_⟩
  refine hmeaning (Option Bool) .threeValued meaning _ fun field op value l hl => ?_
  rw [hl, Option.bind_some]

end FilterLang.SqlQuery
