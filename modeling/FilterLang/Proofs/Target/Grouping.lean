import FilterLang.Proofs.Sequelize.Grouping
import FilterLang.Proofs.Target.Faults

/-!
# The grouping of a chain does not matter

SQL, MongoDB and Sequelize filters put the operands of a chain side by side, each in a way of its own: SQL
joins conditions, MongoDB looks for an object whose only key is that of the connective, and Sequelize looks
for the name of the connective in an envelope.  Each way is associative, so the compiled filter, and also the
error of a filter that cannot be compiled, is the same for every grouping.  Whatever is read off the
comparisons from left to right is the same as well.
-/

namespace FilterLang

open FilterLang.Filter (Regrouped Respects)

variable {a b : Filter}

/-! ## Compiled filters -/

lemma SqlCondition.operands_group (kind : Connective) (items : List SqlCondition) :
    operands kind (.group kind items) = items := if_pos rfl

lemma SqlCondition.ofFilter_regrouped (h : Regrouped Eq a b) : ofFilter a = ofFilter b := by
  refine Respects.eq_of_join (fun kind l r => .group kind (operands kind l ++ operands kind r))
    (fun _ _ _ => rfl) (fun _ => rfl) (fun kind x y z => ?_) h
  rw [operands_group, operands_group, List.append_assoc]

lemma SqlQuery.compile_regrouped (h : Regrouped Eq a b) : compile a = compile b := by
  rw [compile, compile, SqlCondition.ofFilter_regrouped h]

lemma Mongo.operands_arr (key : String) (items : List Json) :
    operands key (.single key (.arr items)) = items := if_pos rfl

lemma Mongo.compile_regrouped (h : Regrouped Eq a b) : compile a = compile b := by
  refine Respects.eq_of_join (fun kind l r => .single (connectiveKey kind)
    (.arr (operands (connectiveKey kind) l ++ operands (connectiveKey kind) r)))
    (fun _ _ _ => rfl) (fun _ => rfl) (fun kind x y z => ?_) h
  rw [operands_arr, operands_arr, List.append_assoc]

lemma Sequelize.compile_regrouped (h : Regrouped Eq a b) : compile a = compile b := by
  have hvalues : Regrouped (Value.Related Eq) a b := by
    refine h.mono ?_
    rintro v _ rfl
    exact v.related_eq_refl
  exact ((compile_respects Json.discerns_eq).of_regrouped hvalues).eq

/-! ## Comparisons and sizes -/

lemma Filter.comparisons_respects : Respects Eq Eq comparisons where
  equivalence := eq_equivalence
  comparison := by
    rintro field op v _ rfl
    rfl
  not _ _ h := h
  logical kind x x' y y' hx hy := by rw [comparisons, comparisons, hx, hy]
  assoc kind x y z := List.append_assoc _ _ _

lemma Filter.nodes_respects : Respects Eq Eq (fun t => t.complexity.nodes) where
  equivalence := eq_equivalence
  comparison _ _ _ _ _ := rfl
  not x y h := congrArg (· + 1) h
  logical kind x x' y y' hx hy := by
    simp only [complexity] at hx hy ⊢
    rw [hx, hy]
  assoc kind x y z := by
    simp only [complexity]
    omega

/-- The comparisons of a filter are what its clauses count. -/
lemma Filter.clauses_eq_length (t : Filter) : t.complexity.clauses = t.comparisons.length := by
  induction t with
  | comparison field op value => rfl
  | not child ih => exact ih
  | logical kind left right ihleft ihright =>
    rw [comparisons, List.length_append, ← ihleft, ← ihright]
    rfl

/-- The check of a whitelist depends on the comparisons alone. -/
lemma Whitelist.check_congr (whitelist : Whitelist) (h : a.comparisons = b.comparisons) :
    whitelist.check a = whitelist.check b := by
  have hfailure : failure? (whitelist.check a) = failure? (whitelist.check b) := by
    rw [whitelist.leftToRight.failure?_eq, whitelist.leftToRight.failure?_eq, h]
  cases hx : whitelist.check a <;> cases hy : whitelist.check b <;> simp_all

/-- **The grouping of a chain does not matter.**  Filters that differ only in the grouping of chains of one
connective, anywhere inside them, are compiled to the same SQL, MongoDB and Sequelize filters, or not
compiled for the same reason.  They have the same fields and operators in the same order, every whitelist
gives the same answer to both, and they have as many parts and as many comparisons. -/
theorem compile_eq_of_regrouped (h : Regrouped Eq a b) :
    SqlQuery.compile a = SqlQuery.compile b ∧
    Mongo.compile a = Mongo.compile b ∧
    Sequelize.compile a = Sequelize.compile b ∧
    a.fields = b.fields ∧ a.operators = b.operators ∧
    (∀ whitelist : Whitelist, whitelist.check a = whitelist.check b) ∧
    a.complexity.nodes = b.complexity.nodes ∧ a.complexity.clauses = b.complexity.clauses := by
  have hcomparisons : a.comparisons = b.comparisons := Filter.comparisons_respects.of_regrouped h
  refine ⟨SqlQuery.compile_regrouped h, Mongo.compile_regrouped h, Sequelize.compile_regrouped h, ?_, ?_,
    fun whitelist => whitelist.check_congr hcomparisons, Filter.nodes_respects.of_regrouped h, ?_⟩
  · rw [Filter.fields, Filter.fields, hcomparisons]
  · rw [Filter.operators, Filter.operators, hcomparisons]
  · rw [Filter.clauses_eq_length, Filter.clauses_eq_length, hcomparisons]

/-- Chains of both connectives under a negation.  The field of one comparison is the key of a MongoDB
connective, another comparison has no SQL form, and both groupings fail at the same one. -/
theorem compile_eq_of_regrouped_negatedChains :
    let x : Filter := .comparison "$and" .eq (.list [.int 1, .int 2])
    let y : Filter := .comparison "b" .isIn (.list [])
    let z : Filter := .comparison "c" .contains (.list [.str "x"])
    let left : Filter := .not (.or (.or (.and (.and x y) z) x) y)
    let right : Filter := .not (.or (.and x (.and y z)) (.or x y))
    Regrouped Eq left right ∧ left.complexity.depth ≠ right.complexity.depth ∧
      SqlQuery.compile left = .error (.emptyList "b" .isIn) ∧
      SqlQuery.compile left = SqlQuery.compile right ∧
      Mongo.compile left = .error (.unsupportedValue "c" .contains "list") ∧
      Mongo.compile left = Mongo.compile right ∧
      Sequelize.compile left = Sequelize.compile right ∧
      left.fields = ["$and", "b", "c"] ∧ left.fields = right.fields ∧
      left.complexity.nodes = right.complexity.nodes := by
  intro x y z left right
  have hregrouped : Regrouped Eq left right :=
    .not (.trans (.assoc .or _ x y) (.logical .or (.assoc .and x y z) (.refl _)))
  obtain ⟨hsql, hmongo, hsequelize, hfields, -, -, hnodes, -⟩ := compile_eq_of_regrouped hregrouped
  exact ⟨hregrouped, by decide, rfl, hsql, rfl, hmongo, hsequelize, by decide, hfields, hnodes⟩

end FilterLang
