import FilterLang.Target.Sql
import Mathlib.Tactic

/-!
# No value reaches the SQL text

Two filters have the same skeleton if they differ in nothing but their literals, and where a literal
decides what is written, they agree on what decides: whether a value compared by `eq` or `ne` is null,
whether an end of a range is open, and how many items a list has.

The text of a condition and the number of its parameters can be read off its outline, which has `null` in
the place of every value (`SqlCondition.text_outline`).  Filters with the same skeleton have conditions
with the same outline, or none for the same reason (`SqlCondition.map_outline_ofFilter`).
-/

namespace FilterLang

/-! ### Skeletons -/

/-- Values of one kind that agree in what an operator may look at. -/
inductive Value.Alike (op : Operator) : Value → Value → Prop
  | scalar {a b : Scalar} (null : op = .eq ∨ op = .ne → a.isNull = b.isNull) :
      Alike op (.scalar a) (.scalar b)
  | list {xs ys : List Scalar} (length : xs.length = ys.length) : Alike op (.list xs) (.list ys)
  | range {a b c d : Scalar} (lower : a.isNull = c.isNull) (upper : b.isNull = d.isNull) :
      Alike op (.range a b) (.range c d)

/-- Filters that differ in nothing but their literals. -/
inductive Filter.SameSkeleton : Filter → Filter → Prop
  | comparison {field : String} {op : Operator} {v w : Value} (value : v.Alike op w) :
      SameSkeleton (.comparison field op v) (.comparison field op w)
  | logical {kind : Connective} {a b c d : Filter} (left : SameSkeleton a c)
      (right : SameSkeleton b d) : SameSkeleton (.logical kind a b) (.logical kind c d)
  | not {a b : Filter} (child : SameSkeleton a b) : SameSkeleton (.not a) (.not b)

namespace SqlCondition

/-! ### Outlines -/

mutual

/-- A condition with `null` in the place of every value. -/
def outline : SqlCondition → SqlCondition
  | .isNull column => .isNull column
  | .isNotNull column => .isNotNull column
  | .compare column comparison _ => .compare column comparison .null
  | .oneOf column values => .oneOf column (List.replicate values.length .null)
  | .noneOf column values => .noneOf column (List.replicate values.length .null)
  | .between column _ _ => .between column .null .null
  | .always => .always
  | .group kind operands => .group kind (outlines operands)
  | .not child => .not child.outline
termination_by structural condition => condition

/-- Several conditions with `null` in the place of every value. -/
def outlines : List SqlCondition → List SqlCondition
  | [] => []
  | condition :: rest => condition.outline :: outlines rest
termination_by structural conditions => conditions

end

lemma outlines_append (xs ys : List SqlCondition) :
    outlines (xs ++ ys) = outlines xs ++ outlines ys := by
  induction xs with
  | nil => rfl
  | cons condition xs ih =>
    rw [List.cons_append, outlines, ih]
    rfl

mutual

lemma length_params_outline : ∀ condition : SqlCondition,
    condition.outline.params.length = condition.params.length
  | .isNull _ | .isNotNull _ | .compare _ _ _ | .between _ _ _ | .always => rfl
  | .oneOf _ _ | .noneOf _ _ => List.length_replicate
  | .group _ operands => length_paramsList_outlines operands
  | .not child => length_params_outline child

lemma length_paramsList_outlines : ∀ conditions : List SqlCondition,
    (paramsList (outlines conditions)).length = (paramsList conditions).length
  | [] => rfl
  | condition :: rest => by
    simp only [outlines, paramsList, List.length_append, length_params_outline condition,
      length_paramsList_outlines rest]

end

mutual

lemma text_outline (bound : Nat) : ∀ condition : SqlCondition,
    condition.outline.text bound = condition.text bound
  | .isNull _ | .isNotNull _ | .compare _ _ _ | .between _ _ _ | .always => rfl
  | .oneOf _ _ | .noneOf _ _ => by simp only [outline, text, List.length_replicate]
  | .group kind operands => by simp only [outline, text, texts_outlines bound operands]
  | .not child => by simp only [outline, text, text_outline bound child]

lemma texts_outlines (bound : Nat) : ∀ conditions : List SqlCondition,
    texts bound (outlines conditions) = texts bound conditions
  | [] => rfl
  | condition :: rest => by
    simp only [outlines, texts, text_outline bound condition, length_params_outline condition,
      texts_outlines _ rest]

end

lemma outlines_operands (kind : Connective) (condition : SqlCondition) :
    outlines (operands kind condition) = operands kind condition.outline := by
  cases condition with
  | group k inner =>
    by_cases hk : k = kind
    · rw [outline, operands, operands, if_pos hk, if_pos hk]
    · rw [outline, operands, operands, if_neg hk, if_neg hk]
      rfl
  | _ => rfl

/-! ### Filters with the same skeleton -/

lemma outline_compare (column : String) (comparison : SqlComparison) (v w : Json) :
    (compare column comparison v).outline = (compare column comparison w).outline := rfl

/-- Ranges whose ends are open on the same sides have the same outline. -/
lemma outline_ofRange (column : String) {a b c d : Scalar} (hlower : a.isNull = c.isNull)
    (hupper : b.isNull = d.isNull) :
    (ofRange column a b).outline = (ofRange column c d).outline := by
  simp only [ofRange, Scalar.bound?, hlower, hupper]
  cases c.isNull <;> cases d.isNull <;> rfl

lemma map_outline_ofComparison (field : String) {op : Operator} {v w : Value} (h : v.Alike op w) :
    (ofComparison field op v).map outline = (ofComparison field op w).map outline := by
  cases h with
  | @scalar a b null =>
    cases op with
    | eq | ne =>
      have hnull : a.isNull = b.isNull := null (by simp)
      cases a <;> cases b <;> first
        | exact absurd hnull Bool.false_ne_true
        | exact absurd hnull.symm Bool.false_ne_true
        | exact congrArg Except.ok (outline_compare _ _ _ _)
        | rfl
    | gt | gte | lt | lte | contains | startsWith | endsWith =>
      exact congrArg Except.ok (outline_compare _ _ _ _)
    | isIn | notIn | between => rfl
  | @list xs ys length =>
    cases op with
    | isIn | notIn =>
      cases xs with
      | nil =>
        obtain rfl : ys = [] := List.eq_nil_of_length_eq_zero length.symm
        rfl
      | cons x xs =>
        obtain ⟨y, ys, rfl⟩ : ∃ y tail, ys = y :: tail :=
          List.exists_cons_of_length_pos (by simp [← length])
        change Except.ok (outline _) = Except.ok (outline _)
        simp only [outline, List.length_map, length]
    | eq | ne | gt | gte | lt | lte => exact congrArg Except.ok (outline_compare _ _ _ _)
    | _ => rfl
  | range lower upper =>
    cases op with
    | between =>
      change Except.ok (outline _) = Except.ok (outline _)
      rw [outline_ofRange _ lower upper]
    | _ => rfl

/-- What two steps give that have the same outline. -/
lemma cases_of_map_outline {x y : Except CompileError SqlCondition}
    (h : x.map outline = y.map outline) :
    (∃ e, x = .error e ∧ y = .error e) ∨
      ∃ c d, x = .ok c ∧ y = .ok d ∧ c.outline = d.outline := by
  cases x with
  | error e =>
    cases y with
    | error e' =>
      obtain rfl : e = e' := Except.error.inj h
      exact .inl ⟨e, rfl, rfl⟩
    | ok d => exact absurd h (by simp [Except.map])
  | ok c =>
    cases y with
    | error e => exact absurd h (by simp [Except.map])
    | ok d => exact .inr ⟨c, d, rfl, rfl, Except.ok.inj h⟩

/-- Filters with the same skeleton have the same outline, or none for the same reason. -/
lemma map_outline_ofFilter {t u : Filter} (h : t.SameSkeleton u) :
    (ofFilter t).map outline = (ofFilter u).map outline := by
  induction h with
  | comparison value => exact map_outline_ofComparison _ value
  | @logical kind a b c d left right ihleft ihright =>
    rw [ofFilter, ofFilter]
    obtain ⟨e, ha, hc⟩ | ⟨l, l', ha, hc, hl⟩ := cases_of_map_outline ihleft
    · rw [ha, hc]
      rfl
    obtain ⟨e, hb, hd⟩ | ⟨r, r', hb, hd, hr⟩ := cases_of_map_outline ihright
    · rw [ha, hc, hb, hd]
      rfl
    rw [ha, hc, hb, hd]
    change Except.ok (outline _) = Except.ok (outline _)
    simp only [outline, outlines_append, outlines_operands, hl, hr]
  | @not a b child ih =>
    rw [ofFilter, ofFilter]
    obtain ⟨e, ha, hb⟩ | ⟨c, d, ha, hb, houtline⟩ := cases_of_map_outline ih
    · rw [ha, hb]
    rw [ha, hb]
    change Except.ok (outline _) = Except.ok (outline _)
    simp only [outline, houtline]

end SqlCondition

namespace SqlQuery

/-- Two outcomes that cannot be told apart without the parameters: the same error, or the same text and
as many parameters. -/
def SameText (x y : Except CompileError SqlQuery) : Prop :=
  (∃ e, x = .error e ∧ y = .error e) ∨
    ∃ text params params', x = .ok ⟨text, params⟩ ∧ y = .ok ⟨text, params'⟩ ∧
      params.length = params'.length

lemma sameText_of_sameSkeleton {t u : Filter} (h : t.SameSkeleton u) :
    SameText (compile t) (compile u) := by
  rw [compile, compile]
  obtain ⟨e, ht, hu⟩ | ⟨c, d, ht, hu, houtline⟩ :=
    SqlCondition.cases_of_map_outline (SqlCondition.map_outline_ofFilter h)
  · left
    rw [ht, hu]
    exact ⟨e, rfl, rfl⟩
  · right
    have htext : c.text 0 = d.text 0 := by
      rw [← SqlCondition.text_outline, houtline, SqlCondition.text_outline]
    have hlength : c.params.length = d.params.length := by
      rw [← SqlCondition.length_params_outline, houtline, SqlCondition.length_params_outline]
    rw [ht, hu]
    exact ⟨c.text 0, c.params, d.params, rfl, by rw [htext]; rfl, hlength⟩

/-- **No value reaches the SQL text.**  Filters with the same skeleton are refused with the same error,
or have the same text and as many parameters. -/
theorem compile_sameText {t u : Filter} (h : t.SameSkeleton u) :
    SameText (compile t) (compile u) ∧ SameText (compileDrizzle t) (compileDrizzle u) :=
  ⟨sameText_of_sameSkeleton h, sameText_of_sameSkeleton h⟩

/-- A filter with a text, a list and an end of a range to be filled in. -/
def template (name : String) (first second lower : Scalar) : Filter :=
  .and (.comparison "name" .eq (.scalar (.str name)))
    (.or (.comparison "tag" .notIn (.list [first, second]))
      (.not (.comparison "age" .between (.range lower .null))))

theorem compile_sameText_template :
    (template "x\" = $1) OR (1=1" (.str "') --") .null (.int 7)).SameSkeleton
        (template "" (.bool true) (.int 0) (.str "$2")) ∧
      SameText (compile (template "x\" = $1) OR (1=1" (.str "') --") .null (.int 7)))
        (compile (template "" (.bool true) (.int 0) (.str "$2"))) := by
  have hskeleton : (template "x\" = $1) OR (1=1" (.str "') --") .null (.int 7)).SameSkeleton
      (template "" (.bool true) (.int 0) (.str "$2")) :=
    .logical (.comparison (.scalar fun _ => rfl))
      (.logical (.comparison (.list rfl)) (.not (.comparison (.range rfl rfl))))
  exact ⟨hskeleton, (compile_sameText hskeleton).1⟩

end SqlQuery

end FilterLang
