import FilterLang.Proofs.Number.Texts
import FilterLang.Proofs.Sequelize.Faithful
import FilterLang.Proofs.TypeOrm.Paths
import FilterLang.Target.Sql

/-!
# The same pattern for every target

Three of the targets look for a text with a pattern that has wildcards around it.  A SQL clause takes the text
of the literal itself, and the other two take the text of the document that the literal has become in an
envelope.  A number may have two different texts there, so that the patterns differ; the main statement says
exactly when all three targets are given the same one (`PatternTarget.exists_common_pattern_iff`).
-/

namespace FilterLang

/-! ## The text that is looked for -/

/-- The literal is written alike in running text and in a document.  Only numbers of the fractional kind are
restricted: such a number has to have digits behind the point, to be at least `0.00001`, and to have shortest
digits that do not depend on how ties are broken. -/
def Scalar.WrittenAlike : Scalar → Prop
  | .float (.finite _ x) =>
    x.isWhole = false ∧ Magnitude.resolution ≤ x.units * 100000 ∧ x.shortest .up = x.shortest .even
  | .float _ => False
  | _ => True

instance : DecidablePred Scalar.WrittenAlike
  | .float (.finite _ _) => inferInstanceAs (Decidable (_ ∧ _ ∧ _))
  | .float (.infinite _) | .float .nan => inferInstanceAs (Decidable False)
  | .null | .bool _ | .int _ | .str _ => inferInstanceAs (Decidable True)

lemma Scalar.text_eq_searchedText_iff (s : Scalar) :
    s.text = searchedText s.toJson ↔ s.WrittenAlike := by
  cases s with
  | float x =>
    cases x with
    | nan => exact iff_of_false (by decide) id
    | infinite negative => exact iff_of_false (by cases negative <;> decide) id
    | finite negative x =>
      have htext : (Scalar.float (.finite negative x)).text =
          (if negative then "-" else "") ++ Binary64.textStyle.magnitude x := rfl
      have hsearched : searchedText (Scalar.float (.finite negative x)).toJson =
          (if negative then "-" else "") ++ Json.numberStyle.magnitude x := rfl
      rw [htext, hsearched, String.append_right_inj]
      exact Magnitude.text_eq_iff x
  | _ => exact iff_of_true rfl trivial

/-- The pattern that an operator puts around a text. -/
def Operator.pattern (op : Operator) (text : String) : String := (op.likePattern? text).getD text

lemma Operator.pattern_inj (op : Operator) {a b : String} : op.pattern a = op.pattern b ↔ a = b := by
  cases op <;> simp [pattern, likePattern?, String.append_assoc]

lemma Operator.pattern_cases {op : Operator} (h : op.isPattern = true) :
    op = .contains ∨ op = .startsWith ∨ op = .endsWith := by
  cases op with
  | contains | startsWith | endsWith => simp
  | _ => cases h

/-! ## What the targets are given -/

/-- A target that looks for a text with a pattern. -/
inductive PatternTarget where
  | sql
  | sequelize
  | typeOrm

/-- The target is given a filter that says of the field that it is like the pattern, and nothing else. -/
def PatternTarget.gives (field : String) (op : Operator) (s : Scalar) (pattern : String) :
    PatternTarget → Prop
  | .sql => SqlQuery.compile (.comparison field op (.scalar s)) =
      .ok ⟨"(" ++ SqlCondition.quoteField field ++ " LIKE $1)", [.str pattern]⟩
  | .sequelize => ∃ draft, Sequelize.compile (.comparison field op (.scalar s)) = .ok draft ∧
      Sequelize.resolve .aliases draft = .ok (.single field (.single "$like" (.str pattern)))
  | .typeOrm => ∃ draft, TypeOrm.compile (.comparison field op (.scalar s)) = .ok draft ∧
      TypeOrm.resolve .recording draft =
        .ok (nest (fieldPath field) (TypeOrm.recorder "like" [.str pattern]))

lemma text_like (column : String) (value : Json) :
    (SqlCondition.compare column .like value).text 0 = "(" ++ column ++ " LIKE $1)" := by
  have htail : " " ++ SqlComparison.like.symbol ++ " " ++ SqlCondition.placeholder 1 ++ ")" =
      " LIKE $1)" := by decide
  rw [← htail]
  simp only [SqlCondition.text, String.append_assoc]
  rfl

/-- A condition on a field is opened where it stands, if the field is not taken for a connective. -/
lemma Sequelize.resolve_single {table : SymbolTable} {field : String} {condition opened : Json}
    (hfield : logicalMarker ≠ field) (ok : openCondition table condition = .ok (some opened)) :
    resolve table (.single field condition) = .ok (.single field opened) := by
  have hlookup : List.lookup logicalMarker [(field, condition)] = none := lookup_cons_of_ne hfield
  rw [Json.single, resolve, hlookup]
  simp only [openFields, ok]
  rfl

section

variable {op : Operator} (h : op.isPattern = true) {field : String} {s : Scalar} {pattern : String}

include h

lemma gives_sql_iff : PatternTarget.sql.gives field op s pattern ↔ pattern = op.pattern s.text := by
  have hcompile : SqlQuery.compile (.comparison field op (.scalar s)) =
      .ok ⟨(SqlCondition.compare (SqlCondition.quoteField field) .like .null).text 0,
        [.str (op.pattern s.text)]⟩ := by
    rcases Operator.pattern_cases h with rfl | rfl | rfl <;> rfl
  rw [PatternTarget.gives, hcompile, text_like]
  simp [eq_comm]

lemma gives_sequelize_iff : PatternTarget.sequelize.gives field op s pattern ↔
    field ≠ logicalMarker ∧ pattern = op.pattern (searchedText s.toJson) := by
  have hcompile : Sequelize.compile (.comparison field op (.scalar s)) =
      .ok (.single field (envelope op.name s.toJson)) := by
    rcases Operator.pattern_cases h with rfl | rfl | rfl <;> rfl
  have hopen : Sequelize.openCondition .aliases (envelope op.name s.toJson) =
      .ok (some (.single "$like" (.str (op.pattern (searchedText s.toJson))))) := by
    rw [Sequelize.openCondition_envelope]
    rcases Operator.pattern_cases h with rfl | rfl | rfl <;> rfl
  simp only [PatternTarget.gives, hcompile, Except.ok.injEq, exists_eq_left']
  by_cases hfield : logicalMarker = field
  · -- The envelope stands where the kind of a connective is expected.
    subst hfield
    refine iff_of_false (fun hresolve => ?_) fun hfield => hfield.1 rfl
    cases hresolve
  · rw [Sequelize.resolve_single hfield hopen]
    simp [Json.single, eq_comm, Ne.symm hfield]

lemma gives_typeOrm_iff : PatternTarget.typeOrm.gives field op s pattern ↔
    TypeOrm.Passable (fieldPath field) ∧ pattern = op.pattern (searchedText s.toJson) := by
  obtain ⟨key, rest, hpath⟩ := List.exists_cons_of_ne_nil (fieldPath_ne_nil field)
  have hcompile : TypeOrm.compile (.comparison field op (.scalar s)) =
      .ok (nest (key :: rest) (envelope op.name s.toJson)) := by
    have hnest : Json.obj (nestPath field (envelope op.name s.toJson)) =
        nest (key :: rest) (envelope op.name s.toJson) := by
      rw [nestPath, hpath]
      rfl
    rw [← hnest]
    rcases Operator.pattern_cases h with rfl | rfl | rfl <;> rfl
  have hopen : TypeOrm.openCondition .recording (envelope op.name s.toJson) =
      .ok (some (TypeOrm.recorder "like" [.str (op.pattern (searchedText s.toJson))])) := by
    rcases Operator.pattern_cases h with rfl | rfl | rfl <;> rfl
  have hname : op.name ≠ "and" := by cases op <;> decide
  have hopened : TypeOrm.recorder "like" [.str pattern] ≠ envelope op.name s.toJson := by
    simp [TypeOrm.recorder, Json.single, envelope]
  simp only [PatternTarget.gives, hcompile, Except.ok.injEq, exists_eq_left', hpath]
  rw [TypeOrm.resolve_nest_iff hname hopened hopen]
  simp [TypeOrm.recorder, Json.single]

end

/-- **When the three targets are given the same pattern.**  For each of the operators that look for a text,
there is one pattern that all three targets are given exactly if no part of the field has a meaning of its own
in an envelope and the literal is written alike in running text and in a document. -/
theorem PatternTarget.exists_common_pattern_iff {op : Operator} (h : op.isPattern = true)
    (field : String) (s : Scalar) :
    (∃ pattern, ∀ target : PatternTarget, target.gives field op s pattern) ↔
      field ≠ logicalMarker ∧ TypeOrm.Passable (fieldPath field) ∧ s.WrittenAlike := by
  rw [← s.text_eq_searchedText_iff, ← op.pattern_inj]
  constructor
  · rintro ⟨pattern, hgives⟩
    have hsql := (gives_sql_iff h).1 (hgives .sql)
    obtain ⟨hfield, hsequelize⟩ := (gives_sequelize_iff h).1 (hgives .sequelize)
    obtain ⟨hpath, -⟩ := (gives_typeOrm_iff h).1 (hgives .typeOrm)
    exact ⟨hfield, hpath, hsql.symm.trans hsequelize⟩
  · rintro ⟨hfield, hpath, htext⟩
    refine ⟨op.pattern s.text, fun target => ?_⟩
    cases target with
    | sql => exact (gives_sql_iff h).2 rfl
    | sequelize => exact (gives_sequelize_iff h).2 ⟨hfield, htext⟩
    | typeOrm => exact (gives_typeOrm_iff h).2 ⟨hpath, htext⟩

/-- A number with an exact fraction has one pattern.  A whole number has two, and so has one in the middle
between two shortest forms. -/
theorem PatternTarget.exists_common_pattern_iff_fractions :
    (∃ pattern, ∀ target : PatternTarget, target.gives "a.b" .startsWith
      (.float (.ofRatio true 1 2)) pattern) ∧
    ¬ (∃ pattern, ∀ target : PatternTarget, target.gives "a" .contains
      (.float (.ofRatio false 1 1)) pattern) ∧
    ¬ ∃ pattern, ∀ target : PatternTarget, target.gives "a" .endsWith
      (.float (.ofRatio false (2 ^ 52 + 1) 4)) pattern :=
  ⟨(PatternTarget.exists_common_pattern_iff rfl "a.b" _).2 (by decide +kernel),
    fun h => absurd ((PatternTarget.exists_common_pattern_iff rfl "a" _).1 h) (by decide +kernel),
    fun h => absurd ((PatternTarget.exists_common_pattern_iff rfl "a" _).1 h) (by decide +kernel)⟩

end FilterLang
