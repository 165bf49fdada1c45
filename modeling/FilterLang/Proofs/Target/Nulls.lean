import FilterLang.Proofs.Query.Numerals
import FilterLang.Proofs.TypeOrm.Opening
import FilterLang.Envelope.Sequelize
import FilterLang.Target.Mongo
import FilterLang.Target.Sequelize
import FilterLang.Target.Sql

/-!
# Literals that are taken for null

`null` has a meaning of its own in several places: an equality with it is a test for a missing value, and a
range leaves the end open where it stands.  Most of these places see a literal only as a document, and a
number that no document can hold becomes `null` there.  So it is taken for `null` in each of them
(`NullReader.takes_iff`).

In an accepted query this happens to the numerals that are too large for the 64-bit format, and to no other
literal that was not written as `null` (`Filter.takes_iff_overflows`).
-/

namespace FilterLang

/-! ## Where null has a meaning -/

/-- A place where `null` is not a value like any other. -/
inductive NullReader where
  /-- An equality for MongoDB. -/
  | mongo
  /-- An equality for TypeORM. -/
  | typeOrm
  /-- An equality for Sequelize. -/
  | sequelize
  /-- A parameter of a SQL clause. -/
  | sql
  /-- The lower end of a range, when its envelope is opened. -/
  | lowerEnd (target : EnvelopeTarget) (upper : Scalar)
  /-- The upper end of a range, when its envelope is opened. -/
  | upperEnd (target : EnvelopeTarget) (lower : Scalar)

/-- Two ranges are opened to the same condition, whatever the table. -/
def EnvelopeTarget.opensAlike (left right : Value) : EnvelopeTarget → Prop
  | .sequelize => ∀ table, Sequelize.openOperator table .between left.toJson =
      Sequelize.openOperator table .between right.toJson
  | .typeOrm => ∀ table, TypeOrm.callOperator table .between left.toJson =
      TypeOrm.callOperator table .between right.toJson

/-- The literal is taken for `null`: an equality is compiled to the test for `null`, the parameter that is
bound is `null`, and the end of a range is taken for an open one. -/
def NullReader.takes (field : String) (s : Scalar) : NullReader → Prop
  | .mongo => Mongo.compile (.equals field s) = Mongo.compile (.equals field .null)
  | .typeOrm => TypeOrm.compile (.equals field s) = TypeOrm.compile (.equals field .null)
  | .sequelize => Sequelize.compile (.equals field s) = Sequelize.compile (.equals field .null)
  | .sql => ∃ query, SqlQuery.compile (.equals field s) = .ok query ∧ Json.null ∈ query.params
  | .lowerEnd target upper => target.opensAlike (.range s upper) (.range .null upper)
  | .upperEnd target lower => target.opensAlike (.range lower s) (.range lower .null)

/-! ## Ranges -/

lemma isSome_bound?_eq_false_iff {document : Json} :
    document.bound?.isSome = false ↔ document = .null := by
  cases document <;> simp [Json.bound?]

lemma Sequelize.keyed_aliases {name : String} (h : name ∈ SymbolTable.names) (value : Json) :
    SymbolTable.aliases.keyed name value = .ok (.single ("$" ++ name) value) := by
  simp only [SymbolTable.names, List.mem_cons, List.not_mem_nil, or_false] at h
  rcases h with rfl | rfl | rfl | rfl | rfl | rfl | rfl | rfl | rfl | rfl | rfl | rfl <;> rfl

/-- What a range is opened to tells which of its ends are open. -/
lemma Sequelize.isSome_bound?_of_openOperator {l u l' u' : Json}
    (h : openOperator .aliases .between (.arr [l, u]) =
      openOperator .aliases .between (.arr [l', u'])) :
    l.bound?.isSome = l'.bound?.isSome ∧ u.bound?.isSome = u'.bound?.isSome := by
  have hgte := @keyed_aliases "gte" (by decide)
  have hlte := @keyed_aliases "lte" (by decide)
  have hbetween := @keyed_aliases "between" (by decide)
  simp only [openOperator, rangeBounds?] at h
  cases hl : l.bound? <;> cases hu : u.bound? <;> cases hl' : l'.bound? <;> cases hu' : u'.bound? <;>
    simp_all [Json.single, bind, Except.bind, pure, Except.pure]

lemma TypeOrm.isSome_bound?_of_callOperator {l u l' u' : Json}
    (h : callOperator .recording .between (.arr [l, u]) =
      callOperator .recording .between (.arr [l', u'])) :
    l.bound?.isSome = l'.bound?.isSome ∧ u.bound?.isSome = u'.bound?.isSome := by
  have hgte := @call_recording "moreThanOrEqual" (by decide)
  have hlte := @call_recording "lessThanOrEqual" (by decide)
  have hbetween := @call_recording "between" (by decide)
  simp only [callOperator, rangeBounds?] at h
  cases hl : l.bound? <;> cases hu : u.bound? <;> cases hl' : l'.bound? <;> cases hu' : u'.bound? <;>
    simp_all [recorder, Json.single, bind, Except.bind, pure, Except.pure]

namespace EnvelopeTarget

variable {target : EnvelopeTarget}

lemma opensAlike_of_toJson {left right : Value} (h : left.toJson = right.toJson) :
    target.opensAlike left right := by
  cases target with
  | sequelize => exact fun table => congrArg _ h
  | typeOrm => exact fun table => congrArg _ h

lemma opensAlike.ends {l u l' u' : Scalar} (h : target.opensAlike (.range l u) (.range l' u')) :
    l.toJson.bound?.isSome = l'.toJson.bound?.isSome ∧
      u.toJson.bound?.isSome = u'.toJson.bound?.isSome := by
  cases target with
  | sequelize => exact Sequelize.isSome_bound?_of_openOperator (h .aliases)
  | typeOrm => exact TypeOrm.isSome_bound?_of_callOperator (h .recording)

end EnvelopeTarget

/-! ## Equalities -/

lemma mongo_equals_inj {field : String} {s s' : Scalar} :
    Mongo.compile (.equals field s) = Mongo.compile (.equals field s') ↔ s.toJson = s'.toJson := by
  have hcompile : ∀ s, Mongo.compile (.equals field s) = .ok (.single field s.toJson) := fun _ => rfl
  simp [hcompile, Json.single]

lemma sequelize_equals_inj {field : String} {s s' : Scalar} :
    Sequelize.compile (.equals field s) = Sequelize.compile (.equals field s') ↔
      s.toJson = s'.toJson := by
  have hcompile : ∀ s, Sequelize.compile (.equals field s) = .ok (.single field s.toJson) :=
    fun _ => rfl
  simp [hcompile, Json.single]

lemma typeOrm_equals_inj {field : String} {s s' : Scalar} :
    TypeOrm.compile (.equals field s) = TypeOrm.compile (.equals field s') ↔
      s.toJson = s'.toJson := by
  have hcompile : ∀ s, TypeOrm.compile (.equals field s) = .ok (.obj (nestPath field s.toJson)) :=
    fun _ => rfl
  obtain ⟨key, rest, hpath⟩ := List.exists_cons_of_ne_nil (fieldPath_ne_nil field)
  simp only [hcompile, nestPath, hpath, Except.ok.injEq, Json.obj.injEq, List.cons.injEq,
    Prod.mk.injEq, true_and, and_true]
  exact ⟨nest_injective, fun h => congrArg _ h⟩

lemma sql_equals_params {field : String} {s : Scalar} (h : s ≠ .null) :
    ∃ query, SqlQuery.compile (.equals field s) = .ok query ∧ query.params = [s.toJson] := by
  cases s with
  | null => exact absurd rfl h
  | _ => exact ⟨_, rfl, rfl⟩

/-- **What is taken for null.**  Every place takes a literal for `null` exactly if its document is
`null`. -/
lemma NullReader.takes_iff (reader : NullReader) (field : String) {s : Scalar} (h : s ≠ .null) :
    reader.takes field s ↔ s.toJson = .null := by
  cases reader with
  | mongo => exact mongo_equals_inj
  | typeOrm => exact typeOrm_equals_inj
  | sequelize => exact sequelize_equals_inj
  | sql =>
    obtain ⟨query, hquery, hparams⟩ := @sql_equals_params field s h
    constructor
    · rintro ⟨other, hother, hnull⟩
      obtain rfl : query = other := Except.ok.inj (hquery.symm.trans hother)
      rw [hparams, List.mem_singleton] at hnull
      exact hnull.symm
    · intro hnull
      exact ⟨query, hquery, by simp [hparams, hnull]⟩
  | lowerEnd target upper =>
    constructor
    · exact fun hopens => isSome_bound?_eq_false_iff.1 hopens.ends.1
    · exact fun hnull => EnvelopeTarget.opensAlike_of_toJson (by rw [Value.toJson, hnull]; rfl)
  | upperEnd target lower =>
    constructor
    · exact fun hopens => isSome_bound?_eq_false_iff.1 hopens.ends.2
    · exact fun hnull => EnvelopeTarget.opensAlike_of_toJson (by rw [Value.toJson, hnull]; rfl)

/-! ## Accepted queries -/

lemma toJson_eq_null_iff {s : Scalar} (h : s ≠ .null) : s.toJson = .null ↔ s.isFinite = false := by
  cases s with
  | null => exact absurd rfl h
  | float x => simp [Scalar.toJson, Scalar.isFinite]
  | _ => simp [Scalar.toJson, Scalar.isFinite]

/-- **The literals that turn into null.**  A literal of an accepted query that is not `null` itself has
`null` as its document exactly if it was written as a numeral that is too large for the 64-bit format.  It is
then taken for `null` wherever `null` has a meaning: an equality becomes a test for `null`, `null` is bound
as a parameter, and the end of a range is open.  Any other literal is taken for `null` nowhere. -/
theorem Filter.takes_iff_overflows {maxNesting : Nat} {text : String} {t : Filter}
    (h : Filter.parseWithin maxNesting text = .ok t) {s : Scalar} (hs : s ∈ t.literals)
    (hne : s ≠ .null) :
    (s.toJson = .null ↔ ∃ negative run, (signText negative ++ run) <:+: text.toList ∧
      s = Lexer.numberValue negative run ∧ Lexer.Overflows run) ∧
    ∀ (reader : NullReader) (field : String), reader.takes field s ↔
      ∃ negative run, (signText negative ++ run) <:+: text.toList ∧
        s = Lexer.numberValue negative run ∧ Lexer.Overflows run := by
  have hnull : s.toJson = .null ↔ ∃ negative run, (signText negative ++ run) <:+: text.toList ∧
      s = Lexer.numberValue negative run ∧ Lexer.Overflows run := by
    rw [toJson_eq_null_iff hne]
    constructor
    · intro hfinite
      obtain ⟨negative, run, hinfix, rfl⟩ := Filter.exists_numeral h hs hfinite
      exact ⟨negative, run, hinfix, rfl, Lexer.isFinite_numberValue.1 hfinite⟩
    · rintro ⟨negative, run, -, rfl, hoverflows⟩
      exact Lexer.isFinite_numberValue.2 hoverflows
  exact ⟨hnull, fun reader field => (reader.takes_iff field hne).trans hnull⟩

/-- An equality with a one and 309 zeros. -/
theorem Filter.takes_iff_overflows_manyZeros :
    ∃ t, Filter.parseWithin 256 ("a eq " ++ String.ofList ('1' :: List.replicate 309 '0')) = .ok t ∧
      ∃ s ∈ t.literals, s ≠ .null ∧ s.toJson = .null ∧
        ∀ (reader : NullReader) (field : String), reader.takes field s := by
  have hfield : Lexer.Lexable "a" := by decide +kernel
  have hlexes : Lexer.Lexes ('1' :: List.replicate 309 '0')
      [.literal (.scalar (.float (.infinite false)))] [] := .single (by decide +kernel)
  have hread := Filter.parseWithin_eq_literal hfield hlexes 256
  have hs : Scalar.float (.infinite false) ∈
      (Filter.comparison "a" .eq (.scalar (.float (.infinite false)))).literals := by decide
  obtain ⟨hnull, htakes⟩ := Filter.takes_iff_overflows hread hs (by decide)
  exact ⟨_, hread, _, hs, by decide, rfl, fun reader field => (htakes reader field).2 (hnull.1 rfl)⟩

end FilterLang
