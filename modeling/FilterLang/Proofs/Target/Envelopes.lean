import FilterLang.Proofs.Sequelize.Faithful
import FilterLang.Proofs.TypeOrm.Faithful
import FilterLang.Proofs.TypeOrm.Format

/-!
# One format of envelopes

Two targets get their filters in envelopes, which are opened on their own side with a table of operators.
Nothing but the format ties the two steps together.  This file shows that they agree on it, whatever the
table: opening a compiled filter fails only because an operator is missing from the table, or, for TypeORM,
because a negation has no form there.
-/

namespace FilterLang

namespace Sequelize

variable {table : SymbolTable}

/-- What may go wrong when a compiled filter is opened with a table. -/
def Excused (table : SymbolTable) (error : EnvelopeError) : Prop :=
  ∃ name, error = .missingOperator .sequelize name ∧ table.symbols.lookup name = none

lemma keyed_meets (name : String) (value : Json) :
    Meets (fun _ => True) (Excused table) (table.keyed name value) := by
  rw [SymbolTable.keyed]
  split
  · trivial
  · exact ⟨name, rfl, ‹_›⟩

lemma some_keyed_meets (name : String) (value : Json) :
    Meets (fun _ => True) (Excused table)
      (table.keyed name value >>= fun condition => pure (some condition)) :=
  (keyed_meets name value).bind fun _ _ => trivial

lemma openOperator_meets {op : Operator} {value : Value} (accepts : op.accepts value = true) :
    Meets (fun _ => True) (Excused table) (openOperator table op value.toJson) := by
  cases op with
  | eq => trivial
  | between =>
    cases value with
    | scalar | list => cases accepts
    | range lower upper =>
      unfold openOperator
      dsimp only [Value.toJson, rangeBounds?]
      split
      · contradiction
      · exact some_keyed_meets _ _
      · exact some_keyed_meets _ _
      · exact some_keyed_meets _ _
      · trivial
  | _ => exact some_keyed_meets _ _

lemma openCondition_meets {op : Operator} {value : Value} (accepts : op.accepts value = true) :
    Meets (fun _ => True) (Excused table) (openCondition table (enveloped op value)) := by
  by_cases hop : op = .eq
  · subst hop
    rw [enveloped, openCondition_toJson]
    trivial
  · rw [enveloped_of_ne hop, openCondition_envelope]
    exact openOperator_meets accepts

/-- What a compiled document has to be: as a whole, and in what it brings to a group of either
connective, because groups are joined before they are opened. -/
structure Resolvable (table : SymbolTable) (document : Json) : Prop where
  whole : Meets (fun _ => True) (Excused table) (resolve table document)
  parts : ∀ kind, ∀ item ∈ conditions kind document,
    Meets (fun _ => True) (Excused table) (resolve table item)

lemma resolveAll_meets {items : List Json}
    (h : ∀ item ∈ items, Meets (fun _ => True) (Excused table) (resolve table item)) :
    Meets (fun _ => True) (Excused table) (resolveAll table items) := by
  induction items with
  | nil => trivial
  | cons item rest ih =>
    rw [resolveAll]
    refine (h item List.mem_cons_self).bind fun _ _ => ?_
    exact (ih fun item hitem => h item (List.mem_cons_of_mem _ hitem)).bind fun _ _ => trivial

lemma resolve_group_eq (kind : Connective) (items : List Json) :
    resolve table (group kind items) =
      resolveAll table items >>= fun filters => table.keyed kind.name (.arr filters) := by
  cases kind <;> rfl

namespace Resolvable

/-- A document that is no group brings itself. -/
lemma of_whole {document : Json} (hself : ∀ kind, conditions kind document = [document])
    (h : Meets (fun _ => True) (Excused table) (resolve table document)) :
    Resolvable table document := by
  refine ⟨h, fun kind item hitem => ?_⟩
  rw [hself kind, List.mem_singleton] at hitem
  rwa [hitem]

lemma comparison {field : String} {op : Operator} {value : Value} (hfield : field ≠ logicalMarker)
    (accepts : op.accepts value = true) : Resolvable table (.single field (enveloped op value)) := by
  have hlookup : List.lookup logicalMarker [(field, enveloped op value)] = none :=
    lookup_cons_of_ne (Ne.symm hfield)
  refine of_whole (fun kind => conditions_of_lookup_eq_none kind hlookup) ?_
  have hfields : Meets (fun _ => True) (Excused table)
      (openFields table [(field, enveloped op value)]) :=
    (openCondition_meets accepts).bind fun _ _ => trivial
  rw [Json.single, resolve, hlookup]
  exact hfields.bind fun _ _ => trivial

lemma group {kind : Connective} {left right : Json} (hl : Resolvable table left)
    (hr : Resolvable table right) :
    Resolvable table (group kind (conditions kind left ++ conditions kind right)) := by
  have hitems : ∀ item ∈ conditions kind left ++ conditions kind right,
      Meets (fun _ => True) (Excused table) (resolve table item) := fun item hitem =>
    (List.mem_append.1 hitem).elim (hl.parts kind item) (hr.parts kind item)
  have hwhole : Meets (fun _ => True) (Excused table)
      (resolve table (Sequelize.group kind (conditions kind left ++ conditions kind right))) := by
    rw [resolve_group_eq]
    exact (resolveAll_meets hitems).bind fun _ _ => keyed_meets _ _
  refine ⟨hwhole, fun other item hitem => ?_⟩
  by_cases hkind : other = kind
  · subst hkind
    rw [conditions_group] at hitem
    exact hitems item hitem
  · rw [conditions_group_of_ne hkind, List.mem_singleton] at hitem
    rwa [hitem]

lemma not {document : Json} (h : Resolvable table document) :
    Resolvable table (.obj [(logicalMarker, .str "not"), ("condition", document)]) := by
  refine of_whole (fun kind => by cases kind <;> rfl) ?_
  exact h.whole.bind fun _ _ => keyed_meets _ _

end Resolvable

lemma compile_resolvable {t : Filter} (shapes : ∀ c ∈ t.comparisons, c.2.1.accepts c.2.2 = true)
    (unmarked : ∀ c ∈ t.comparisons, c.1 ≠ logicalMarker) :
    ∃ draft, compile t = .ok draft ∧ ∀ table, Resolvable table draft := by
  induction t with
  | comparison field op value =>
    have hmem : (field, op, value) ∈ (Filter.comparison field op value).comparisons := by
      simp [Filter.comparisons]
    have hshape : checkShape field op value = .ok () := if_pos (shapes _ hmem)
    refine ⟨_, by rw [compile, hshape]; rfl, fun _ => ?_⟩
    exact .comparison (unmarked _ hmem) (shapes _ hmem)
  | logical kind left right ihleft ihright =>
    simp only [Filter.comparisons, List.mem_append] at shapes unmarked
    obtain ⟨dl, hdl, hl⟩ :=
      ihleft (fun c hc => shapes c (.inl hc)) fun c hc => unmarked c (.inl hc)
    obtain ⟨dr, hdr, hr⟩ :=
      ihright (fun c hc => shapes c (.inr hc)) fun c hc => unmarked c (.inr hc)
    exact ⟨_, by rw [compile, hdl, hdr]; rfl, fun table => (hl table).group (hr table)⟩
  | not child ih =>
    obtain ⟨draft, hdraft, h⟩ := ih shapes unmarked
    exact ⟨_, by rw [compile, hdraft]; rfl, fun table => (h table).not⟩

end Sequelize

lemma ne_logicalMarker {field : String} (h : ∀ key ∈ fieldPath field, key ∉ TypeOrm.markers) :
    field ≠ logicalMarker := by
  rintro rfl
  exact h logicalMarker (by decide) (by decide)

lemma TypeOrm.compile_meets {t : Filter}
    (shapes : ∀ c ∈ t.comparisons, c.2.1.accepts c.2.2 = true)
    (unmarked : ∀ c ∈ t.comparisons, ∀ key ∈ fieldPath c.1, key ∉ TypeOrm.markers) :
    ∃ draft, compile t = .ok draft ∧ ∀ table,
      Meets (fun _ => True) (Excused table t.hasNegation) (resolve table draft) := by
  obtain ⟨w, hw⟩ := ofFilter_total shapes
  refine ⟨w.toJson, by rw [compile, hw]; rfl, fun table => ?_⟩
  exact Where.resolve_toJson (Where.ofFilter_formed (fun h => h) unmarked hw)

/-- **One format of envelopes.**  A filter whose comparisons are well shaped and whose names are no markers
is compiled for both targets with envelopes.  Whatever operators the tables have, what is compiled is never
taken for an envelope out of format: for Sequelize the only error is an operator that the table lacks, and
for TypeORM it is that or, if there is a negation in the filter, one that TypeORM has no form for. -/
theorem resolve_compile_never_invalid {t : Filter}
    (shapes : ∀ c ∈ t.comparisons, c.2.1.accepts c.2.2 = true)
    (unmarked : ∀ c ∈ t.comparisons, ∀ key ∈ fieldPath c.1, key ∉ TypeOrm.markers) :
    (∃ draft, Sequelize.compile t = .ok draft ∧ ∀ table error,
      Sequelize.resolve table draft = .error error →
        ∃ name, error = .missingOperator .sequelize name ∧ table.symbols.lookup name = none) ∧
    (∃ draft, TypeOrm.compile t = .ok draft ∧ ∀ table error,
      TypeOrm.resolve table draft = .error error →
        (∃ name, error = .missingOperator .typeOrm name ∧ table.functions.lookup name = none) ∨
          (t.hasNegation = true ∧ ∃ cause, error = .unsupported .typeOrm cause)) := by
  constructor
  · obtain ⟨draft, hdraft, h⟩ :=
      Sequelize.compile_resolvable shapes fun c hc => ne_logicalMarker (unmarked c hc)
    exact ⟨draft, hdraft, fun table error herror => (h table).whole.error herror⟩
  · obtain ⟨draft, hdraft, h⟩ := TypeOrm.compile_meets shapes unmarked
    refine ⟨draft, hdraft, fun table error herror => ?_⟩
    have hexcused := (h table).error herror
    cases error with
    | missingOperator target name =>
      obtain ⟨rfl, hlookup⟩ := hexcused
      exact .inl ⟨name, rfl, hlookup⟩
    | unsupported target cause =>
      obtain ⟨rfl, hneg⟩ := hexcused
      exact .inr ⟨hneg, cause, rfl⟩
    | invalid target cause => exact hexcused.elim

/-- A condition and a relation meet under one key, and the negation is about both. -/
def meetingUnderOneKey : Filter :=
  .and
    (.not (.and (.comparison "a" .eq (.scalar (.int 1)))
      (.comparison "a.b" .between (.range .null (.int 5)))))
    (.comparison "a" .isIn (.list [.str "x"]))

theorem resolve_compile_never_invalid_meetingUnderOneKey :
    (∀ c ∈ meetingUnderOneKey.comparisons, c.2.1.accepts c.2.2 = true) ∧
    (∀ c ∈ meetingUnderOneKey.comparisons, ∀ key ∈ fieldPath c.1, key ∉ TypeOrm.markers) ∧
    (∃ draft, Sequelize.compile meetingUnderOneKey = .ok draft ∧ ∀ table error,
      Sequelize.resolve table draft = .error error →
        ∃ name, error = .missingOperator .sequelize name ∧ table.symbols.lookup name = none) ∧
    (∃ draft, TypeOrm.compile meetingUnderOneKey = .ok draft ∧ ∀ table error,
      TypeOrm.resolve table draft = .error error →
        (∃ name, error = .missingOperator .typeOrm name ∧ table.functions.lookup name = none) ∨
          (meetingUnderOneKey.hasNegation = true ∧
            ∃ cause, error = .unsupported .typeOrm cause)) :=
  ⟨by decide, by decide, resolve_compile_never_invalid (by decide) (by decide)⟩

end FilterLang
