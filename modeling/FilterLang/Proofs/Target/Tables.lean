import FilterLang.Proofs.Sequelize.Needs

/-!
# Tables of operators

Envelopes are opened with a table of operators that is put together on the side of the target.  This file
says what the table has to have, and what the rest of it can do.

* A compiled Sequelize filter can be opened if and only if the table has the symbols that can be read off the
  filter, and otherwise the error names one of them.
* More entries in a table, for either target, can only turn the error about a missing operator into something
  else.  This is about two runs on the same document, so it is proved for a relation between their outcomes
  (`Kept`), which the steps that look nothing up preserve.
-/

namespace FilterLang

variable {α β : Type}

/-- One table has all the entries of another: every name that the other has an entry for has the same one. -/
def Extends (entries larger : List (String × α)) : Prop :=
  ∀ name entry, entries.lookup name = some entry → larger.lookup name = some entry

/-- An entry for a new name leaves all the others. -/
lemma Extends.cons {entries : List (String × α)} {name : String} (h : entries.lookup name = none)
    (entry : α) : Extends entries ((name, entry) :: entries) := by
  intro other found hfound
  have hne : other ≠ name := by
    rintro rfl
    rw [h] at hfound
    cases hfound
  rw [List.lookup_cons, beq_false_of_ne hne]
  exact hfound

/-! ## Outcomes with two tables -/

/-- Two outcomes are the same, unless an operator was missing for the first. -/
inductive Kept : Except EnvelopeError α → Except EnvelopeError α → Prop
  | missing (target : EnvelopeTarget) (name : String) (y : Except EnvelopeError α) :
    Kept (.error (.missingOperator target name)) y
  | same (x : Except EnvelopeError α) : Kept x x

namespace Kept

variable {x y : Except EnvelopeError α}

lemma bind {f g : α → Except EnvelopeError β} (h : Kept x y) (hf : ∀ a, Kept (f a) (g a)) :
    Kept (x >>= f) (y >>= g) := by
  cases h with
  | missing target name => exact missing target name _
  | same =>
    cases x with
    | error e => exact same _
    | ok a => exact hf a

/-- A step that looks nothing up. -/
lemma map (h : Kept x y) (f : α → Except EnvelopeError β) : Kept (x >>= f) (y >>= f) :=
  h.bind fun a => same (f a)

lemma eq (h : Kept x y) (hx : ∀ target name, x ≠ .error (.missingOperator target name)) : y = x := by
  cases h with
  | missing target name => exact absurd rfl (hx target name)
  | same => rfl

end Kept

/-! ## Sequelize -/

namespace Sequelize

variable {table larger : SymbolTable}

lemma keyed_kept (h : Extends table.symbols larger.symbols) (name : String) (value : Json) :
    Kept (table.keyed name value) (larger.keyed name value) := by
  rw [SymbolTable.keyed]
  cases hsymbol : table.symbols.lookup name with
  | none => exact .missing _ _ _
  | some symbol =>
    rw [SymbolTable.keyed, h name symbol hsymbol]
    exact .same _

lemma openOperator_kept (h : Extends table.symbols larger.symbols) (op : Operator) (value : Json) :
    Kept (openOperator table op value) (openOperator larger op value) := by
  have hkeyed : ∀ name value, Kept (table.keyed name value >>= fun condition => pure (some condition))
      (larger.keyed name value >>= fun condition => pure (some condition)) :=
    fun name value => (keyed_kept h name value).map _
  cases op with
  | eq => exact .same _
  | between =>
    unfold openOperator
    dsimp only
    split
    · exact .same _
    · exact hkeyed _ _
    · exact hkeyed _ _
    · exact hkeyed _ _
    · exact .same _
  | _ => exact hkeyed _ _

lemma openCondition_kept (h : Extends table.symbols larger.symbols) (condition : Json) :
    Kept (openCondition table condition) (openCondition larger condition) := by
  unfold openCondition
  split
  · exact .same _
  · split
    · exact .same _
    · exact openOperator_kept h _ _

lemma openFields_kept (h : Extends table.symbols larger.symbols) (members : Members) :
    Kept (openFields table members) (openFields larger members) := by
  induction members with
  | nil => exact .same _
  | cons member rest ih =>
    exact (openCondition_kept h member.2).bind fun _ => ih.map _

-- The recursion is that of the definitions, and goes on inside the one member that holds the items of a group.
mutual

lemma resolve_kept (h : Extends table.symbols larger.symbols) : ∀ document : Json,
    Kept (resolve table document) (resolve larger document)
  | .obj members => by
    rw [resolve, resolve]
    split
    · exact (openFields_kept h members).map _
    · exact (resolveConditions_kept h "and" members).bind fun _ => keyed_kept h _ _
    · exact (resolveConditions_kept h "or" members).bind fun _ => keyed_kept h _ _
    · exact (resolveCondition_kept h members).bind fun _ => keyed_kept h _ _
    · exact .same _
  | .null | .bool _ | .int _ | .float _ | .str _ | .arr _ => .same _

lemma resolveConditions_kept (h : Extends table.symbols larger.symbols) (kind : String) :
    ∀ members : List (String × Json),
      Kept (resolveConditions table kind members) (resolveConditions larger kind members)
  | [] => .same _
  | (key, value) :: rest => by
    unfold resolveConditions
    split
    · match value with
      | .arr items => exact resolveAll_kept h items
      | .null | .bool _ | .int _ | .float _ | .str _ | .obj _ => exact .same _
    · exact resolveConditions_kept h kind rest

lemma resolveCondition_kept (h : Extends table.symbols larger.symbols) :
    ∀ members : List (String × Json),
      Kept (resolveCondition table members) (resolveCondition larger members)
  | [] => .same _
  | (key, value) :: rest => by
    rw [resolveCondition, resolveCondition]
    split
    · exact resolve_kept h value
    · exact resolveCondition_kept h rest

lemma resolveAll_kept (h : Extends table.symbols larger.symbols) : ∀ filters : List Json,
    Kept (resolveAll table filters) (resolveAll larger filters)
  | [] => .same _
  | filter :: rest => (resolve_kept h filter).bind fun _ => (resolveAll_kept h rest).map _

end

end Sequelize

/-! ## TypeORM -/

namespace TypeOrm

variable {table larger : FunctionTable}

lemma call_kept (h : Extends table.functions larger.functions) (name : String) (arguments : List Json) :
    Kept (table.call name arguments) (larger.call name arguments) := by
  rw [FunctionTable.call]
  cases hfunction : table.functions.lookup name with
  | none => exact .missing _ _ _
  | some function =>
    rw [FunctionTable.call, h name function hfunction]
    exact .same _

lemma callPlain_kept (h : Extends table.functions larger.functions) (value : Json) :
    Kept (callPlain table value) (callPlain larger value) := by
  cases value with
  | _ => exact call_kept h _ _

lemma callNot_kept (h : Extends table.functions larger.functions) (opened : Option Json) :
    Kept (callNot table opened) (callNot larger opened) := by
  cases opened with
  | none => exact .same _
  | some condition => exact (call_kept h _ _).map _

lemma callAnd_kept (h : Extends table.functions larger.functions) (conditions : List Json) :
    Kept (callAnd table conditions) (callAnd larger conditions) := by
  match conditions with
  | [] | [_] => exact .same _
  | _ :: _ :: _ => exact (call_kept h _ _).map _

lemma callOperator_kept (h : Extends table.functions larger.functions) (op : Operator) (value : Json) :
    Kept (callOperator table op value) (callOperator larger op value) := by
  have hcall : ∀ name arguments, Kept (table.call name arguments >>= fun call => pure (some call))
      (larger.call name arguments >>= fun call => pure (some call)) :=
    fun name arguments => (call_kept h name arguments).map _
  cases op with
  | eq => exact (callPlain_kept h value).map _
  | ne =>
    cases value with
    | null => exact (call_kept h _ _).bind fun _ => hcall _ _
    | _ => exact hcall _ _
  | notIn => exact (call_kept h _ _).bind fun _ => hcall _ _
  | between =>
    unfold callOperator
    dsimp only
    split
    · exact .same _
    · exact hcall _ _
    · exact hcall _ _
    · exact hcall _ _
    · exact .same _
  | _ => exact hcall _ _

mutual

lemma callForm_kept (h : Extends table.functions larger.functions) : ∀ document : Json,
    Kept (callForm table document) (callForm larger document)
  | .obj members => by
    rw [callForm, callForm]
    split
    · split
      · exact openNamed_kept h _ members
      · exact .same _
    · exact (callPlain_kept h _).map _
  | .null | .bool _ | .int _ | .float _ | .str _ | .arr _ => (callPlain_kept h _).map _

lemma openNamed_kept (h : Extends table.functions larger.functions) (name : String) :
    ∀ members : List (String × Json),
      Kept (openNamed table name members) (openNamed larger name members)
  | [] => by
    rw [openNamed, openNamed]
    split
    · exact (callPlain_kept h _).bind fun _ => callNot_kept h _
    · split
      · exact .same _
      · exact (Kept.same _).bind fun _ => callOperator_kept h _ _
  | (key, value) :: rest => by
    unfold openNamed
    split
    · exact openNamed_kept h name rest
    · split
      · exact (callForm_kept h value).bind fun _ => callNot_kept h _
      · split
        · match value with
          | .arr items => exact (callForms_kept h items).bind fun _ => callAnd_kept h _
          | .null | .bool _ | .int _ | .float _ | .str _ | .obj _ => exact .same _
        · refine (Kept.same _).bind fun op => ?_
          split
          · exact callForm_kept h value
          · exact callOperator_kept h op value

lemma callForms_kept (h : Extends table.functions larger.functions) : ∀ items : List Json,
    Kept (callForms table items) (callForms larger items)
  | [] => .same _
  | item :: rest => (callForm_kept h item).bind fun _ => (callForms_kept h rest).map _

end

lemma openCondition_kept (h : Extends table.functions larger.functions) (condition : Json) :
    Kept (openCondition table condition) (openCondition larger condition) := by
  cases condition with
  | null => exact (call_kept h _ _).map _
  | obj members =>
    unfold openCondition
    dsimp only
    split
    · exact openNamed_kept h _ members
    · exact .same _
  | _ => exact .same _

/-- The relations are opened with both tables, too. -/
lemma openMembers_kept (h : Extends table.functions larger.functions)
    {nested wider : Members → Except EnvelopeError Members}
    (hnested : ∀ members, Kept (nested members) (wider members)) (members : Members) :
    Kept (openMembers table nested members) (openMembers larger wider members) := by
  induction members with
  | nil => exact .same _
  | cons member rest ih =>
    obtain ⟨key, value⟩ := member
    cases hrelation : isRelation value with
    | false =>
      rw [openMembers_cons_condition hrelation, openMembers_cons_condition hrelation]
      exact (openCondition_kept h value).bind fun _ => ih.map _
    | true =>
      cases value with
      | obj inner =>
        rw [openMembers_cons_relation hrelation, openMembers_cons_relation hrelation]
        exact (hnested inner).bind fun _ => ih.map _
      | _ => cases hrelation

-- The negations are moved without the table, so both runs go on with the same members.
lemma resolveObject_kept (h : Extends table.functions larger.functions) (levels : Nat) (members : Members) :
    Kept (resolveObject table levels members) (resolveObject larger levels members) := by
  induction levels generalizing members with
  | zero => exact (Kept.same _).bind fun _ => openMembers_kept h (fun _ => .same _) _
  | succ levels ih => exact (Kept.same _).bind fun _ => openMembers_kept h ih _

lemma resolveBranch_kept (h : Extends table.functions larger.functions) (branch : Json) :
    Kept (resolveBranch table branch) (resolveBranch larger branch) := by
  cases branch with
  | obj members => exact (resolveObject_kept h _ members).map _
  | _ => exact .same _

lemma resolveBranches_kept (h : Extends table.functions larger.functions) (branches : List Json) :
    Kept (branches.mapM (resolveBranch table)) (branches.mapM (resolveBranch larger)) := by
  induction branches with
  | nil => exact .same _
  | cons branch rest ih =>
    rw [List.mapM_cons, List.mapM_cons]
    exact (resolveBranch_kept h branch).bind fun _ => ih.map _

lemma resolve_kept (h : Extends table.functions larger.functions) (filter : Json) :
    Kept (resolve table filter) (resolve larger filter) := by
  unfold resolve
  split
  · exact (resolveBranches_kept h _).map _
  · exact resolveBranch_kept h filter

end TypeOrm

/-! ## Both targets -/

/-- **What a table has to have.**  A filter whose comparisons are well shaped, whose numbers are finite and
whose fields are not the marker of a connective is compiled for Sequelize.  With any table, what is compiled
can be opened if and only if the table has a symbol for every name that the filter needs, and otherwise the
error is about a needed name that the table lacks.

More entries never change anything else: for both targets and every document, unless an operator was missing
from the table, opening the document with a larger table comes to the same. -/
theorem resolve_decided_by_needs :
    (∀ t : Filter, (∀ c ∈ t.comparisons, c.2.1.accepts c.2.2 = true) → t.isFinite = true →
      (∀ c ∈ t.comparisons, c.1 ≠ logicalMarker) →
      ∃ draft, Sequelize.compile t = .ok draft ∧ ∀ table : Sequelize.SymbolTable,
        ((∃ filter, Sequelize.resolve table draft = .ok filter) ↔
          ∀ name ∈ Sequelize.needs t, (table.symbols.lookup name).isSome = true) ∧
        ∀ error, Sequelize.resolve table draft = .error error →
          ∃ name ∈ Sequelize.needs t, table.symbols.lookup name = none ∧
            error = .missingOperator .sequelize name) ∧
    (∀ (document : Json) (table larger : Sequelize.SymbolTable),
      Extends table.symbols larger.symbols →
      (∀ target name, Sequelize.resolve table document ≠ .error (.missingOperator target name)) →
      Sequelize.resolve larger document = Sequelize.resolve table document) ∧
    ∀ (document : Json) (table larger : TypeOrm.FunctionTable),
      Extends table.functions larger.functions →
      (∀ target name, TypeOrm.resolve table document ≠ .error (.missingOperator target name)) →
      TypeOrm.resolve larger document = TypeOrm.resolve table document := by
  refine ⟨fun t shapes finite unmarked => ?_, fun document table larger h => ?_,
    fun document table larger h => ?_⟩
  · obtain ⟨draft, hdraft, huses⟩ := Sequelize.compile_uses shapes finite unmarked
    refine ⟨draft, hdraft, fun table => ⟨(huses table).whole.eq_ok_iff, fun error herror => ?_⟩⟩
    exact (huses table).whole.error herror
  · exact (Sequelize.resolve_kept h document).eq
  · exact (TypeOrm.resolve_kept h document).eq

/-- The symbols that `Sequelize.mixedGroups` needs, but for the one of its text search. -/
def withoutLike : Sequelize.SymbolTable :=
  ⟨[("and", "&"), ("or", "|"), ("not", "!"), ("gt", ">"), ("gte", ">="), ("between", "..")]⟩

/-- The function of equality alone. -/
def onlyEqual : TypeOrm.FunctionTable :=
  ⟨[("equal", fun arguments => .arr arguments)]⟩

/-- The error is about the text search.  With its symbol there is a filter, which one more symbol does not
change, and an envelope out of format stays one with one more function. -/
theorem resolve_decided_by_needs_mixedGroups :
    (∃ draft, Sequelize.compile Sequelize.mixedGroups = .ok draft ∧
      Sequelize.resolve withoutLike draft = .error (.missingOperator .sequelize "like") ∧
      (∃ filter, Sequelize.resolve (withoutLike.insert "like" "~") draft = .ok filter) ∧
      Sequelize.resolve ((withoutLike.insert "like" "~").insert "in" "#") draft =
        Sequelize.resolve (withoutLike.insert "like" "~") draft) ∧
    TypeOrm.resolve (onlyEqual.insert "like" fun _ => .null) (.single "a" (envelope "near" (.int 1))) =
      TypeOrm.resolve onlyEqual (.single "a" (envelope "near" (.int 1))) := by
  obtain ⟨needed, more, moreFunctions⟩ := resolve_decided_by_needs
  obtain ⟨draft, hdraft, h⟩ := needed Sequelize.mixedGroups (by decide) (by decide) (by decide)
  have hfull := (h (withoutLike.insert "like" "~")).1.2 (by decide)
  refine ⟨⟨draft, hdraft, ?_, hfull, more _ _ _ (.cons (by decide) _) ?_⟩,
    moreFunctions _ _ _ (.cons rfl _) nofun⟩
  · cases hlacking : Sequelize.resolve withoutLike draft with
    | ok filter => exact absurd ((h withoutLike).1.1 ⟨filter, hlacking⟩) (by decide)
    | error error =>
      obtain ⟨name, hname, habsent, rfl⟩ := (h withoutLike).2 error hlacking
      have hlike : ∀ name ∈ Sequelize.needs Sequelize.mixedGroups,
          withoutLike.symbols.lookup name = none → name = "like" := by decide
      rw [hlike name hname habsent]
  · obtain ⟨filter, hfilter⟩ := hfull
    rw [hfilter]
    exact fun _ _ => nofun

end FilterLang
