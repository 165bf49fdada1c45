import FilterLang.Envelope.Sequelize
import FilterLang.Proofs.Filter.RoundTrip
import FilterLang.Proofs.Json.Members
import FilterLang.Proofs.Json.Reading
import FilterLang.Proofs.Json.Values
import FilterLang.Proofs.Outcome
import FilterLang.Target.Sequelize

/-!
# Sequelize filters match what the filter says

A filter is compiled to envelopes, and the envelopes are opened with the symbols of a table.  Nothing is
known of the symbols but that each name has one, that no two names share one, and that none of them is a
field of the filter; so whoever has the table can read the opened filter.

The two steps meet in the envelopes.  `Opens` says of a compiled document what comes out of it: as a whole,
and as what it brings to a group of either connective, because groups are joined before they are opened.
-/

namespace FilterLang.Sequelize

/-! ## Reading -/

/-- A record, given by its answers to operators: the field, the name of the operator, and what it compares
with. -/
abbrev Record := String → String → Json → Bool

namespace SymbolTable

variable (table : SymbolTable)

/-- The name that a symbol stands for. -/
def nameOf? (symbol : String) : Option String :=
  names.find? fun name => table.symbols.lookup name = some symbol

/-- Every name has a symbol, and no two names share one. -/
structure Legible : Prop where
  total : ∀ name ∈ names, (table.symbols.lookup name).isSome = true
  distinct : ∀ name ∈ names, ∀ other ∈ names,
    table.symbols.lookup name = table.symbols.lookup other → name = other

/-- The connectives among the symbols. -/
def role (key : String) : Role :=
  if table.nameOf? key = some "and" then .all
  else if table.nameOf? key = some "or" then .any
  else if table.nameOf? key = some "not" then .not
  else .field

/-- Both bounds of a range. -/
def boundsHold (answer : String → Json → Bool) : Json → Bool
  | .arr [lower, upper] => answer "gte" lower && answer "lte" upper
  | _ => false

/-- What a symbol and its value say of a field. -/
def symbolHolds (answer : String → Json → Bool) (symbol : String) (value : Json) : Bool :=
  match table.nameOf? symbol with
  | some name => if name = "between" then boundsHold answer value else answer name value
  | none => false

/-- What an opened condition says of a field: its symbols all have to hold, and a plain value has to be
equal. -/
def conditionHolds (answer : String → Json → Bool) : Json → Bool
  | .obj members => members.all fun member => table.symbolHolds answer member.1 member.2
  | value => answer "eq" value

/-- The reading of opened filters that goes with the answers of a record. -/
def reader (record : Record) : Reader :=
  ⟨table.role, fun field condition => table.conditionHolds (record field) condition⟩

end SymbolTable

section

variable (record : Record)

/-- The record matches the filter that was opened with the table. -/
def Record.matchesFilter (table : SymbolTable) (document : Json) : Bool :=
  (table.reader record).holds document

/-- A comparison of a field.  A range is the bounds that it sets, and a text is searched for by a
pattern. -/
def comparisonHolds (field : String) : Operator → Value → Bool
  | .between, .range lower upper => rangeHolds (record field "gte") (record field "lte") lower upper
  | .contains, value => record field "like" (.str ("%" ++ searchedText value.toJson ++ "%"))
  | .startsWith, value => record field "like" (.str (searchedText value.toJson ++ "%"))
  | .endsWith, value => record field "like" (.str ("%" ++ searchedText value.toJson))
  | op, value => record field op.name value.toJson

/-- The record satisfies the filter. -/
def Record.satisfies (t : Filter) : Bool := t.eval .twoValued (comparisonHolds record)

end

variable {table : SymbolTable}

/-! ## Symbols -/

/-- The symbol of a name stands for the name. -/
lemma SymbolTable.Legible.exists_symbol (legible : table.Legible) {name : String}
    (h : name ∈ SymbolTable.names) :
    ∃ symbol, table.nameOf? symbol = some name ∧
      ∀ value, table.keyed name value = .ok (.single symbol value) := by
  obtain ⟨symbol, hsymbol⟩ := Option.isSome_iff_exists.1 (legible.total name h)
  refine ⟨symbol, ?_, fun value => by rw [SymbolTable.keyed, hsymbol]⟩
  have hfind : ∃ other, table.nameOf? symbol = some other := by
    rw [← Option.isSome_iff_exists, SymbolTable.nameOf?, List.find?_isSome]
    exact ⟨name, h, by simpa using hsymbol⟩
  obtain ⟨other, hother⟩ := hfind
  have hlookup : table.symbols.lookup other = some symbol := by
    simpa using List.find?_some hother
  have hsame := legible.distinct name h other (List.mem_of_find?_eq_some hother)
    (hsymbol.trans hlookup.symm)
  rw [hother, hsame]

lemma nameOf?_eq_none {field : String}
    (h : ∀ name ∈ SymbolTable.names, table.symbols.lookup name ≠ some field) :
    table.nameOf? field = none := by
  rw [SymbolTable.nameOf?, List.find?_eq_none]
  intro name hname
  simpa using h name hname

lemma conditionHolds_single {answer : String → Json → Bool} {symbol name : String}
    (h : table.nameOf? symbol = some name) (hname : name ≠ "between") (value : Json) :
    table.conditionHolds answer (.single symbol value) = answer name value := by
  simp [SymbolTable.conditionHolds, Json.single, SymbolTable.symbolHolds, h, hname]

lemma conditionHolds_between {answer : String → Json → Bool} {symbol : String}
    (h : table.nameOf? symbol = some "between") (lower upper : Json) :
    table.conditionHolds answer (.single symbol (.arr [lower, upper])) =
      (answer "gte" lower && answer "lte" upper) := by
  simp [SymbolTable.conditionHolds, Json.single, SymbolTable.symbolHolds, SymbolTable.boundsHold, h]

/-! ## Conditions -/

/-- An opened condition, or nothing, says what the comparison of its field says. -/
def Says (table : SymbolTable) (field : String) (op : Operator) (value : Value) (opened : Option Json) :
    Prop :=
  ∀ record : Record, (opened.all fun condition => table.conditionHolds (record field) condition) =
    comparisonHolds record field op value

lemma ofName?_name (op : Operator) : Operator.ofName? op.name = some op := by
  cases op <;> rfl

/-- A value under a symbol, as it is when the name has one. -/
lemma keyed_says (legible : table.Legible) {field name : String} {op : Operator} {value : Value}
    {document : Json} (h : name ∈ SymbolTable.names) (hname : name ≠ "between")
    (hmeans : ∀ record : Record, record field name document = comparisonHolds record field op value) :
    ∃ opened, (table.keyed name document >>= fun condition => .ok (some condition)) = .ok opened ∧
      Says table field op value opened := by
  obtain ⟨symbol, hsymbol, hkeyed⟩ := legible.exists_symbol h
  refine ⟨some (.single symbol document), by rw [hkeyed]; rfl, fun record => ?_⟩
  rw [← hmeans record, Option.all_some, conditionHolds_single hsymbol hname]

/-- A range is opened to the operator that fits the bounds it sets. -/
lemma openOperator_between (legible : table.Legible) (field : String) {lower upper : Scalar}
    (hlower : lower.isFinite = true) (hupper : upper.isFinite = true) :
    ∃ opened, openOperator table .between (Value.range lower upper).toJson = .ok opened ∧
      Says table field .between (.range lower upper) opened := by
  have hholds : ∀ record : Record, comparisonHolds record field .between (.range lower upper) =
      rangeHolds (record field "gte") (record field "lte") lower upper := fun _ => rfl
  unfold openOperator
  dsimp only
  rw [rangeBounds?_toJson hlower hupper]
  cases hl : lower.bound? with
  | none =>
    cases hu : upper.bound? with
    | none =>
      -- Neither bound is set, and no condition is left.
      exact ⟨none, rfl, fun record => by simp [hholds, rangeHolds, hl, hu]⟩
    | some bound =>
      refine keyed_says legible (by decide) (by decide) fun record => ?_
      simp [hholds, rangeHolds, hl, hu]
  | some bound =>
    cases hu : upper.bound? with
    | none =>
      refine keyed_says legible (by decide) (by decide) fun record => ?_
      simp [hholds, rangeHolds, hl, hu]
    | some other =>
      obtain ⟨symbol, hsymbol, hkeyed⟩ :=
        legible.exists_symbol (show "between" ∈ SymbolTable.names by decide)
      refine ⟨some (.single symbol (.arr [bound.toJson, other.toJson])), ?_, fun record => ?_⟩
      · exact congrArg (· >>= fun condition => Except.ok (some condition)) (hkeyed _)
      · rw [Option.all_some, conditionHolds_between hsymbol, hholds]
        simp [rangeHolds, hl, hu]

/-- The operators other than equality, opened. -/
lemma openOperator_says (legible : table.Legible) (field : String) {op : Operator} {value : Value}
    (hop : op ≠ .eq) (accepts : op.accepts value = true) (finite : value.isFinite = true) :
    ∃ opened, openOperator table op value.toJson = .ok opened ∧ Says table field op value opened := by
  cases op with
  | eq => exact absurd rfl hop
  | between =>
    cases value with
    | range lower upper =>
      simp only [Value.isFinite, Value.literals, List.all_cons, List.all_nil, Bool.and_true,
        Bool.and_eq_true] at finite
      exact openOperator_between legible field finite.1 finite.2
    | scalar | list => exact absurd accepts (by simp [Operator.accepts])
  | _ => exact keyed_says legible (by decide) (by decide) fun record => rfl

lemma openCondition_envelope (op : Operator) (value : Json) :
    openCondition table (envelope op.name value) = openOperator table op value := by
  have hname : (Json.str op.name).asStr?.bind Operator.ofName? = some op := ofName?_name op
  have hmarker : (envelope op.name value).get? operatorMarker = some (.str op.name) := rfl
  have hvalue : ((envelope op.name value).get? "value").getD .null = value := rfl
  unfold openCondition
  rw [hmarker]
  dsimp only
  rw [hname, hvalue]

/-- A plain value is no envelope. -/
lemma openCondition_toJson (value : Value) :
    openCondition table value.toJson = .ok (some value.toJson) := by
  have hvalue := toJson_ne_obj value
  revert hvalue
  cases value.toJson with
  | obj members => exact fun h => absurd rfl (h members)
  | _ => exact fun _ => rfl

lemma conditionHolds_toJson (answer : String → Json → Bool) (value : Value) :
    table.conditionHolds answer value.toJson = answer "eq" value.toJson := by
  have hvalue := toJson_ne_obj value
  revert hvalue
  cases value.toJson with
  | obj members => exact fun h => absurd rfl (h members)
  | _ => exact fun _ => rfl

/-- The condition of a comparison, opened. -/
lemma openCondition_says (legible : table.Legible) (field : String) {op : Operator} {value : Value}
    (accepts : op.accepts value = true) (finite : value.isFinite = true) :
    ∃ opened, openCondition table (enveloped op value) = .ok opened ∧
      Says table field op value opened := by
  by_cases hop : op = .eq
  · subst hop
    refine ⟨some value.toJson, openCondition_toJson value, fun record => ?_⟩
    rw [Option.all_some, conditionHolds_toJson]
    rfl
  · rw [enveloped_of_ne hop, openCondition_envelope]
    exact openOperator_says legible field hop accepts finite

/-! ## Groups -/

/-- What comes out of a compiled document: a filter that says the same, and filters that say the same in a
group of either connective. -/
structure Opens (table : SymbolTable) (t : Filter) (document : Json) : Prop where
  whole : ∃ members, resolve table document = .ok (.obj members) ∧
    ∀ record : Record, (table.reader record).membersHold members = record.satisfies t
  parts : ∀ kind, ∃ filters, resolveAll table (conditions kind document) = .ok filters ∧
    ∀ record : Record, (table.reader record).listHolds kind filters = record.satisfies t

lemma resolveAll_append_eq (left right : List Json) :
    resolveAll table (left ++ right) = do
      return (← resolveAll table left) ++ (← resolveAll table right) := by
  induction left with
  | nil =>
    rw [resolveAll, ok_bind, List.nil_append]
    cases resolveAll table right <;> rfl
  | cons filter rest ih =>
    rw [List.cons_append, resolveAll, resolveAll, ih]
    cases resolve table filter with
    | error e => rfl
    | ok first =>
      cases resolveAll table rest with
      | error e => rfl
      | ok more => cases resolveAll table right <;> rfl

lemma resolveAll_append {left right ls rs : List Json} (hl : resolveAll table left = .ok ls)
    (hr : resolveAll table right = .ok rs) : resolveAll table (left ++ right) = .ok (ls ++ rs) := by
  rw [resolveAll_append_eq, hl, hr]
  rfl

/-- A document that brings itself to a group. -/
lemma resolveAll_self {t : Filter} {document : Json} {members : Members}
    (hresolve : resolve table document = .ok (.obj members))
    (hholds : ∀ record : Record, (table.reader record).membersHold members = record.satisfies t)
    (kind : Connective) :
    ∃ filters, resolveAll table [document] = .ok filters ∧
      ∀ record : Record, (table.reader record).listHolds kind filters = record.satisfies t := by
  refine ⟨[.obj members], ?_, fun record => ?_⟩
  · rw [resolveAll, hresolve]
    rfl
  · rw [Reader.listHolds_singleton, Reader.holds, hholds record]

lemma conditions_of_lookup_eq_none {members : Members} (kind : Connective)
    (h : members.lookup logicalMarker = none) : conditions kind (.obj members) = [.obj members] := by
  simp [conditions, groupConditions?, Json.get?, h]

lemma conditions_group (kind : Connective) (items : List Json) :
    conditions kind (group kind items) = items := by
  cases kind <;> rfl

lemma conditions_group_of_ne {kind other : Connective} (h : kind ≠ other) (items : List Json) :
    conditions kind (group other items) = [group other items] := by
  cases kind <;> cases other <;> first | contradiction | rfl

lemma name_mem_names (kind : Connective) : kind.name ∈ SymbolTable.names := by
  cases kind <;> decide

lemma resolve_group {kind : Connective} {items filters : List Json}
    (h : resolveAll table items = .ok filters) :
    resolve table (group kind items) = table.keyed kind.name (.arr filters) := by
  have hconditions : ∀ name, resolveConditions table name
      [(logicalMarker, .str kind.name), ("conditions", .arr items)] = .ok filters := by
    intro name
    exact h
  cases kind with
  | and => exact congrArg (· >>= fun fs => table.keyed "and" (.arr fs)) (hconditions "and")
  | or => exact congrArg (· >>= fun fs => table.keyed "or" (.arr fs)) (hconditions "or")

/-- A list under the symbol of a connective. -/
lemma memberHolds_connective (record : Record) {kind : Connective} {symbol : String}
    (h : table.nameOf? symbol = some kind.name) (filters : List Json) :
    (table.reader record).memberHolds symbol (.arr filters) =
      (table.reader record).listHolds kind filters := by
  cases kind with
  | and =>
    have hrole : table.role symbol = .all := if_pos h
    exact Reader.memberHolds_all hrole filters
  | or =>
    have hrole : table.role symbol = .any := by simp [SymbolTable.role, h, Connective.name]
    exact Reader.memberHolds_any hrole filters

/-- Filters under the symbol of their connective. -/
lemma Opens.group (legible : table.Legible) {kind : Connective} {left right : Filter} {dl dr : Json}
    (hl : Opens table left dl) (hr : Opens table right dr) :
    Opens table (.logical kind left right)
      (Sequelize.group kind (conditions kind dl ++ conditions kind dr)) := by
  obtain ⟨ls, hls, hholdsl⟩ := hl.parts kind
  obtain ⟨rs, hrs, hholdsr⟩ := hr.parts kind
  have hall := resolveAll_append hls hrs
  have hjoined : ∀ record : Record, (table.reader record).listHolds kind (ls ++ rs) =
      record.satisfies (.logical kind left right) := by
    intro record
    rw [Reader.listHolds_append, hholdsl record, hholdsr record]
    rfl
  obtain ⟨symbol, hsymbol, hkeyed⟩ := legible.exists_symbol (name_mem_names kind)
  have hresolve : resolve table (Sequelize.group kind (conditions kind dl ++ conditions kind dr)) =
      .ok (.obj [(symbol, .arr (ls ++ rs))]) := (resolve_group hall).trans (hkeyed _)
  have hholds : ∀ record : Record, (table.reader record).membersHold [(symbol, .arr (ls ++ rs))] =
      record.satisfies (.logical kind left right) := by
    intro record
    rw [Reader.membersHold, Reader.membersHold, Bool.and_true, memberHolds_connective record hsymbol,
      hjoined record]
  refine ⟨⟨_, hresolve, hholds⟩, fun other => ?_⟩
  -- A group of the same connective gives way to its filters; any other one is taken as it is.
  by_cases hkind : other = kind
  · subst hkind
    exact ⟨ls ++ rs, by rw [conditions_group, hall], hjoined⟩
  · rw [conditions_group_of_ne hkind]
    exact resolveAll_self hresolve hholds other

/-- A filter under the symbol of a negation. -/
lemma Opens.not (legible : table.Legible) {t : Filter} {document : Json} (h : Opens table t document) :
    Opens table (.not t) (.obj [(logicalMarker, .str "not"), ("condition", document)]) := by
  obtain ⟨members, hmembers, hholds⟩ := h.whole
  obtain ⟨symbol, hsymbol, hkeyed⟩ :=
    legible.exists_symbol (show "not" ∈ SymbolTable.names by decide)
  have hcondition : resolveCondition table [(logicalMarker, .str "not"), ("condition", document)] =
      .ok (.obj members) := by
    rw [resolveCondition, if_neg (by decide), resolveCondition, if_pos rfl, hmembers]
  have hresolve : resolve table (.obj [(logicalMarker, .str "not"), ("condition", document)]) =
      .ok (.obj [(symbol, .obj members)]) :=
    (congrArg (· >>= fun filter => table.keyed "not" filter) hcondition).trans (hkeyed _)
  have hnegated : ∀ record : Record, (table.reader record).membersHold [(symbol, .obj members)] =
      record.satisfies (.not t) := by
    intro record
    have hrole : table.role symbol = .not := by simp [SymbolTable.role, hsymbol]
    rw [Reader.membersHold, Reader.membersHold, Bool.and_true, Reader.memberHolds_not hrole,
      hholds record]
    rfl
  refine ⟨⟨_, hresolve, hnegated⟩, fun kind => ?_⟩
  have hself : conditions kind (.obj [(logicalMarker, .str "not"), ("condition", document)]) =
      [.obj [(logicalMarker, .str "not"), ("condition", document)]] := by
    cases kind <;> rfl
  rw [hself]
  exact resolveAll_self hresolve hnegated kind

/-- A comparison of a field that is neither a marker nor a symbol. -/
lemma Opens.comparison (legible : table.Legible) {field : String} {op : Operator} {value : Value}
    (accepts : op.accepts value = true) (finite : value.isFinite = true) (marker : field ≠ logicalMarker)
    (fresh : ∀ name ∈ SymbolTable.names, table.symbols.lookup name ≠ some field) :
    Opens table (.comparison field op value) (.single field (enveloped op value)) := by
  have hlookup : List.lookup logicalMarker [(field, enveloped op value)] = none :=
    lookup_cons_of_ne (Ne.symm marker)
  obtain ⟨opened, hopened, hmeans⟩ := openCondition_says legible field accepts finite
  have hrole : ∀ record : Record, (table.reader record).role field = .field := by
    intro record
    have hname := nameOf?_eq_none fresh
    simp [SymbolTable.reader, SymbolTable.role, hname]
  have hwhole : ∃ members, resolve table (.single field (enveloped op value)) = .ok (.obj members) ∧
      ∀ record : Record, (table.reader record).membersHold members =
        record.satisfies (.comparison field op value) := by
    have hsatisfies : ∀ record : Record, record.satisfies (.comparison field op value) =
        opened.all fun condition => table.conditionHolds (record field) condition :=
      fun record => (hmeans record).symm
    rw [Json.single, resolve, hlookup]
    simp only [openFields, hopened]
    cases opened with
    | none => exact ⟨[], rfl, fun record => (hsatisfies record).symm⟩
    | some condition =>
      refine ⟨[(field, condition)], rfl, fun record => ?_⟩
      rw [hsatisfies record, Reader.membersHold, Reader.membersHold, Bool.and_true,
        Reader.memberHolds_field (hrole record)]
      rfl
  refine ⟨hwhole, fun kind => ?_⟩
  obtain ⟨members, hresolve, hholds⟩ := hwhole
  rw [Json.single, conditions_of_lookup_eq_none kind hlookup]
  exact resolveAll_self hresolve hholds kind

/-! ## Filters -/

lemma exists_opens {t : Filter} (shapes : ∀ c ∈ t.comparisons, c.2.1.accepts c.2.2 = true)
    (finite : t.isFinite = true) (unmarked : ∀ c ∈ t.comparisons, c.1 ≠ logicalMarker)
    (legible : table.Legible)
    (fresh : ∀ c ∈ t.comparisons, ∀ name ∈ SymbolTable.names,
      table.symbols.lookup name ≠ some c.1) :
    ∃ draft, compile t = .ok draft ∧ Opens table t draft := by
  induction t with
  | comparison field op value =>
    have hmem : (field, op, value) ∈ (Filter.comparison field op value).comparisons := by
      simp [Filter.comparisons]
    have hshape : checkShape field op value = .ok () := if_pos (shapes _ hmem)
    refine ⟨_, by rw [compile, hshape]; rfl, ?_⟩
    exact .comparison legible (shapes _ hmem) (by simpa using finite) (unmarked _ hmem)
      (fresh _ hmem)
  | logical kind left right ihleft ihright =>
    simp only [Filter.comparisons, List.mem_append] at shapes unmarked fresh
    rw [Filter.isFinite_logical, Bool.and_eq_true] at finite
    obtain ⟨dl, hdl, hl⟩ := ihleft (fun c hc => shapes c (.inl hc)) finite.1
      (fun c hc => unmarked c (.inl hc)) fun c hc => fresh c (.inl hc)
    obtain ⟨dr, hdr, hr⟩ := ihright (fun c hc => shapes c (.inr hc)) finite.2
      (fun c hc => unmarked c (.inr hc)) fun c hc => fresh c (.inr hc)
    exact ⟨_, by rw [compile, hdl, hdr]; rfl, hl.group legible hr⟩
  | not child ih =>
    obtain ⟨draft, hdraft, h⟩ := ih shapes finite unmarked fresh
    exact ⟨_, by rw [compile, hdraft]; rfl, h.not legible⟩

/-- **Sequelize filters match what the filter says.**  Take a filter whose values are of the kinds that its
operators take, whose numbers are finite and whose fields are not the marker of a connective, and a table in
which every name has a symbol of its own that is no field of the filter.  The filter is compiled, its
envelopes are opened, and a record matches what comes out if and only if it satisfies the filter. -/
theorem compile_resolve_faithful {t : Filter} {table : SymbolTable}
    (shapes : ∀ c ∈ t.comparisons, c.2.1.accepts c.2.2 = true) (finite : t.isFinite = true)
    (unmarked : ∀ c ∈ t.comparisons, c.1 ≠ logicalMarker) (legible : table.Legible)
    (fresh : ∀ c ∈ t.comparisons, ∀ name ∈ SymbolTable.names,
      table.symbols.lookup name ≠ some c.1) :
    ∃ draft f, compile t = .ok draft ∧ resolve table draft = .ok f ∧
      ∀ record : Record, record.matchesFilter table f = true ↔ record.satisfies t = true := by
  obtain ⟨draft, hdraft, h⟩ := exists_opens shapes finite unmarked legible fresh
  obtain ⟨members, hresolve, hholds⟩ := h.whole
  refine ⟨draft, .obj members, hdraft, hresolve, fun record => ?_⟩
  rw [Record.matchesFilter, Reader.holds, hholds record]

/-- Groups of both connectives inside each other, and ranges with open ends. -/
def mixedGroups : Filter :=
  .and
    (.and (.comparison "a.b" .gt (.scalar (.int 1)))
      (.not (.comparison "c" .between (.range .null .null))))
    (.or (.comparison "d" .startsWith (.scalar (.int 2)))
      (.or (.comparison "d" .between (.range (.int 3) .null))
        (.and (.comparison "a.b" .eq (.scalar .null))
          (.comparison "c" .between (.range (.int 4) (.int 5))))))

/-- The table with a symbol of its own for one name, opened groups side by side, and an empty object for
the range that is open on both sides. -/
theorem compile_resolve_faithful_mixedGroups :
    ∃ draft f, compile mixedGroups = .ok draft ∧
      resolve (SymbolTable.aliases.insert "and" "Symbol(and)") draft = .ok f ∧
      f = .single "Symbol(and)" (.arr [
        .single "a.b" (.single "$gt" (.int 1)),
        .single "$not" (.obj []),
        .single "$or" (.arr [
          .single "d" (.single "$like" (.str "2%")),
          .single "d" (.single "$gte" (.int 3)),
          .single "Symbol(and)" (.arr [
            .single "a.b" .null,
            .single "c" (.single "$between" (.arr [.int 4, .int 5]))])])]) ∧
      ∀ record : Record,
        record.matchesFilter (SymbolTable.aliases.insert "and" "Symbol(and)") f = true ↔
          record.satisfies mixedGroups = true := by
  obtain ⟨draft, f, hdraft, hf, h⟩ :=
    compile_resolve_faithful (t := mixedGroups)
      (by decide) (by decide) (by decide)
      (⟨by decide, by decide⟩ : (SymbolTable.aliases.insert "and" "Symbol(and)").Legible) (by decide)
  refine ⟨draft, f, hdraft, hf, ?_, h⟩
  cases hdraft
  cases hf
  rfl

end FilterLang.Sequelize
