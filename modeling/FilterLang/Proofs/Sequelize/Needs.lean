import FilterLang.Proofs.Target.Envelopes

/-!
# The symbols that a filter needs

A table of symbols need not be complete.  What a filter needs of it can be read off the filter: the names of
its connectives and of its comparisons, where ranges and text searches go by other names than their own
(`needs`).

Opening the compiled filter looks the symbols up one after the other, deep inside the document and in groups
that have been joined.  `Requires` says of an outcome that it is decided by some names: there is a result if
the table has them all, and otherwise an error that names a missing one.
-/

namespace FilterLang.Sequelize

/-! ## Needs -/

/-- The name of the symbol that a comparison needs, if any. -/
def comparisonNeeds : Operator → Value → Option String
  | .eq, _ => none
  | .contains, _ | .startsWith, _ | .endsWith, _ => some "like"
  | .between, .range lower upper =>
    match lower.bound?, upper.bound? with
    | some _, some _ => some "between"
    | some _, none => some "gte"
    | none, some _ => some "lte"
    | none, none => none
  | op, _ => some op.name

/-- The names of the symbols that a filter needs. -/
def needs : Filter → List String
  | .comparison _ op value => (comparisonNeeds op value).toList
  | .logical kind left right => kind.name :: (needs left ++ needs right)
  | .not child => "not" :: needs child

/-- There is a result if the table has a symbol for every name, and else the error names one that it has no
symbol for. -/
def Requires {α : Type} (table : SymbolTable) (names : List String) (x : Except EnvelopeError α) : Prop :=
  Meets (fun _ => ∀ name ∈ names, (table.symbols.lookup name).isSome = true)
    (fun error => ∃ name ∈ names, table.symbols.lookup name = none ∧
      error = .missingOperator .sequelize name) x

variable {α β : Type} {table : SymbolTable} {names more : List String}

namespace Requires

lemma ok (a : α) : Requires table [] (.ok a) := by
  intro name hname
  cases hname

lemma keyed (name : String) (value : Json) : Requires table [name] (table.keyed name value) := by
  rw [SymbolTable.keyed]
  split
  · rename_i symbol hsymbol
    intro other hother
    rw [List.mem_singleton.1 hother, hsymbol]
    rfl
  · exact ⟨name, List.mem_singleton_self name, ‹_›, rfl⟩

lemma congr {x : Except EnvelopeError α} (h : Requires table names x)
    (hnames : ∀ name, name ∈ names ↔ name ∈ more) : Requires table more x := by
  cases x with
  | error e =>
    obtain ⟨name, hname, habsent, herror⟩ := h
    exact ⟨name, (hnames name).1 hname, habsent, herror⟩
  | ok a => exact fun name hname => h name ((hnames name).2 hname)

lemma bind {x : Except EnvelopeError α} {f : α → Except EnvelopeError β} (hx : Requires table names x)
    (hf : ∀ a, Requires table more (f a)) : Requires table (names ++ more) (x >>= f) := by
  cases x with
  | error e =>
    obtain ⟨name, hname, habsent, herror⟩ := hx
    exact ⟨name, List.mem_append_left more hname, habsent, herror⟩
  | ok a =>
    have hfa := hf a
    rw [ok_bind]
    cases hb : f a with
    | error e =>
      rw [hb] at hfa
      obtain ⟨name, hname, habsent, herror⟩ := hfa
      exact ⟨name, List.mem_append_right names hname, habsent, herror⟩
    | ok b =>
      rw [hb] at hfa
      exact fun name hname => (List.mem_append.1 hname).elim (hx name) (hfa name)

/-- A step that cannot fail needs nothing. -/
lemma map {x : Except EnvelopeError α} (hx : Requires table names x) (f : α → β) :
    Requires table names (x >>= fun a => .ok (f a)) := by
  have h := hx.bind fun a => ok (f a)
  rwa [List.append_nil] at h

lemma eq_ok_iff {x : Except EnvelopeError α} (h : Requires table names x) :
    (∃ a, x = .ok a) ↔ ∀ name ∈ names, (table.symbols.lookup name).isSome = true := by
  cases x with
  | ok a => exact ⟨fun _ => h, fun _ => ⟨a, rfl⟩⟩
  | error e =>
    obtain ⟨name, hname, habsent, -⟩ := h
    refine ⟨nofun, fun hall => ?_⟩
    have hpresent := hall name hname
    rw [habsent] at hpresent
    cases hpresent

end Requires

/-! ## Comparisons -/

/-- A range goes by the name that fits the ends it has. -/
lemma openOperator_between_requires {lower upper : Scalar} (hlower : lower.isFinite = true)
    (hupper : upper.isFinite = true) :
    Requires table (comparisonNeeds .between (.range lower upper)).toList
      (openOperator table .between (Value.range lower upper).toJson) := by
  unfold openOperator comparisonNeeds
  dsimp only
  rw [rangeBounds?_toJson hlower hupper]
  cases lower.bound? with
  | none =>
    cases upper.bound? with
    | none => exact .ok none
    | some bound => exact (Requires.keyed _ _).map some
  | some bound =>
    cases upper.bound? with
    | none => exact (Requires.keyed _ _).map some
    | some other => exact (Requires.keyed _ _).map some

lemma openOperator_requires {op : Operator} {value : Value} (hop : op ≠ .eq)
    (accepts : op.accepts value = true) (finite : value.isFinite = true) :
    Requires table (comparisonNeeds op value).toList (openOperator table op value.toJson) := by
  cases op with
  | eq => exact absurd rfl hop
  | between =>
    cases value with
    | scalar | list => cases accepts
    | range lower upper =>
      simp only [Value.isFinite, Value.literals, List.all_cons, List.all_nil, Bool.and_true,
        Bool.and_eq_true] at finite
      exact openOperator_between_requires finite.1 finite.2
  | _ => exact (Requires.keyed _ _).map some

lemma openCondition_requires {op : Operator} {value : Value} (accepts : op.accepts value = true)
    (finite : value.isFinite = true) :
    Requires table (comparisonNeeds op value).toList (openCondition table (enveloped op value)) := by
  by_cases hop : op = .eq
  · subst hop
    rw [enveloped, openCondition_toJson]
    exact .ok _
  · rw [enveloped_of_ne hop, openCondition_envelope]
    exact openOperator_requires hop accepts finite

/-! ## Groups -/

/-- A group of one document needs the name of its connective, and what the document needs. -/
lemma Requires.single {kind : Connective} {document : Json}
    (h : Requires table names (resolve table document)) :
    Requires table (kind.name :: names) (resolve table (group kind [document])) := by
  have hopened : Requires table names (resolveAll table [document]) := by
    rw [resolveAll]
    exact h.map fun filter => [filter]
  rw [resolve_group_eq]
  refine (hopened.bind fun filters => .keyed kind.name (.arr filters)).congr fun name => ?_
  rw [List.mem_append, List.mem_singleton, List.mem_cons, or_comm]

/-- Two groups of one connective, joined: the name of the connective is looked up once for both. -/
lemma Requires.joined {kind : Connective} {items others : List Json}
    (hl : Requires table (kind.name :: names) (resolve table (group kind items)))
    (hr : Requires table (kind.name :: more) (resolve table (group kind others))) :
    Requires table (kind.name :: (names ++ more)) (resolve table (group kind (items ++ others))) := by
  rw [resolve_group_eq] at hl hr ⊢
  rw [resolveAll_append_eq]
  cases hitems : resolveAll table items with
  | error e =>
    rw [hitems] at hl
    obtain ⟨name, hname, habsent, herror⟩ := hl
    exact ⟨name, List.cons_subset_cons _ (List.subset_append_left names more) hname, habsent, herror⟩
  | ok filters =>
    cases hothers : resolveAll table others with
    | error e =>
      rw [hothers] at hr
      obtain ⟨name, hname, habsent, herror⟩ := hr
      exact ⟨name, List.cons_subset_cons _ (List.subset_append_right names more) hname, habsent, herror⟩
    | ok rest =>
      -- Both groups opened, so only the symbol of the connective decides.
      rw [hitems, ok_bind, SymbolTable.keyed] at hl
      rw [hothers, ok_bind, SymbolTable.keyed] at hr
      change Requires table _ (table.keyed kind.name (.arr (filters ++ rest)))
      rw [SymbolTable.keyed]
      cases hsymbol : table.symbols.lookup kind.name with
      | none => exact ⟨kind.name, List.mem_cons_self, hsymbol, rfl⟩
      | some symbol =>
        rw [hsymbol] at hl hr
        intro name hname
        obtain rfl | hname := List.mem_cons.1 hname
        · exact hl _ List.mem_cons_self
        · exact (List.mem_append.1 hname).elim (fun h => hl name (List.mem_cons_of_mem _ h))
            fun h => hr name (List.mem_cons_of_mem _ h)

/-- A compiled document needs some names, and what it brings to a group needs no others but the name of the
connective. -/
structure Uses (table : SymbolTable) (names : List String) (document : Json) : Prop where
  whole : Requires table names (resolve table document)
  grouped : ∀ kind : Connective,
    Requires table (kind.name :: names) (resolve table (group kind (conditions kind document)))

namespace Uses

variable {left right document : Json}

/-- A document that is no group brings itself. -/
lemma of_whole (hself : ∀ kind, conditions kind document = [document])
    (h : Requires table names (resolve table document)) : Uses table names document := by
  refine ⟨h, fun kind => ?_⟩
  rw [hself kind]
  exact h.single

lemma comparison {field : String} {op : Operator} {value : Value} (hfield : field ≠ logicalMarker)
    (accepts : op.accepts value = true) (finite : value.isFinite = true) :
    Uses table (comparisonNeeds op value).toList (.single field (enveloped op value)) := by
  have hlookup : List.lookup logicalMarker [(field, enveloped op value)] = none :=
    lookup_cons_of_ne (Ne.symm hfield)
  refine of_whole (fun kind => conditions_of_lookup_eq_none kind hlookup) ?_
  rw [Json.single, resolve, hlookup]
  exact ((openCondition_requires accepts finite).map _).map _

lemma group {kind : Connective} (hl : Uses table names left) (hr : Uses table more right) :
    Uses table (kind.name :: (names ++ more))
      (group kind (conditions kind left ++ conditions kind right)) := by
  have hwhole := (hl.grouped kind).joined (hr.grouped kind)
  refine ⟨hwhole, fun outer => ?_⟩
  by_cases hkind : outer = kind
  · subst hkind
    rw [conditions_group]
    exact hwhole.congr fun name => by simp
  · rw [conditions_group_of_ne hkind]
    exact hwhole.single

lemma not (h : Uses table names document) :
    Uses table ("not" :: names) (.obj [(logicalMarker, .str "not"), ("condition", document)]) := by
  refine of_whole (fun kind => by cases kind <;> rfl) ?_
  have hkeyed : Requires table (names ++ ["not"])
      (resolve table document >>= fun filter => table.keyed "not" filter) :=
    h.whole.bind fun filter => .keyed "not" filter
  refine hkeyed.congr fun name => ?_
  rw [List.mem_append, List.mem_singleton, List.mem_cons, or_comm]

end Uses

/-! ## Filters -/

/-- The compiled filter needs the symbols that can be read off the filter. -/
lemma compile_uses {t : Filter} (shapes : ∀ c ∈ t.comparisons, c.2.1.accepts c.2.2 = true)
    (finite : t.isFinite = true) (unmarked : ∀ c ∈ t.comparisons, c.1 ≠ logicalMarker) :
    ∃ draft, compile t = .ok draft ∧ ∀ table, Uses table (needs t) draft := by
  induction t with
  | comparison field op value =>
    have hmem : (field, op, value) ∈ (Filter.comparison field op value).comparisons := by
      simp [Filter.comparisons]
    have hshape : checkShape field op value = .ok () := if_pos (shapes _ hmem)
    refine ⟨_, by rw [compile, hshape]; rfl, fun _ => ?_⟩
    exact .comparison (unmarked _ hmem) (shapes _ hmem) (by simpa using finite)
  | logical kind left right ihleft ihright =>
    simp only [Filter.comparisons, List.mem_append] at shapes unmarked
    rw [Filter.isFinite_logical, Bool.and_eq_true] at finite
    obtain ⟨dl, hdl, hl⟩ := ihleft (fun c hc => shapes c (.inl hc)) finite.1
      fun c hc => unmarked c (.inl hc)
    obtain ⟨dr, hdr, hr⟩ := ihright (fun c hc => shapes c (.inr hc)) finite.2
      fun c hc => unmarked c (.inr hc)
    exact ⟨_, by rw [compile, hdl, hdr]; rfl, fun table => (hl table).group (hr table)⟩
  | not child ih =>
    obtain ⟨draft, hdraft, h⟩ := ih shapes finite unmarked
    exact ⟨_, by rw [compile, hdraft]; rfl, fun table => (h table).not⟩

end FilterLang.Sequelize
