import FilterLang.Proofs.TypeOrm.Faithful
import FilterLang.Proofs.TypeOrm.Paths

/-!
# Markers after opening

Opening the envelopes of a filter should leave none of them behind.  This holds for all filters on given
fields if and only if no field leads on from another (`resolve_unmarked_iff_prefixFree`).

One direction is part of what the draft relations say.  For the other, take a field `a` and a field `b`
that leads on from it.  The conditions of `b gt 1 and a eq 2` meet under the last key of `a`, where the
object that leads on to `b` is taken for a value to compare with, and the envelope inside it stays.
-/

namespace FilterLang.TypeOrm

/-- No marker is left in a compiled filter whose fields can be told apart. -/
lemma compile_resolve_unmarked {IsField : List String → Prop} (fields : FieldPaths IsField)
    {t : Filter} {draft f : Json} (paths : ∀ path ∈ t.paths, IsField path)
    (compiled : compile t = .ok draft) (resolved : resolve .recording draft = .ok f) :
    marked f = false := by
  obtain ⟨w, hw, compiled⟩ := bind_eq_ok_iff.1 compiled
  cases compiled
  obtain ⟨ms, hms, -⟩ := ofFilter_branches fields paths hw fun _ _ => true
  exact (resolve_readable fields hms resolved).1

/-! ## Documents at the end of a path -/

lemma marked_nest (path : List String) {document : Json} (h : marked document = true) :
    marked (nest path document) = true := by
  induction path with
  | nil => exact h
  | cons key rest ih =>
    simp [nest_cons, Json.single, marked, markedAmong, ih]

lemma operatorMarker_mem : operatorMarker ∈ markers := by simp [markers]

lemma notMarker_mem : notMarker ∈ markers := by simp [markers]

lemma passable_of_unmarked {path : List String} (unmarked : ∀ key ∈ path, key ∉ markers) :
    Passable path :=
  ⟨fun h => unmarked _ h notMarker_mem,
    fun h => unmarked _ (List.mem_of_mem_tail h) operatorMarker_mem⟩

lemma mergeObjects_single (key : String) (current incoming : Json) :
    mergeObjects [(key, current)] [(key, incoming)] = [(key, mergeValue key current incoming)] := by
  simp [mergeObjects, Members.set]

/-- Two documents at the end of one path meet there. -/
lemma mergeObjects_nest {key : String} {rest : List String} {current incoming : Json}
    (unmarked : ∀ k ∈ key :: rest, k ∉ markers) (h : isRelation incoming = false) :
    mergeObjects [(key, nest rest current)] [(key, nest rest incoming)] =
      [(key, nest rest (combine current incoming))] := by
  rw [mergeObjects_single]
  induction rest generalizing key with
  | nil => exact congrArg (fun value => [(key, value)]) (mergeValue_eq_combine (.inr (.inr h)))
  | cons next rest ih =>
    have hkey : key ≠ notMarker := (ne_of_mem_of_not_mem notMarker_mem (unmarked key (by simp))).symm
    have hnext : operatorMarker ≠ next :=
      ne_of_mem_of_not_mem operatorMarker_mem (unmarked next (by simp))
    have hmerge := mergeValue_relation hkey (isRelation_single hnext (nest rest current))
      (isRelation_single hnext (nest rest incoming))
    rw [mergeObjects_single, ih fun k hk => unmarked k (List.mem_cons_of_mem _ hk)] at hmerge
    exact congrArg (fun value => [(key, value)]) hmerge

/-! ## A field that leads on from another -/

/-- A comparison of each of two fields. -/
def comparesBoth (a b : String) : Filter :=
  .and (.comparison b .gt (.scalar (.int 1))) (.comparison a .eq (.scalar (.int 2)))

lemma parse_print_comparesBoth {a b : String} (ha : Lexer.Lexable a) (hb : Lexer.Lexable b) :
    Filter.parse (comparesBoth a b).print = .ok (comparesBoth a b) := by
  rw [← Filter.parseWithin_defaultMaxNesting]
  refine Filter.parseWithin_print_eq_ok ⟨?_, ?_⟩ rfl ?_
  · simp [comparesBoth, Filter.comparisons, ha, hb]
  · simp [comparesBoth, Filter.comparisons, Operator.accepts]
  · simp [comparesBoth, Filter.printNeed, Filter.operandNeed, Filter.isLogical, defaultMaxNesting]

/-- The object that leads on to a field is taken for a value to compare with. -/
lemma openCondition_relation {key : String} (h : operatorMarker ≠ key) (value : Json) :
    openCondition .recording (envelope "and" (.arr [.single key value, .int 2])) =
      .ok (some (recorder "and" [recorder "equal" [.single key value], recorder "equal" [.int 2]])) := by
  have hcall : callForm .recording (.single key value) =
      .ok (some (recorder "equal" [.single key value])) := by
    have hhas : ¬ Members.has operatorMarker [(key, value)] := by
      simp [Members.has, lookup_cons_of_ne h]
    rw [Json.single, callForm, if_neg hhas]
    rfl
  have hcalls : callForms .recording [.single key value, .int 2] =
      .ok [recorder "equal" [.single key value], recorder "equal" [.int 2]] := by
    rw [callForms, hcall]
    rfl
  exact congrArg (· >>= callAnd .recording) hcalls

/-- If the path of `a` leads on to `b`, an envelope is left behind. -/
lemma comparesBoth_marked {a b : String} (hleads : fieldPath a <+: fieldPath b)
    (hne : fieldPath a ≠ fieldPath b) (unmarked : ∀ key ∈ fieldPath b, key ∉ markers) :
    ∃ draft f, compile (comparesBoth a b) = .ok draft ∧ resolve .recording draft = .ok f ∧
      marked f = true := by
  have hcompile : compile (comparesBoth a b) =
      .ok (.obj (mergeObjects (nestPath b (envelope "gt" (.int 1))) (nestPath a (.int 2)))) := rfl
  obtain ⟨key, path, ha⟩ : ∃ key path, fieldPath a = key :: path :=
    List.exists_cons_of_ne_nil (fieldPath_ne_nil a)
  obtain ⟨next, rest, hb⟩ : ∃ next rest, fieldPath b = key :: (path ++ next :: rest) := by
    obtain ⟨suffix, hsuffix⟩ := hleads
    cases suffix with
    | nil => exact absurd (by simpa using hsuffix) hne
    | cons next rest => exact ⟨next, rest, by rw [← hsuffix, ha, List.cons_append]⟩
  rw [hb] at unmarked
  have hnext : operatorMarker ≠ next :=
    ne_of_mem_of_not_mem operatorMarker_mem (unmarked next (by simp))
  have hpath : ∀ k ∈ key :: path, k ∉ markers := by
    intro k hk
    refine unmarked k ?_
    rw [← List.cons_append]
    exact List.mem_append_left _ hk
  -- Both conditions are at the end of the path of `a`, and the one on `b` is an object there.
  have hmerge : Json.obj (mergeObjects (nestPath b (envelope "gt" (.int 1))) (nestPath a (.int 2))) =
      nest (key :: path) (envelope "and"
        (.arr [.single next (nest rest (envelope "gt" (.int 1))), .int 2])) := by
    simp only [nestPath, ha, hb, nest_append, nest_cons]
    rw [mergeObjects_nest hpath rfl, combine_of_ne (by simp [envelopeName?_single hnext])]
    rfl
  refine ⟨_, _, hcompile.trans (congrArg Except.ok hmerge), resolve_nest (passable_of_unmarked hpath) rfl
    (openCondition_relation hnext (nest rest (envelope "gt" (.int 1)))), marked_nest _ ?_⟩
  have hmarked : marked (.single next (nest rest (envelope "gt" (.int 1)))) = true :=
    marked_nest (next :: rest) rfl
  rw [marked_recorder, markedIn, marked_recorder, markedIn, hmarked]
  rfl

/-- **No envelope is left behind if and only if no field leads on from another.**  Take names that a
query can write and that have no marker in their paths.  If no path of a name goes on where another one
ends, then every accepted query on these fields whose envelopes can be opened is free of markers
afterwards; and otherwise there is one that is not. -/
theorem resolve_unmarked_iff_prefixFree (IsName : String → Prop)
    (writable : ∀ name, IsName name → Lexer.Lexable name)
    (unmarked : ∀ name, IsName name → ∀ key ∈ fieldPath name, key ∉ markers) :
    (∀ text t draft f, Filter.parse text = .ok t → (∀ c ∈ t.comparisons, IsName c.1) →
      compile t = .ok draft → resolve .recording draft = .ok f → marked f = false) ↔
    ∀ a b, IsName a → IsName b → fieldPath a <+: fieldPath b → fieldPath a = fieldPath b := by
  constructor
  · intro hall a b ha hb hleads
    by_contra hne
    obtain ⟨draft, f, hdraft, hf, hmarked⟩ := comparesBoth_marked hleads hne (unmarked b hb)
    have hparse := parse_print_comparesBoth (writable a ha) (writable b hb)
    have hunmarked := hall _ _ draft f hparse (by simp [comparesBoth, Filter.comparisons, ha, hb])
      hdraft hf
    simp [hmarked] at hunmarked
  · intro hleads text t draft f _ hnames hdraft hf
    have fields : FieldPaths fun path => ∃ name, IsName name ∧ fieldPath name = path := by
      constructor
      · rintro path key rest ⟨a, ha, rfl⟩ ⟨b, hb, hpath⟩
        have := hleads a b ha hb (hpath ▸ List.prefix_append _ _)
        simp [← this] at hpath
      · rintro path key ⟨a, ha, rfl⟩ hkey
        exact unmarked a ha key hkey
    refine compile_resolve_unmarked fields (fun path hpath => ?_) hdraft hf
    obtain ⟨c, hc, rfl⟩ := List.mem_map.1 hpath
    exact ⟨c.1, hnames c hc, rfl⟩

/-- The fields of one relation can be told apart, but not a relation and one of its fields. -/
theorem resolve_unmarked_iff_prefixFree_relation :
    (∀ text t draft f, Filter.parse text = .ok t → (∀ c ∈ t.comparisons, c.1 ∈ ["a.b", "a.c"]) →
      compile t = .ok draft → resolve .recording draft = .ok f → marked f = false) ∧
    ¬ ∀ text t draft f, Filter.parse text = .ok t → (∀ c ∈ t.comparisons, c.1 ∈ ["a", "a.b"]) →
      compile t = .ok draft → resolve .recording draft = .ok f → marked f = false := by
  constructor
  · refine (resolve_unmarked_iff_prefixFree (· ∈ ["a.b", "a.c"]) ?_ ?_).2 ?_
    · decide +kernel
    · decide
    · have hpaths : ∀ a ∈ ["a.b", "a.c"], ∀ b ∈ ["a.b", "a.c"],
          fieldPath a <+: fieldPath b → fieldPath a = fieldPath b := by decide
      exact fun a b ha hb => hpaths a ha b hb
  · intro hall
    have hpaths := (resolve_unmarked_iff_prefixFree (· ∈ ["a", "a.b"])
      (by decide +kernel) (by decide)).1 hall "a" "a.b" (by simp) (by simp) (by decide)
    exact absurd hpaths (by decide)

end FilterLang.TypeOrm
