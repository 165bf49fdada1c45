import FilterLang.Proofs.Target.Faults

/-!
# The fields and operators of a filter

A filter can be asked for the fields and the operators that it uses, and a whitelist can be asked whether it
accepts them.  Both go through the filter on their own: the first collects names, and the second stops at
the first one that is not allowed.  This file shows that they see the same.

What is collected are the first uses from left to right (`FirstUses`).  So the first name with some property
among the collected ones is the first with it in the filter (`find?_firsts`), which is where a check stops.
-/

namespace FilterLang

/-! ## First uses -/

section

variable {α : Type} [DecidableEq α]

/-- A list of the things that are used, each of them once and in the order of their first uses. -/
structure FirstUses (uses listed : List α) : Prop where
  nodup : listed.Nodup
  mem_iff : ∀ x, x ∈ listed ↔ x ∈ uses
  order : listed.Pairwise fun x y => uses.idxOf x < uses.idxOf y

/-- One more use is listed if there was none before. -/
lemma firsts_concat (items : List α) (x : α) :
    Filter.firsts (items ++ [x]) =
      if x ∈ Filter.firsts items then Filter.firsts items else Filter.firsts items ++ [x] := by
  simp only [Filter.firsts, List.foldl_append, List.foldl_cons, List.foldl_nil, List.contains_iff_mem]

lemma mem_firsts {items : List α} {x : α} : x ∈ Filter.firsts items ↔ x ∈ items := by
  induction items using List.reverseRecOn with
  | nil => rfl
  | append_singleton items y ih =>
    rw [firsts_concat, List.mem_append, List.mem_singleton]
    split
    · grind
    · rw [List.mem_append, List.mem_singleton, ih]

/-- The first of the listed things with a property is the first one that is used. -/
lemma find?_firsts (items : List α) (p : α → Bool) :
    (Filter.firsts items).find? p = items.find? p := by
  induction items using List.reverseRecOn with
  | nil => rfl
  | append_singleton items y ih =>
    rw [firsts_concat, List.find?_append]
    split
    · rename_i hy
      rw [ih]
      cases hfind : items.find? p with
      | some x => rfl
      | none =>
        -- an earlier use of the same thing would have been found
        have hp : ¬ p y = true := List.find?_eq_none.1 hfind y (mem_firsts.1 hy)
        simp [hp]
    · rw [List.find?_append, ih]

lemma firstUses_firsts (items : List α) : FirstUses items (Filter.firsts items) := by
  have order : (Filter.firsts items).Pairwise fun x y => items.idxOf x < items.idxOf y := by
    induction items using List.reverseRecOn with
    | nil => exact .nil
    | append_singleton items y ih =>
      -- the uses in front keep their places
      have hkeep : (Filter.firsts items).Pairwise
          fun x z => (items ++ [y]).idxOf x < (items ++ [y]).idxOf z := by
        refine ih.imp_of_mem fun {x z} hx hz hlt => ?_
        rwa [List.idxOf_append_of_mem (mem_firsts.1 hx), List.idxOf_append_of_mem (mem_firsts.1 hz)]
      rw [firsts_concat]
      split
      · exact hkeep
      · rename_i hy
        refine List.pairwise_append.2 ⟨hkeep, List.pairwise_singleton _ y, fun x hx z hz => ?_⟩
        obtain rfl := List.mem_singleton.1 hz
        have hlast : (items ++ [z]).idxOf z = items.length := by
          simp [List.idxOf_append_of_notMem (mt mem_firsts.2 hy)]
        rw [hlast, List.idxOf_append_of_mem (mem_firsts.1 hx)]
        exact List.idxOf_lt_length_of_mem (mem_firsts.1 hx)
  refine ⟨order.imp fun {x y} hlt heq => ?_, fun x => mem_firsts, order⟩
  rw [heq] at hlt
  exact lt_irrefl _ hlt

/-- The thing at which a run over its uses stops. -/
lemma find?_firsts_map {β : Type} {uses front back : List β} {last : β} {name : β → α} {p : α → Bool}
    (hsplit : uses = front ++ last :: back) (hfront : ∀ use ∈ front, ¬ p (name use) = true)
    (hlast : p (name last) = true) :
    (Filter.firsts (uses.map name)).find? p = some (name last) := by
  have hnone : (front.map name).find? p = none := by
    rw [List.find?_eq_none, List.forall_mem_map]
    exact hfront
  rw [find?_firsts, hsplit, List.map_append, List.map_cons, List.find?_append, hnone, Option.none_or,
    List.find?_cons_of_pos hlast]

end

lemma mem_fields {t : Filter} {field : String} :
    field ∈ t.fields ↔ ∃ c ∈ t.comparisons, c.1 = field := by
  rw [Filter.fields, mem_firsts, List.mem_map]

lemma mem_operators {t : Filter} {op : Operator} :
    op ∈ t.operators ↔ ∃ c ∈ t.comparisons, c.2.1 = op := by
  rw [Filter.operators, mem_firsts, List.mem_map]

/-! ## Names in order -/

lemma mem_insertName {name other : String} {names : List String} :
    other ∈ insertName name names ↔ other = name ∨ other ∈ names := by
  induction names with
  | nil => simp [insertName]
  | cons first rest ih =>
    unfold insertName
    split_ifs with hlt heq
    · simp
    · simp [heq]
    · simp only [List.mem_cons, ih]
      tauto

lemma mem_sortNames {name : String} {names : List String} : name ∈ sortNames names ↔ name ∈ names := by
  induction names using List.reverseRecOn with
  | nil => rfl
  | append_singleton names last ih =>
    have hlast : sortNames (names ++ [last]) = insertName last (sortNames names) := by
      simp [sortNames]
    rw [hlast, mem_insertName, ih, List.mem_append, List.mem_singleton, or_comm]

lemma Operator.mem_all (op : Operator) : op ∈ Operator.all := by
  cases op <;> decide

/-! ## Whitelists of names -/

namespace Whitelist

/-- The whitelist that allows some fields and operators and has no rules. -/
def allowing (fields : List String) (operators : List Operator) : Whitelist :=
  (({} : Whitelist).allowFields fields).allowOperators operators

variable {fields : List String} {operators : List Operator}

/-- Such a whitelist looks at the names alone, if the value is of the right kind. -/
lemma allowing_checkComparison {field : String} {op : Operator} {value : Value}
    (accepts : op.accepts value = true) :
    (allowing fields operators).checkComparison field op value =
      if field ∈ fields then
        if op ∈ operators then .ok ()
        else .error (.operatorNotAllowed field op (Operator.all.filter operators.contains))
      else .error (.fieldNotAllowed field (sortNames fields)) := by
  have hfields : (allowing fields operators).fields = some (sortNames fields) := rfl
  have hoperators : (allowing fields operators).operators =
      some (Operator.all.filter operators.contains) := rfl
  have hrule : (allowing fields operators).rule? field = none := rfl
  rw [checkComparison_eq, hfields, hoperators, hrule]
  simp [accepts, mem_sortNames, Operator.mem_all]

lemma allowing_checkComparison_eq_ok_iff {field : String} {op : Operator} {value : Value}
    (accepts : op.accepts value = true) :
    (allowing fields operators).checkComparison field op value = .ok () ↔
      field ∈ fields ∧ op ∈ operators := by
  rw [allowing_checkComparison accepts, ite_error_eq_ok_iff, ite_error_eq_ok_iff]
  simp only [and_true]

/-- **A whitelist of names and the names of a filter agree.**  Take a filter whose values are of the kinds
that its operators take.  A whitelist of fields and operators lets it through if and only if it has all
fields and all operators of the filter, which list the uses in it once and in order.  Otherwise the violation
is about the first field of the filter that is not allowed, or about the first operator. -/
theorem check_allowing_iff {t : Filter} (shapes : ∀ c ∈ t.comparisons, c.2.1.accepts c.2.2 = true)
    (fields : List String) (operators : List Operator) :
    ((allowing fields operators).check t = .ok () ↔ t.fields ⊆ fields ∧ t.operators ⊆ operators) ∧
    FirstUses (t.comparisons.map (·.1)) t.fields ∧
    FirstUses (t.comparisons.map (·.2.1)) t.operators ∧
    ∀ violation, (allowing fields operators).check t = .error violation →
      (∃ field, t.fields.find? (· ∉ fields) = some field ∧
        violation = .fieldNotAllowed field (sortNames fields)) ∨
      ∃ field ∈ fields, ∃ op, t.operators.find? (· ∉ operators) = some op ∧
        violation = .operatorNotAllowed field op (Operator.all.filter operators.contains) := by
  refine ⟨?_, firstUses_firsts _, firstUses_firsts _, fun violation h => ?_⟩
  · rw [check_eq_ok_iff]
    constructor
    · intro hall
      have hnames := fun c hc => (allowing_checkComparison_eq_ok_iff (shapes c hc)).1 (hall c hc)
      constructor
      · intro field hfield
        obtain ⟨c, hc, rfl⟩ := mem_fields.1 hfield
        exact (hnames c hc).1
      · intro op hop
        obtain ⟨c, hc, rfl⟩ := mem_operators.1 hop
        exact (hnames c hc).2
    · rintro ⟨hfields, hoperators⟩ c hc
      refine (allowing_checkComparison_eq_ok_iff (shapes c hc)).2 ⟨hfields ?_, hoperators ?_⟩
      · exact mem_fields.2 ⟨c, hc, rfl⟩
      · exact mem_operators.2 ⟨c, hc, rfl⟩
  · obtain ⟨front, c, back, hsplit, hviolation, hfront⟩ := check_eq_error_iff.1 h
    have hmem : ∀ d ∈ front, d ∈ t.comparisons := fun d hd => by simp [hsplit, hd]
    have hnames := fun d hd =>
      (allowing_checkComparison_eq_ok_iff (shapes d (hmem d hd))).1 (hfront d hd)
    rw [allowing_checkComparison (shapes c (by simp [hsplit]))] at hviolation
    split_ifs at hviolation with hfield hop
    · refine .inr ⟨c.1, hfield, c.2.1, find?_firsts_map hsplit (fun d hd => ?_) (by simpa using hop), ?_⟩
      · simpa using (hnames d hd).2
      · exact (Except.error.inj hviolation).symm
    · refine .inl ⟨c.1, find?_firsts_map hsplit (fun d hd => ?_) (by simpa using hfield), ?_⟩
      · simpa using (hnames d hd).1
      · exact (Except.error.inj hviolation).symm

/-- A field and an operator that are used twice, the second time behind others. -/
def repeatedNames : Filter :=
  .and (.not (.comparison "b" .gt (.scalar (.int 1))))
    (.or (.comparison "a" .isIn (.list [.null])) (.and (.comparison "b" .eq (.list []))
      (.comparison "c" .gt (.scalar (.str "x")))))

theorem check_allowing_iff_repeatedNames :
    (∀ c ∈ repeatedNames.comparisons, c.2.1.accepts c.2.2 = true) ∧
    repeatedNames.fields = ["b", "a", "c"] ∧ repeatedNames.operators = [.gt, .isIn, .eq] ∧
    (allowing ["c", "b", "a", "b"] [.eq, .gt, .isIn]).check repeatedNames = .ok () ∧
    (∃ violation, (allowing ["c", "b"] [.gt, .eq]).check repeatedNames = .error violation ∧
      ∃ field, repeatedNames.fields.find? (· ∉ ["c", "b"]) = some field ∧
        violation = .fieldNotAllowed field ["b", "c"]) := by
  have shapes : ∀ c ∈ repeatedNames.comparisons, c.2.1.accepts c.2.2 = true := by decide
  refine ⟨shapes, by decide, by decide, ?_, _, rfl, ?_⟩
  · exact (check_allowing_iff shapes _ _).1.2 ⟨by decide, by decide⟩
  · obtain ⟨field, hfield, hviolation⟩ | ⟨field, -, op, -, hviolation⟩ :=
      (check_allowing_iff shapes ["c", "b"] [.gt, .eq]).2.2.2 _ rfl
    · exact ⟨field, hfield, hviolation⟩
    · cases hviolation

end Whitelist

end FilterLang
