import FilterLang.Proofs.TypeOrm.Faithful

/-!
# The branches of a compiled filter

The type `Where` has room for an object and for a flat list of objects, and for nothing else, so that joining
two filters never meets anything it could not join.  This file shows that nothing is hidden by the type.  The
documents of filters are joined here as documents of any form: lists may nest, and a value may be neither a
list nor an object.  Where one side could only be dropped there is no result (`joinValue?`, `joinTo?`).

Filters are compiled all the same (`document?_eq`), and so no side is ever dropped.  The document of a filter
is one object, or a list of as many objects as its disjunctions need (`compile_branches`).
-/

namespace FilterLang.TypeOrm

/-! ## Joining documents of any form -/

mutual

/-- The value of a key that both sides have.  There is none if both are relations and one of them is no
object. -/
def joinValue? (key : String) (current : Json) : Json → Option Json
  | .obj incoming =>
    if key ≠ notMarker ∧ isRelation current ∧ isRelation (.obj incoming) then
      match current with
      | .obj members => (joinObjects? members incoming).map .obj
      | _ => none
    else some (combine current (.obj incoming))
  | incoming =>
    if key ≠ notMarker ∧ isRelation current ∧ isRelation incoming then none
    else some (combine current incoming)
termination_by structural incoming => incoming

/-- Two objects joined. -/
def joinObjects? (left : Members) : List (String × Json) → Option Members
  | [] => some left
  | (key, value) :: rest =>
    match left.lookup key with
    | none => joinObjects? (left ++ [(key, value)]) rest
    | some current =>
      (joinValue? key current value).bind fun joined => joinObjects? (Members.set key joined left) rest
termination_by structural right => right

end

mutual

/-- A document joined to another one that is no list: every branch of a list, or an object.  There is no
result if either of them is neither. -/
def joinTo? (right : Json) : Json → Option Json
  | .arr branches => (joinEach? right branches).map .arr
  | .obj left =>
    match right with
    | .obj right => (joinObjects? left right).map .obj
    | _ => none
  | _ => none
termination_by structural left => left

/-- Every branch of a list joined to a document. -/
def joinEach? (right : Json) : List Json → Option (List Json)
  | [] => some []
  | branch :: rest => do return (← joinTo? right branch) :: (← joinEach? right rest)
termination_by structural branches => branches

end

/-- Two documents joined: two lists are appended, and anything else is joined to every branch of a list. -/
def joinDocuments? (left right : Json) : Option Json :=
  match left, right with
  | .arr left, .arr right => some (.arr (left ++ right))
  | left, .arr branches => (joinEach? left branches).map .arr
  | left, right => joinTo? right left

/-- The branches of a document: those of a list, or the document itself. -/
def branchesOf : Json → List Json
  | .arr branches => branches
  | document => [document]

/-- The document of a filter, from the documents of its parts.  There is none if an operator does not take
its value, or if one side of a conjunction could only be dropped. -/
def document? : Filter → Option Json
  | .comparison field op value =>
    if op.accepts value then some (.obj (nestPath field (enveloped op value))) else none
  | .logical .and left right => do joinDocuments? (← document? left) (← document? right)
  | .logical .or left right => do
    return .arr (branchesOf (← document? left) ++ branchesOf (← document? right))
  | .not child => do return .single notMarker (← document? child)

/-! ## No side is dropped -/

mutual

lemma joinValue?_eq (key : String) (current incoming : Json) :
    joinValue? key current incoming = some (mergeValue key current incoming) := by
  match incoming with
  | .obj incoming =>
    rw [joinValue?.eq_def, mergeValue.eq_def]
    cases current with
    | obj members =>
      simp only
      split
      · rw [joinObjects?_eq members incoming]
        rfl
      · rfl
    | _ => simp [isRelation]
  | .null | .bool _ | .int _ | .float _ | .str _ | .arr _ =>
    rw [joinValue?.eq_def, mergeValue.eq_def]
    simp [isRelation]
termination_by structural incoming

/-- Two relations are always two objects, so that joining objects drops nothing. -/
lemma joinObjects?_eq (left right : Members) :
    joinObjects? left right = some (mergeObjects left right) := by
  match right with
  | [] => rw [joinObjects?, mergeObjects]
  | (key, value) :: rest =>
    rw [joinObjects?, mergeObjects]
    cases left.lookup key with
    | none => exact joinObjects?_eq (left ++ [(key, value)]) rest
    | some current =>
      simp only [joinValue?_eq key current value, Option.bind_some]
      exact joinObjects?_eq (Members.set key (mergeValue key current value) left) rest
termination_by structural right

end

lemma joinTo?_obj (left right : Members) :
    joinTo? (.obj right) (.obj left) = some (.obj (mergeObjects left right)) := by
  rw [joinTo?, joinObjects?_eq]
  rfl

lemma joinEach?_obj (branches : List Members) (right : Members) :
    joinEach? (.obj right) (branches.map .obj) =
      some ((branches.map (mergeObjects · right)).map .obj) := by
  induction branches with
  | nil => rfl
  | cons branch rest ih =>
    rw [List.map_cons, joinEach?, joinTo?_obj, ih]
    rfl

namespace Where

/-- Filters in this form are joined as their documents are, whichever arm the documents take. -/
lemma joinDocuments?_toJson (left right : Where) :
    joinDocuments? left.toJson right.toJson = some (left.and right).toJson := by
  cases left with
  | all members =>
    cases right with
    | all others => exact joinTo?_obj members others
    | any branches =>
      rw [toJson, toJson, joinDocuments?, joinEach?_obj]
      · rfl
      · simp
  | any branches =>
    cases right with
    | all members =>
      rw [toJson, toJson, joinDocuments?, joinTo?, joinEach?_obj]
      · rfl
      · simp
      · simp
    | any others =>
      rw [toJson, toJson, joinDocuments?, ← List.map_append]
      rfl

lemma branchesOf_toJson (w : Where) : branchesOf w.toJson = w.branches.map .obj := by
  cases w <;> rfl

/-- The document of a filter is the one that it is compiled to. -/
lemma document?_eq {t : Filter} {w : Where} (ok : ofFilter t = .ok w) : document? t = some w.toJson := by
  induction t generalizing w with
  | comparison field op value =>
    obtain ⟨_, hshape, ok⟩ := bind_eq_ok_iff.1 ok
    cases ok
    rw [document?, if_pos (accepts_of_checkShape hshape)]
    rfl
  | logical kind left right ihleft ihright =>
    obtain ⟨wl, wr, hwl, hwr, rfl⟩ := ofFilter_logical_eq_ok ok
    cases kind with
    | and =>
      rw [document?, ihleft hwl, ihright hwr]
      exact joinDocuments?_toJson wl wr
    | or =>
      rw [document?, ihleft hwl, ihright hwr]
      simp only [Option.bind_eq_bind, Option.bind_some, branchesOf_toJson, ← List.map_append]
      rfl
  | not child ih =>
    obtain ⟨wc, hwc, ok⟩ := bind_eq_ok_iff.1 ok
    cases ok
    rw [document?, ih hwc]
    rfl

/-! ## How many branches there are -/

/-- The branches that a filter may have: none is empty, alternatives are at least two, and there are at
most as many branches as comparisons. -/
structure Spread (clauses : Nat) (w : Where) : Prop where
  ne_nil : ∀ members ∈ w.branches, members ≠ []
  several : ∀ branches, w = any branches → 2 ≤ branches.length
  length_le : w.branches.length ≤ clauses

lemma Spread.length_pos {clauses : Nat} {w : Where} (h : Spread clauses w) : 0 < w.branches.length := by
  cases w with
  | all members => exact Nat.one_pos
  | any branches => exact (h.several branches rfl).trans_lt' Nat.two_pos

/-- An object joined to every branch of a list. -/
lemma Spread.each {a b : Nat} {branches : List Members} (h : Spread b (any branches)) (members : Members) :
    Spread (a + b) (any (branches.map (mergeObjects · members))) where
  ne_nil joined hjoined := by
    obtain ⟨branch, hbranch, rfl⟩ := List.mem_map.1 hjoined
    exact mergeObjects_ne_nil (.inl (h.ne_nil branch hbranch))
  several := by
    rintro _ ⟨⟩
    rw [List.length_map]
    exact h.several branches rfl
  length_le := by
    have hle : branches.length ≤ b := h.length_le
    rw [Where.branches, List.length_map]
    omega

/-- The branches of both filters, next to each other. -/
lemma Spread.beside {a b : Nat} {left right : Where} (hl : Spread a left) (hr : Spread b right) :
    Spread (a + b) (any (left.branches ++ right.branches)) where
  ne_nil members hmembers := (List.mem_append.1 hmembers).elim (hl.ne_nil members) (hr.ne_nil members)
  several := by
    rintro _ ⟨⟩
    have hleft := hl.length_pos
    have hright := hr.length_pos
    rw [List.length_append]
    omega
  length_le := by
    have hleft := hl.length_le
    have hright := hr.length_le
    rw [Where.branches, List.length_append]
    omega

lemma Spread.and {a b : Nat} {left right : Where} (hl : Spread a left) (hr : Spread b right) :
    Spread (a + b) (left.and right) := by
  cases left with
  | all members =>
    cases right with
    | all others =>
      have hmembers := hl.ne_nil members (List.mem_singleton_self members)
      have hone : 1 ≤ a := hl.length_le
      refine ⟨fun joined hjoined => ?_, nofun, le_add_right hone⟩
      rw [List.mem_singleton.1 hjoined]
      exact mergeObjects_ne_nil (.inl hmembers)
    | any branches => exact hr.each members
  | any branches =>
    cases right with
    | all members =>
      rw [Nat.add_comm]
      exact hl.each members
    | any others => exact hl.beside hr

/-- The branches of a compiled filter. -/
lemma spread_ofFilter {t : Filter} {w : Where} (ok : ofFilter t = .ok w) :
    Spread t.complexity.clauses w := by
  induction t generalizing w with
  | comparison field op value =>
    obtain ⟨_, -, ok⟩ := bind_eq_ok_iff.1 ok
    cases ok
    refine ⟨fun members hmembers => ?_, nofun, le_rfl⟩
    rw [List.mem_singleton.1 hmembers]
    exact nestPath_ne_nil field (enveloped op value)
  | logical kind left right ihleft ihright =>
    obtain ⟨wl, wr, hwl, hwr, rfl⟩ := ofFilter_logical_eq_ok ok
    cases kind with
    | and => exact (ihleft hwl).and (ihright hwr)
    | or => exact (ihleft hwl).beside (ihright hwr)
  | not child ih =>
    obtain ⟨wc, hwc, ok⟩ := bind_eq_ok_iff.1 ok
    cases ok
    have hchild := ih hwc
    refine ⟨fun members hmembers => ?_, nofun, hchild.length_pos.trans_le hchild.length_le⟩
    rw [List.mem_singleton.1 hmembers]
    exact List.cons_ne_nil _ _

end Where

/-- A filter whose operators take their values is compiled.  No side of a conjunction is dropped on the way:
the document is the one that joining documents of any form gives.  It is an object if every disjunction lies
below a negation, and otherwise a flat list of objects, at least two and at most as many as there are
comparisons, none of which is empty. -/
theorem compile_branches {t : Filter} (shapes : ∀ c ∈ t.comparisons, c.2.1.accepts c.2.2 = true) :
    ∃ document, compile t = .ok document ∧ document? t = some document ∧
      (t.alternates = false → ∃ members, document = .obj members ∧ members ≠ []) ∧
      (t.alternates = true → ∃ branches : List Members, document = .arr (branches.map .obj) ∧
        2 ≤ branches.length ∧ branches.length ≤ t.complexity.clauses ∧
        ∀ members ∈ branches, members ≠ []) := by
  obtain ⟨w, hw⟩ := ofFilter_total shapes
  have hspread := Where.spread_ofFilter hw
  have halternates := ofFilter_alternates hw
  refine ⟨w.toJson, by rw [compile, hw]; rfl, Where.document?_eq hw, fun hnone => ?_, fun hsome => ?_⟩
  · cases w with
    | all members => exact ⟨members, rfl, hspread.ne_nil members (List.mem_singleton_self members)⟩
    | any branches => simp [halternates.2 ⟨branches, rfl⟩] at hnone
  · obtain ⟨branches, rfl⟩ := halternates.1 hsome
    exact ⟨branches, rfl, hspread.several branches rfl, hspread.length_le, hspread.ne_nil⟩

/-- The filter `(a eq 1 or b.c eq null) and (d gt 2 or e in []) and not (f eq 3 or a ne 4)`. -/
def twoDisjunctions : Filter :=
  .and
    (.and (.or (.comparison "a" .eq (.scalar (.int 1))) (.comparison "b.c" .eq (.scalar .null)))
      (.or (.comparison "d" .gt (.scalar (.int 2))) (.comparison "e" .isIn (.list []))))
    (.not (.or (.comparison "f" .eq (.scalar (.int 3))) (.comparison "a" .ne (.scalar (.int 4)))))

/-- Its document is a list; the disjunction below the negation adds no branch. -/
theorem compile_branches_twoDisjunctions :
    (∀ c ∈ twoDisjunctions.comparisons, c.2.1.accepts c.2.2 = true) ∧
      ∃ branches : List Members, compile twoDisjunctions = .ok (.arr (branches.map .obj)) ∧
        2 ≤ branches.length ∧ branches.length ≤ 6 ∧ ∀ members ∈ branches, members ≠ [] := by
  have shapes : ∀ c ∈ twoDisjunctions.comparisons, c.2.1.accepts c.2.2 = true := by
    simp [twoDisjunctions, Filter.comparisons, Operator.accepts]
  obtain ⟨document, hcompile, -, -, hlist⟩ := compile_branches shapes
  obtain ⟨branches, rfl, hbranches⟩ := hlist rfl
  exact ⟨shapes, branches, hcompile, hbranches⟩

end FilterLang.TypeOrm
