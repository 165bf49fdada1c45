import FilterLang.Proofs.Filter.RoundTrip
import FilterLang.Proofs.TypeOrm.Opening

/-!
# Compiled filters match what the filter says

A filter is compiled to branches and the envelopes of the branches are opened.  What comes out matches
every record that satisfies the filter, and no other unless two disjunctions are joined by `and`; such a
conjunction is widened to a list of the branches of both sides.

The proof is about the meanings of the branches: `Covers` says what a list of meanings has to be for a
filter, with one lemma for each way of joining branches.
-/

namespace FilterLang.Filter

/-- The paths of the fields of a filter. -/
def paths (t : Filter) : List (List String) := t.comparisons.map fun c => fieldPath c.1

end FilterLang.Filter

namespace FilterLang.TypeOrm

/-! ## Comparisons -/

/-- A comparison with finite numbers says what its document says. -/
lemma comparisonHolds_eq_operatorHolds (answer : Test → Bool) (op : Operator) {value : Value}
    (h : value.isFinite = true) :
    comparisonHolds answer op value = operatorHolds answer op value.toJson := by
  unfold comparisonHolds
  split
  · rename_i lower upper
    simp only [Value.isFinite, Value.literals, List.all_cons, List.all_nil, Bool.and_true,
      Bool.and_eq_true] at h
    simp only [Value.toJson, operatorHolds, bound?_toJson h.1, bound?_toJson h.2, Option.all_map]
  · rfl

lemma enveloped_condition {answer : Test → Bool} {op : Operator} {value : Value}
    (accepts : op.accepts value = true) :
    Condition answer (enveloped op value) (operatorHolds answer op value.toJson) := by
  by_cases h : op = .eq
  · subst h
    exact .equal value
  · have henveloped : enveloped op value = envelope op.name value.toJson := by
      cases op with
      | eq => exact absurd rfl h
      | _ => rfl
    rw [henveloped]
    exact .operator h accepts

/-! ## Meanings of branches -/

/-- The meanings of the branches that a filter is compiled to.  If all of them can be said, one of them
is true for a record that satisfies the filter, and for no other unless the filter is widened. -/
structure Covers (record : Record) (t : Filter) (meanings : List (Option Bool)) : Prop where
  ne_nil : meanings ≠ []
  negatesOr : t.negatesOr = true → none ∈ meanings
  complete : none ∉ meanings → record.satisfies t = true → some true ∈ meanings
  sound : t.widens = false → none ∉ meanings → some true ∈ meanings → record.satisfies t = true

lemma both_eq_none_iff : ∀ {a b}, both a b = none ↔ a = none ∨ b = none := by decide

lemma both_eq_true_iff : ∀ {a b}, both a b = some true ↔ a = some true ∧ b = some true := by decide

section

variable {record : Record} {t left right : Filter}

lemma satisfies_and :
    record.satisfies (.logical .and left right) = true ↔
      record.satisfies left = true ∧ record.satisfies right = true :=
  Bool.and_eq_true_iff

lemma satisfies_or :
    record.satisfies (.logical .or left right) = true ↔
      record.satisfies left = true ∨ record.satisfies right = true :=
  Bool.or_eq_true_iff

lemma satisfies_not : record.satisfies (.not t) = !record.satisfies t := rfl

end

namespace Covers

variable {record : Record} {t left right : Filter} {l r : List (Option Bool)} {m : Option Bool}

lemma comparison {field : String} {op : Operator} {value : Value} (h : value.isFinite = true) :
    Covers record (.comparison field op value)
      [some (operatorHolds (record (fieldPath field)) op value.toJson)] := by
  have hsatisfies : record.satisfies (.comparison field op value) =
      operatorHolds (record (fieldPath field)) op value.toJson :=
    comparisonHolds_eq_operatorHolds _ op h
  refine ⟨by simp, fun hnegates => absurd hnegates (by simp [Filter.negatesOr]), ?_, ?_⟩
  · intro _ h
    simp [← hsatisfies, h]
  · intro _ _ h
    simpa [hsatisfies] using h

lemma or (hl : Covers record left l) (hr : Covers record right r) :
    Covers record (.logical .or left right) (l ++ r) where
  ne_nil := by simp [hl.ne_nil]
  negatesOr h := by
    simp only [Filter.negatesOr, Bool.or_eq_true] at h
    exact List.mem_append.2 (h.imp hl.negatesOr hr.negatesOr)
  complete hnone h := by
    simp only [List.mem_append, not_or] at hnone
    exact List.mem_append.2 ((satisfies_or.1 h).imp (hl.complete hnone.1) (hr.complete hnone.2))
  sound hwidens hnone h := by
    simp only [Filter.widens, Bool.or_eq_false_iff] at hwidens
    simp only [List.mem_append, not_or] at hnone
    exact satisfies_or.2 ((List.mem_append.1 h).imp (hl.sound hwidens.1 hnone.1)
      (hr.sound hwidens.2 hnone.2))

/-- A branch joined to every branch of the other side. -/
lemma and_single (hl : Covers record left l) (hr : Covers record right [m]) :
    Covers record (.logical .and left right) (l.map (both · m)) := by
  have hnone : none ∈ l.map (both · m) ↔ none ∈ l ∨ none ∈ [m] := by
    simp only [List.mem_map, both_eq_none_iff, List.mem_singleton]
    constructor
    · rintro ⟨a, ha, rfl | rfl⟩
      · exact .inl ha
      · exact .inr rfl
    · rintro (h | rfl)
      · exact ⟨none, h, .inl rfl⟩
      · obtain ⟨a, ha⟩ := List.exists_mem_of_ne_nil l hl.ne_nil
        exact ⟨a, ha, .inr rfl⟩
  have htrue : some true ∈ l.map (both · m) ↔ some true ∈ l ∧ some true ∈ [m] := by
    simp only [List.mem_map, both_eq_true_iff, List.mem_singleton]
    constructor
    · rintro ⟨a, ha, rfl, rfl⟩
      exact ⟨ha, rfl⟩
    · rintro ⟨h, rfl⟩
      exact ⟨some true, h, rfl, rfl⟩
  refine ⟨by simp [hl.ne_nil], ?_, ?_, ?_⟩
  · intro h
    simp only [Filter.negatesOr, Bool.or_eq_true] at h
    exact hnone.2 (h.imp hl.negatesOr hr.negatesOr)
  · intro hall h
    obtain ⟨hleft, hright⟩ := satisfies_and.1 h
    rw [hnone, not_or] at hall
    exact htrue.2 ⟨hl.complete hall.1 hleft, hr.complete hall.2 hright⟩
  · intro hwidens hall h
    simp only [Filter.widens, Bool.or_eq_false_iff] at hwidens
    obtain ⟨hleft, hright⟩ := htrue.1 h
    rw [hnone, not_or] at hall
    exact satisfies_and.2 ⟨hl.sound hwidens.1.2 hall.1 hleft, hr.sound hwidens.2 hall.2 hright⟩

/-- The sides of a conjunction may be exchanged. -/
lemma and_comm (h : Covers record (.logical .and left right) l) :
    Covers record (.logical .and right left) l where
  ne_nil := h.ne_nil
  negatesOr hnegates := h.negatesOr (by simpa [Filter.negatesOr, Bool.or_comm] using hnegates)
  complete hnone hsat := h.complete hnone (satisfies_and.2 (satisfies_and.1 hsat).symm)
  sound hwidens hnone htrue := by
    refine satisfies_and.2 (satisfies_and.1 (h.sound ?_ hnone htrue)).symm
    simp only [Filter.widens, Bool.or_eq_false_iff, Bool.and_eq_false_iff] at hwidens ⊢
    exact ⟨⟨hwidens.1.1.symm, hwidens.2⟩, hwidens.1.2⟩

/-- The branches of both sides in one list. -/
lemma and_widened (hl : Covers record left l) (hr : Covers record right r)
    (hleft : left.alternates = true) (hright : right.alternates = true) :
    Covers record (.logical .and left right) (l ++ r) where
  ne_nil := by simp [hl.ne_nil]
  negatesOr h := by
    simp only [Filter.negatesOr, Bool.or_eq_true] at h
    exact List.mem_append.2 (h.imp hl.negatesOr hr.negatesOr)
  complete hnone h := by
    simp only [List.mem_append, not_or] at hnone
    exact List.mem_append.2 (.inl (hl.complete hnone.1 (satisfies_and.1 h).1))
  sound hwidens := absurd hwidens (by simp [Filter.widens, hleft, hright])

/-- The negation of a single branch. -/
lemma not_single (h : Covers record t [m]) (halternates : t.alternates = false) :
    Covers record (.not t) [m.map (! ·)] := by
  have hwidens := Filter.widens_of_not_alternates halternates
  refine ⟨by simp, ?_, ?_, ?_⟩
  · intro hnegates
    have hnone := h.negatesOr ((Filter.alternates_or_negatesOr hnegates).resolve_left
      (by simp [halternates]))
    obtain rfl : none = m := by simpa using hnone
    simp
  · intro hnone hsat
    cases m with
    | none => simp at hnone
    | some b =>
      cases b with
      | false => simp
      | true =>
        have htrue := h.sound hwidens (by simp) (by simp)
        simp [satisfies_not, htrue] at hsat
  · intro _ hnone htrue
    cases m with
    | none => simp at hnone
    | some b =>
      cases b with
      | true => simp at htrue
      | false =>
        have hfalse : record.satisfies t ≠ true := fun hsat => by
          simpa using h.complete (by simp) hsat
        simp [satisfies_not, hfalse]

/-- The negation of several branches, which cannot be said. -/
lemma not_several : Covers record (.not t) [none] :=
  ⟨by simp, by simp, by simp, by simp⟩

end Covers

/-! ## Compiled branches -/

section

variable {IsField : List String → Prop} {record : Record} {l r : List (Option Bool)}

/-- Two filters in this form joined. -/
def Where.join : Connective → Where → Where → Where
  | .and => .and
  | .or => .or

/-- The sides of a joined filter are compiled on their own. -/
lemma ofFilter_logical_eq_ok {kind : Connective} {left right : Filter} {w : Where}
    (ok : Where.ofFilter (.logical kind left right) = .ok w) :
    ∃ wl wr, Where.ofFilter left = .ok wl ∧ Where.ofFilter right = .ok wr ∧
      w = Where.join kind wl wr := by
  cases kind with
  | and =>
    obtain ⟨wl, hwl, ok⟩ := bind_eq_ok_iff.1 ok
    obtain ⟨wr, hwr, ok⟩ := bind_eq_ok_iff.1 ok
    cases ok
    exact ⟨wl, wr, hwl, hwr, rfl⟩
  | or =>
    obtain ⟨wl, hwl, ok⟩ := bind_eq_ok_iff.1 ok
    obtain ⟨wr, hwr, ok⟩ := bind_eq_ok_iff.1 ok
    cases ok
    exact ⟨wl, wr, hwl, hwr, rfl⟩

/-- A filter is compiled to alternatives if and only if it has some. -/
lemma ofFilter_alternates {t : Filter} {w : Where} (ok : Where.ofFilter t = .ok w) :
    t.alternates = true ↔ ∃ branches, w = .any branches := by
  induction t generalizing w with
  | comparison field op value =>
    obtain ⟨_, -, ok⟩ := bind_eq_ok_iff.1 ok
    cases ok
    simp [Filter.alternates]
  | logical kind left right ihleft ihright =>
    obtain ⟨wl, wr, hwl, hwr, rfl⟩ := ofFilter_logical_eq_ok ok
    cases kind with
    | or => exact ⟨fun _ => ⟨_, rfl⟩, fun _ => rfl⟩
    | and =>
      simp only [Filter.alternates, Bool.or_eq_true, ihleft hwl, ihright hwr]
      cases wl <;> cases wr <;> simp [Where.join, Where.and]
  | not child ih =>
    obtain ⟨_, -, ok⟩ := bind_eq_ok_iff.1 ok
    cases ok
    simp [Filter.alternates, Where.not]

/-- Joined filters: what the branches of both sides say. -/
lemma and_branches (fields : FieldPaths IsField) {t u : Filter} {wl wr : Where}
    (hwl : t.alternates = true ↔ ∃ branches, wl = .any branches)
    (hwr : u.alternates = true ↔ ∃ branches, wr = .any branches)
    (hl : List.Forall₂ (Branch IsField record) wl.branches l)
    (hr : List.Forall₂ (Branch IsField record) wr.branches r) :
    ∃ ms, List.Forall₂ (Branch IsField record) (wl.and wr).branches ms ∧
      (Covers record t l → Covers record u r → Covers record (.logical .and t u) ms) := by
  have hmap : ∀ {bs ns members m}, List.Forall₂ (Branch IsField record) bs ns →
      Branch IsField record members m →
      List.Forall₂ (Branch IsField record) (bs.map (mergeObjects · members)) (ns.map (both · m)) := by
    intro bs ns members m hbs hm
    rw [List.forall₂_map_left_iff, List.forall₂_map_right_iff]
    exact hbs.imp fun _ _ h => h.merge fields hm
  cases wl with
  | all left =>
    obtain _ | ⟨hleft, _ | _⟩ := hl
    cases wr with
    | all right =>
      obtain _ | ⟨hright, _ | _⟩ := hr
      exact ⟨_, hmap (.cons hleft .nil) hright, fun ht hu => ht.and_single hu⟩
    | any branches =>
      exact ⟨_, hmap hr hleft, fun ht hu => (hu.and_single ht).and_comm⟩
  | any branches =>
    cases wr with
    | all right =>
      obtain _ | ⟨hright, _ | _⟩ := hr
      exact ⟨_, hmap hl hright, fun ht hu => ht.and_single hu⟩
    | any others =>
      refine ⟨_, List.rel_append hl hr, fun ht hu => ?_⟩
      exact ht.and_widened hu (hwl.2 ⟨_, rfl⟩) (hwr.2 ⟨_, rfl⟩)

/-- The branches of a compiled filter can be read, and if its numbers are finite they cover what the
filter says. -/
theorem ofFilter_branches (fields : FieldPaths IsField) {t : Filter} {w : Where}
    (paths : ∀ path ∈ t.paths, IsField path) (ok : Where.ofFilter t = .ok w) (record : Record) :
    ∃ ms, List.Forall₂ (Branch IsField record) w.branches ms ∧
      (t.isFinite = true → Covers record t ms) := by
  induction t generalizing w with
  | comparison field op value =>
    obtain ⟨_, hshape, ok⟩ := bind_eq_ok_iff.1 ok
    cases ok
    have haccepts := accepts_of_checkShape hshape
    have hfield : IsField (fieldPath field) := paths _ (by simp [Filter.paths, Filter.comparisons])
    refine ⟨_, .cons (.nestPath hfield (enveloped_condition haccepts)) .nil, fun hfinite => ?_⟩
    exact .comparison (by simpa [Filter.isFinite, Filter.comparisons] using hfinite)
  | logical kind left right ihleft ihright =>
    have hpaths : (Filter.logical kind left right).paths = left.paths ++ right.paths := by
      simp [Filter.paths, Filter.comparisons]
    rw [hpaths] at paths
    rw [Filter.isFinite_logical, Bool.and_eq_true]
    obtain ⟨wl, wr, hwl, hwr, rfl⟩ := ofFilter_logical_eq_ok ok
    obtain ⟨l, hl, hcl⟩ := ihleft (fun path h => paths path (List.mem_append_left _ h)) hwl
    obtain ⟨r, hr, hcr⟩ := ihright (fun path h => paths path (List.mem_append_right _ h)) hwr
    cases kind with
    | or => exact ⟨_, List.rel_append hl hr, fun h => (hcl h.1).or (hcr h.2)⟩
    | and =>
      obtain ⟨ms, hms, hcovers⟩ :=
        and_branches fields (ofFilter_alternates hwl) (ofFilter_alternates hwr) hl hr
      exact ⟨ms, hms, fun h => hcovers (hcl h.1) (hcr h.2)⟩
  | not child ih =>
    obtain ⟨wc, hwc, ok⟩ := bind_eq_ok_iff.1 ok
    cases ok
    obtain ⟨ms, hms, hcovers⟩ := ih paths hwc
    have halternates := ofFilter_alternates hwc
    cases wc with
    | all members =>
      obtain _ | ⟨hbranch, _ | _⟩ := hms
      refine ⟨_, .cons hbranch.not .nil, fun h => (hcovers h).not_single ?_⟩
      simpa using halternates
    | any branches => exact ⟨_, .cons (.not_alternatives _) .nil, fun _ => .not_several⟩

/-! ## Opened branches -/

/-- The document is a branch with its envelopes opened, if the branch says `m`. -/
def OpenedBranch (IsField : List String → Prop) (record : Record) (m : Option Bool) (out : Json) :
    Prop :=
  ∃ members, out = .obj members ∧ Readable IsField record [] m members

lemma Branch.resolveBranch (fields : FieldPaths IsField) {members : Members} {m : Option Bool}
    {out : Json} (h : Branch IsField record members m)
    (ok : resolveBranch .recording (.obj members) = .ok out) : OpenedBranch IsField record m out := by
  obtain ⟨-, n, h⟩ := h
  obtain ⟨opened, hopened, ok⟩ := bind_eq_ok_iff.1 ok
  cases ok
  have hheight : heightAmong members ≤ height (.obj members) := by
    rw [height]
    exact Nat.le_succ _
  exact ⟨opened, rfl, (h.of_height hheight).resolveObject fields hopened⟩

lemma resolve_branches (fields : FieldPaths IsField) {branches : List Members}
    {ms : List (Option Bool)} {outs : List Json}
    (h : List.Forall₂ (Branch IsField record) branches ms)
    (ok : (branches.map .obj).mapM (resolveBranch .recording) = .ok outs) :
    List.Forall₂ (OpenedBranch IsField record) ms outs := by
  induction h generalizing outs with
  | nil =>
    cases ok
    exact .nil
  | cons head tail ih =>
    rw [List.map_cons, List.mapM_cons] at ok
    obtain ⟨out, hout, ok⟩ := bind_eq_ok_iff.1 ok
    obtain ⟨more, hmore, ok⟩ := bind_eq_ok_iff.1 ok
    cases ok
    exact .cons (head.resolveBranch fields hout) (ih hmore)

lemma OpenedBranch.unmarked {ms : List (Option Bool)} {outs : List Json}
    (h : List.Forall₂ (OpenedBranch IsField record) ms outs) : markedIn outs = false := by
  induction h with
  | nil => rfl
  | cons head tail ih =>
    obtain ⟨members, rfl, hreadable⟩ := head
    simp [markedIn, marked, hreadable.unmarked, ih]

lemma OpenedBranch.means (plain : PlainNames IsField) {ms : List (Option Bool)} {outs : List Json}
    (h : List.Forall₂ (OpenedBranch IsField record) ms outs) :
    ms = outs.map fun out => some (branchHolds record out) := by
  induction h with
  | nil => rfl
  | cons head tail ih =>
    obtain ⟨members, rfl, hreadable⟩ := head
    rw [hreadable.means plain, ih]
    rfl

/-- A filter with its envelopes opened has no marker left.  If no name can be taken for a call, all of
its branches can be said, and it matches if one of them is true. -/
theorem resolve_readable (fields : FieldPaths IsField) {w : Where} {ms : List (Option Bool)} {f : Json}
    (h : List.Forall₂ (Branch IsField record) w.branches ms)
    (ok : resolve .recording w.toJson = .ok f) :
    marked f = false ∧
      (PlainNames IsField →
        none ∉ ms ∧ (some true ∈ ms ↔ record.matchesFilter f = true)) := by
  have hlist : ∀ {outs}, List.Forall₂ (OpenedBranch IsField record) ms outs →
      PlainNames IsField →
        none ∉ ms ∧ (some true ∈ ms ↔ outs.any (branchHolds record) = true) := by
    intro outs houts plain
    rw [OpenedBranch.means plain houts]
    simp
  cases w with
  | all members =>
    obtain _ | ⟨hbranch, _ | _⟩ := h
    have hopened := hbranch.resolveBranch fields ok
    have hlist := hlist (.cons hopened .nil)
    have hunmarked := OpenedBranch.unmarked (.cons hopened .nil)
    obtain ⟨opened, rfl, -⟩ := hopened
    simp only [markedIn, Bool.or_false] at hunmarked
    simp only [List.any_cons, List.any_nil, Bool.or_false] at hlist
    exact ⟨hunmarked, hlist⟩
  | any branches =>
    obtain ⟨outs, houts, ok⟩ := bind_eq_ok_iff.1 ok
    cases ok
    have hopened := resolve_branches fields h houts
    exact ⟨OpenedBranch.unmarked hopened, hlist hopened⟩

end

/-! ## The whole way -/

lemma ofFilter_total {t : Filter} (shapes : ∀ c ∈ t.comparisons, c.2.1.accepts c.2.2 = true) :
    ∃ w, Where.ofFilter t = .ok w := by
  induction t with
  | comparison field op value =>
    have haccepts := shapes (field, op, value) (by simp [Filter.comparisons])
    exact ⟨_, by rw [Where.ofFilter, checkShape, if_pos haccepts]; rfl⟩
  | logical kind left right ihleft ihright =>
    obtain ⟨wl, hwl⟩ := ihleft fun c hc => shapes c (by simp [Filter.comparisons, hc])
    obtain ⟨wr, hwr⟩ := ihright fun c hc => shapes c (by simp [Filter.comparisons, hc])
    cases kind with
    | and => exact ⟨_, by rw [Where.ofFilter, hwl, hwr]; rfl⟩
    | or => exact ⟨_, by rw [Where.ofFilter, hwl, hwr]; rfl⟩
  | not child ih =>
    obtain ⟨w, hw⟩ := ih shapes
    exact ⟨_, by rw [Where.ofFilter, hw]; rfl⟩

/-- The fields of a filter can be told apart if their names are no markers and no path leads on from
another. -/
lemma fieldPaths_of_prefixFree {t : Filter}
    (unmarked : ∀ path ∈ t.paths, ∀ key ∈ path, key ∉ markers)
    (prefixFree : ∀ path ∈ t.paths, ∀ other ∈ t.paths, path <+: other → path = other) :
    FieldPaths (· ∈ t.paths) where
  prefixFree := by
    intro path key rest hpath hlonger
    simpa using prefixFree path hpath _ hlonger (List.prefix_append path (key :: rest))
  unmarked := fun hpath hkey => unmarked _ hpath _ hkey

/-- **Compiled filters match what the filter says.**  A filter whose values are of the kinds that its
operators take, whose numbers are finite, and whose fields can be told apart is compiled.  If the
envelopes can be opened, no disjunction was negated, and every record that satisfies the filter matches
what comes out; no other record does, unless the filter joins two disjunctions by `and`. -/
theorem compile_resolve_matches {t : Filter}
    (shapes : ∀ c ∈ t.comparisons, c.2.1.accepts c.2.2 = true) (finite : t.isFinite = true)
    (names : ∀ path ∈ t.paths, ∀ key ∈ path, key ∉ markers ∧ key.toList.head? ≠ some '@')
    (prefixFree : ∀ path ∈ t.paths, ∀ other ∈ t.paths, path <+: other → path = other) :
    ∃ draft, compile t = .ok draft ∧ ∀ f, resolve .recording draft = .ok f →
      t.negatesOr = false ∧ ∀ record : Record,
        (record.satisfies t = true → record.matchesFilter f = true) ∧
        (t.widens = false → (record.matchesFilter f = true ↔ record.satisfies t = true)) := by
  have fields := fieldPaths_of_prefixFree (fun path hp key hk => (names path hp key hk).1) prefixFree
  have plain : PlainNames (· ∈ t.paths) := fun path key hp hk => (names path hp key hk).2
  obtain ⟨w, hw⟩ := ofFilter_total shapes
  refine ⟨w.toJson, by rw [compile, hw]; rfl, fun f hf => ?_⟩
  have key : ∀ record : Record, ∃ ms, Covers record t ms ∧ none ∉ ms ∧
      (some true ∈ ms ↔ record.matchesFilter f = true) := by
    intro record
    obtain ⟨ms, hms, hcovers⟩ := ofFilter_branches fields (fun _ h => h) hw record
    exact ⟨ms, hcovers finite, (resolve_readable fields hms hf).2 plain⟩
  constructor
  · obtain ⟨ms, hcovers, hnone, -⟩ := key fun _ _ => true
    by_contra h
    exact hnone (hcovers.negatesOr (by simpa using h))
  · intro record
    obtain ⟨ms, hcovers, hnone, hmatches⟩ := key record
    rw [← hmatches]
    exact ⟨hcovers.complete hnone, fun hwidens =>
      ⟨hcovers.sound hwidens hnone, hcovers.complete hnone⟩⟩

/-- A conjunction with a disjunction on one side and negations on both. -/
def negatedConditions : Filter :=
  .and
    (.and (.comparison "a.b" .gt (.scalar (.int 1)))
      (.not (.not (.comparison "a.c" .ne (.scalar (.int 9))))))
    (.or (.comparison "d" .between (.range .null (.int 5)))
      (.not (.comparison "a.b" .isIn (.list [.str "x"]))))

/-- Each branch takes the rest of the filter, where two negations have cancelled. -/
theorem compile_resolve_matches_negatedConditions :
    ∃ draft f, compile negatedConditions = .ok draft ∧ resolve .recording draft = .ok f ∧
      f = .arr [
        .obj [("d", recorder "lessThanOrEqual" [.int 5]),
          ("a", .obj [("b", recorder "moreThan" [.int 1]), ("c", recorder "not" [.int 9])])],
        .obj [("a", .obj [
          ("b", recorder "and"
            [recorder "moreThan" [.int 1], recorder "not" [recorder "in" [.arr [.str "x"]]]]),
          ("c", recorder "not" [.int 9])])]] ∧
      ∀ record : Record,
        record.matchesFilter f = true ↔ record.satisfies negatedConditions = true := by
  obtain ⟨draft, hdraft, h⟩ := compile_resolve_matches (t := negatedConditions)
    (by decide) (by decide) (by decide) (by decide)
  refine ⟨draft, _, hdraft, ?_, rfl, fun record => ((h _ ?_).2 record).2 rfl⟩ <;>
    · cases hdraft
      rfl

end FilterLang.TypeOrm
