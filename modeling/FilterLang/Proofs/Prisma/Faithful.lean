import FilterLang.Proofs.Json.Members
import FilterLang.Proofs.Json.Reading
import FilterLang.Proofs.Outcome
import FilterLang.Target.Prisma

/-!
# Prisma filters match what the filter says

A Prisma filter is an object of conditions that all have to hold.  A key is `AND`, `OR` or `NOT`, or else a
field; below a field, an object is the next part of a path unless its key is that of a condition.  The
fields of a filter must not use these keys, or a field could not be told from a connective or a condition.

Joining two objects key by key is where a condition could get lost.  The step is `membersHold_mergeMember`:
whatever the key of the incoming member, and whatever is under `AND` at that moment, the joined object says
what both sides say.
-/

namespace FilterLang.Prisma

/-! ## Reading -/

/-- The connectives among the keys. -/
def role (key : String) : Role :=
  if key = "AND" then .all else if key = "OR" then .any else if key = "NOT" then .not else .field

/-- The keys of conditions. -/
def conditionKeys : List String :=
  ["equals", "not", "gt", "gte", "lt", "lte", "in", "notIn", "contains", "startsWith", "endsWith"]

/-- The keys that stand for something else than a part of a path. -/
def reservedKeys : List String := ["AND", "OR", "NOT"] ++ conditionKeys

/-- A record, given by its answers to conditions: the path to the value, the key of the condition, and what
it compares with. -/
abbrev Record := List String → String → Json → Bool

section

variable (record : Record)

mutual

/-- What the document at the end of a path says. -/
def pathHolds (path : List String) : Json → Bool
  | .obj members => entriesHold path members
  | _ => false
termination_by structural document => document

/-- What the members of the object at the end of a path say together. -/
def entriesHold (path : List String) : List (String × Json) → Bool
  | [] => true
  | (key, value) :: rest =>
    (if key ∈ conditionKeys then record path key value else pathHolds (path ++ [key]) value) &&
      entriesHold path rest
termination_by structural members => members

end

/-- The reading of filters that goes with the answers of a record. -/
def reader : Reader := ⟨role, fun key value => pathHolds record [key] value⟩

/-- A comparison of a field; a range is the bounds that it sets. -/
def comparisonHolds (field : String) : Operator → Value → Bool
  | .between, .range lower upper =>
    rangeHolds (record (fieldPath field) "gte") (record (fieldPath field) "lte") lower upper
  | .eq, value => record (fieldPath field) "equals" value.toJson
  | .ne, value => record (fieldPath field) "not" value.toJson
  | op, value => record (fieldPath field) op.name value.toJson

/-- The record satisfies the filter. -/
def Record.satisfies (t : Filter) : Bool := t.eval .twoValued (comparisonHolds record)

/-- The record matches the Prisma filter. -/
def Record.matchesFilter (document : Json) : Bool := (reader record).holds document

end

variable {record : Record}

/-! ## Conditions on a field -/

lemma entriesHold_cons_condition {path : List String} {key : String} (h : key ∈ conditionKeys)
    (value : Json) (rest : Members) :
    entriesHold record path ((key, value) :: rest) =
      (record path key value && entriesHold record path rest) := by
  rw [entriesHold, if_pos h]

lemma pathHolds_single {path : List String} {key : String} (h : key ∈ conditionKeys) (value : Json) :
    pathHolds record path (.single key value) = record path key value := by
  rw [Json.single, pathHolds, entriesHold_cons_condition h, entriesHold, Bool.and_true]

lemma pathHolds_bounds (path : List String) (lower upper : Scalar) :
    pathHolds record path (.obj (boundMembers "gte" "lte" lower upper)) =
      rangeHolds (record path "gte") (record path "lte") lower upper := by
  have hgte : "gte" ∈ conditionKeys := by decide
  have hlte : "lte" ∈ conditionKeys := by decide
  rw [pathHolds, rangeHolds, boundMembers]
  cases lower.bound? <;> cases upper.bound? <;> simp [entriesHold, hgte, hlte]

/-- A comparison becomes a condition that says the same at the end of the path. -/
lemma condition_holds (field : String) {op : Operator} {value : Value}
    (h : op.accepts value = true) :
    ∃ document, condition field op value = .ok document ∧ ∀ record : Record,
      pathHolds record (fieldPath field) document = comparisonHolds record field op value := by
  have hshape : checkShape field op value = .ok () := if_pos h
  cases op with
  | between =>
    cases value with
    | range lower upper => exact ⟨_, rfl, fun record => pathHolds_bounds _ lower upper⟩
    | scalar | list => exact absurd h (by simp [Operator.accepts])
  | _ =>
    refine ⟨_, ?_, fun record => pathHolds_single ?_ _⟩
    · unfold condition
      rw [hshape]
      rfl
    · decide

/-- Nested objects lead along a path. -/
lemma pathHolds_nest (path : List String) {rest : List String}
    (h : ∀ key ∈ rest, key ∉ reservedKeys) (document : Json) :
    pathHolds record path (nest rest document) = pathHolds record (path ++ rest) document := by
  induction rest generalizing path with
  | nil => rw [List.append_nil]; rfl
  | cons key rest ih =>
    have hkey : key ∉ conditionKeys := fun hmem =>
      h key (by simp) (List.mem_append_right _ hmem)
    have hrest := ih (path ++ [key]) fun k hk => h k (List.mem_cons_of_mem _ hk)
    rw [List.append_assoc] at hrest
    rw [← List.singleton_append, ← hrest]
    simp [nest, Json.single, pathHolds, entriesHold, hkey]

lemma role_eq_field {key : String} (h : key ∉ reservedKeys) : role key = .field := by
  simp only [reservedKeys, List.cons_append, List.nil_append, List.mem_cons, not_or] at h
  rw [role, if_neg h.1, if_neg h.2.1, if_neg h.2.2.1]

lemma membersHold_nestPath {field : String} (h : ∀ key ∈ fieldPath field, key ∉ reservedKeys)
    (document : Json) :
    (reader record).membersHold (nestPath field document) =
      pathHolds record (fieldPath field) document := by
  have hne := fieldPath_ne_nil field
  rw [nestPath]
  revert h hne
  cases fieldPath field with
  | nil => exact fun _ hne => absurd rfl hne
  | cons key rest =>
    intro h _
    have hkey : (reader record).role key = .field := role_eq_field (h key (by simp))
    rw [Reader.membersHold, Reader.membersHold, Bool.and_true, Reader.memberHolds_field hkey]
    exact pathHolds_nest [key] (fun k hk => h k (List.mem_cons_of_mem _ hk)) document

/-! ## Joining objects -/

/-- What stands under `AND` is a list. -/
def ListsConjuncts (members : Members) : Prop :=
  ∀ value, ("AND", value) ∈ members → ∃ items, value = .arr items

lemma ListsConjuncts.set {members : Members} (h : ListsConjuncts members) {key : String} {value : Json}
    (hvalue : key = "AND" → ∃ items, value = .arr items) :
    ListsConjuncts (Members.set key value members) := by
  intro v hv
  rcases mem_set hv with heq | hv
  · obtain ⟨hand, rfl⟩ := Prod.mk.inj heq
    exact hvalue hand.symm
  · exact h v hv

/-- A list under `AND` grows by what is appended to it. -/
lemma membersHold_set_and {members : Members} {items : List Json} (incoming : List Json)
    (h : members.lookup "AND" = some (.arr items)) :
    (reader record).membersHold (Members.set "AND" (.arr (items ++ incoming)) members) =
      ((reader record).membersHold members && (reader record).allHold incoming) := by
  have hrole : (reader record).role "AND" = .all := rfl
  induction members with
  | nil => simp at h
  | cons member rest ih =>
    obtain ⟨k, v⟩ := member
    by_cases hk : "AND" = k
    · subst hk
      obtain rfl : v = .arr items := by simpa using h
      rw [Members.set, if_pos rfl, Reader.membersHold, Reader.membersHold,
        Reader.memberHolds_all hrole, Reader.memberHolds_all hrole, Reader.allHold_append,
        Bool.and_right_comm]
    · rw [lookup_cons_of_ne hk] at h
      rw [Members.set, if_neg (Ne.symm hk), Reader.membersHold, Reader.membersHold, ih h,
        Bool.and_assoc]

lemma membersHold_appendConjuncts {members : Members} (h : ListsConjuncts members)
    (incoming : List Json) :
    (reader record).membersHold (appendConjuncts members incoming) =
      ((reader record).membersHold members && (reader record).allHold incoming) := by
  have hrole : (reader record).role "AND" = .all := rfl
  cases hand : members.lookup "AND" with
  | none =>
    rw [appendConjuncts, hand, set_eq_append hand, Reader.membersHold_append, Reader.membersHold,
      Reader.membersHold, Bool.and_true, Reader.memberHolds_all hrole]
  | some value =>
    obtain ⟨items, rfl⟩ := h value (mem_of_lookup hand)
    rw [appendConjuncts, hand]
    exact membersHold_set_and incoming hand

/-- A member joined to an object adds what it says. -/
lemma membersHold_mergeMember {left : Members} (h : ListsConjuncts left) {key : String} {value : Json}
    (hvalue : key = "AND" → ∃ items, value = .arr items) :
    (reader record).membersHold (mergeMember left key value) =
      ((reader record).membersHold left && (reader record).memberHolds key value) := by
  unfold mergeMember
  split
  · -- the key is new
    rename_i hnew
    have hnone : left.lookup key = none := by simpa [Members.has] using hnew
    rw [set_eq_append hnone, Reader.membersHold_append, Reader.membersHold, Reader.membersHold,
      Bool.and_true]
  · split
    · -- both sides have a list of conjuncts
      rename_i hand
      subst hand
      obtain ⟨items, rfl⟩ := hvalue rfl
      rw [membersHold_appendConjuncts h, Reader.memberHolds_all rfl]
    · rw [membersHold_appendConjuncts h, Reader.allHold_singleton, Reader.holds_single]

lemma ListsConjuncts.mergeMember {left : Members} (h : ListsConjuncts left) {key : String}
    {value : Json} (hvalue : key = "AND" → ∃ items, value = .arr items) :
    ListsConjuncts (mergeMember left key value) := by
  unfold Prisma.mergeMember
  split
  · exact h.set hvalue
  · split
    · split <;> exact h.set fun _ => ⟨_, rfl⟩
    · exact h.set fun _ => ⟨_, rfl⟩

/-- Joining two objects is saying both. -/
lemma mergeAnd_holds {left right : Members} (hl : ListsConjuncts left) (hr : ListsConjuncts right) :
    ListsConjuncts (mergeAnd left right) ∧ ∀ record : Record,
      (reader record).membersHold (mergeAnd left right) =
        ((reader record).membersHold left && (reader record).membersHold right) := by
  -- The members of the right object go into the left one by one.
  unfold mergeAnd
  induction right generalizing left with
  | nil => exact ⟨hl, fun record => by rw [List.foldl_nil, Reader.membersHold, Bool.and_true]⟩
  | cons member rest ih =>
    obtain ⟨key, value⟩ := member
    have hvalue : key = "AND" → ∃ items, value = .arr items := by
      rintro rfl
      exact hr value List.mem_cons_self
    have hrest : ListsConjuncts rest := fun v hv => hr v (List.mem_cons_of_mem _ hv)
    obtain ⟨hlists, hholds⟩ := ih (hl.mergeMember hvalue) hrest
    refine ⟨hlists, fun record => ?_⟩
    rw [List.foldl_cons, hholds record, membersHold_mergeMember hl hvalue, Reader.membersHold,
      Bool.and_assoc]

/-- The alternatives of a filter say what the filter says. -/
lemma anyHold_alternatives (members : Members) :
    (reader record).anyHold (alternatives members) = (reader record).membersHold members := by
  unfold alternatives
  split
  · rw [Reader.membersHold, Reader.membersHold, Bool.and_true, Reader.memberHolds_any rfl]
  · rw [Reader.anyHold_singleton, Reader.holds]

/-! ## Filters -/

lemma listsConjuncts_single {key : String} (h : key ≠ "AND") (value : Json) :
    ListsConjuncts [(key, value)] := by
  intro v hv
  simp [Ne.symm h] at hv

lemma listsConjuncts_nestPath {field : String} (h : (fieldPath field).head? ≠ some "AND")
    (document : Json) : ListsConjuncts (nestPath field document) := by
  rw [nestPath]
  split
  · exact fun v hv => absurd hv List.not_mem_nil
  · rename_i key rest hpath
    refine listsConjuncts_single ?_ _
    rintro rfl
    simp [hpath] at h

/-- The members of a filter say what the filter says. -/
lemma members_holds {t : Filter} (shapes : ∀ c ∈ t.comparisons, c.2.1.accepts c.2.2 = true)
    (names : ∀ c ∈ t.comparisons, ∀ key ∈ fieldPath c.1, key ∉ reservedKeys) :
    ∃ m, members t = .ok m ∧ ListsConjuncts m ∧
      ∀ record : Record, (reader record).membersHold m = record.satisfies t := by
  induction t with
  | comparison field op value =>
    have hmem : (field, op, value) ∈ (Filter.comparison field op value).comparisons := by
      simp [Filter.comparisons]
    obtain ⟨document, hdocument, hholds⟩ := condition_holds field (shapes _ hmem)
    have hhead : (fieldPath field).head? ≠ some "AND" := fun h =>
      names _ hmem "AND" (List.mem_of_mem_head? h) (by decide)
    refine ⟨nestPath field document, ?_, listsConjuncts_nestPath hhead document, ?_⟩
    · rw [members, hdocument]; rfl
    · intro record
      rw [membersHold_nestPath (names _ hmem), hholds record]
      rfl
  | logical kind left right ihleft ihright =>
    simp only [Filter.comparisons, List.mem_append] at shapes names
    obtain ⟨l, hl, hlistsl, hholdsl⟩ :=
      ihleft (fun c hc => shapes c (.inl hc)) fun c hc => names c (.inl hc)
    obtain ⟨r, hr, hlistsr, hholdsr⟩ :=
      ihright (fun c hc => shapes c (.inr hc)) fun c hc => names c (.inr hc)
    cases kind with
    | and =>
      obtain ⟨hlists, hholds⟩ := mergeAnd_holds hlistsl hlistsr
      refine ⟨mergeAnd l r, by rw [members, hl, hr]; rfl, hlists, fun record => ?_⟩
      rw [hholds record, hholdsl record, hholdsr record]
      rfl
    | or =>
      refine ⟨_, by rw [members, hl, hr]; rfl, listsConjuncts_single (by decide) _, fun record => ?_⟩
      rw [Reader.membersHold, Reader.membersHold, Bool.and_true, Reader.memberHolds_any rfl,
        Reader.anyHold_append, anyHold_alternatives, anyHold_alternatives, hholdsl record,
        hholdsr record]
      rfl
  | not child ih =>
    obtain ⟨m, hm, -, hholds⟩ := ih shapes names
    refine ⟨_, by rw [members, hm]; rfl, listsConjuncts_single (by decide) _, fun record => ?_⟩
    rw [Reader.membersHold, Reader.membersHold, Bool.and_true, Reader.memberHolds_not rfl,
      hholds record]
    rfl

/-- **Prisma filters match what the filter says.**  A filter whose values are of the kinds that its
operators take, and whose fields use no key of a connective or of a condition, has a Prisma filter.  A record
matches it if and only if the record satisfies the filter, whatever the record answers to conditions. -/
theorem compile_matches {t : Filter} (shapes : ∀ c ∈ t.comparisons, c.2.1.accepts c.2.2 = true)
    (names : ∀ c ∈ t.comparisons, ∀ key ∈ fieldPath c.1, key ∉ reservedKeys) :
    ∃ document, compile t = .ok (.single "where" document) ∧
      ∀ record : Record, record.matchesFilter document = true ↔ record.satisfies t = true := by
  obtain ⟨m, hm, -, hholds⟩ := members_holds shapes names
  refine ⟨.obj m, by rw [compile, hm]; rfl, fun record => ?_⟩
  rw [← hholds record, Record.matchesFilter, Reader.holds]

/-- Conjunctions whose sides share their keys: a field, `OR`, `NOT` and, in the end, `AND`. -/
def collidingClauses : Filter :=
  .and
    (.and
      (.and (.comparison "a.b" .gt (.scalar (.int 1))) (.comparison "a.c" .ne (.scalar .null)))
      (.or (.comparison "d" .isIn (.list [.int 2]))
        (.or (.comparison "e" .eq (.scalar (.str "x"))) (.comparison "e" .between (.range .null .null)))))
    (.and
      (.and (.not (.comparison "d" .between (.range .null (.int 5))))
        (.not (.comparison "d" .startsWith (.scalar (.str "y")))))
      (.or (.comparison "a.b" .lt (.scalar (.int 9))) (.comparison "d" .eq (.scalar (.bool true)))))

/-- Every clause whose key is taken goes into the list under `AND`. -/
theorem compile_matches_collidingClauses :
    ∃ document, compile collidingClauses = .ok (.single "where" document) ∧
      document = .obj [
        ("a", .single "b" (.single "gt" (.int 1))),
        ("AND", .arr [
          .single "a" (.single "c" (.single "not" .null)),
          .single "NOT" (.single "d" (.single "startsWith" (.str "y"))),
          .single "OR" (.arr [.single "a" (.single "b" (.single "lt" (.int 9))),
            .single "d" (.single "equals" (.bool true))])]),
        ("OR", .arr [.single "d" (.single "in" (.arr [.int 2])),
          .single "e" (.single "equals" (.str "x")), .single "e" (.obj [])]),
        ("NOT", .single "d" (.single "lte" (.int 5)))] ∧
      ∀ record : Record,
        record.matchesFilter document = true ↔ record.satisfies collidingClauses = true := by
  obtain ⟨document, hdocument, h⟩ :=
    compile_matches (t := collidingClauses) (by decide) (by decide)
  refine ⟨document, hdocument, ?_, h⟩
  cases hdocument
  rfl

end FilterLang.Prisma
