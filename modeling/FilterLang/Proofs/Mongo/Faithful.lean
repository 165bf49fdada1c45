import FilterLang.Proofs.Json.Reading
import FilterLang.Proofs.Outcome
import FilterLang.Target.Mongo

/-!
# MongoDB filters match what the filter says, and have no idle lists

Lists of the same connective are joined by looking into documents that are compiled already: a document
with the key of the connective as its only key gives way to its items.  This is right as long as every
such document has a list there, and it leaves no list with a single item and none that could have been
joined to the list around it.  `tidy` is the check of all of this, and both the meaning and the check are
carried through the compilation together: a field that starts with a dollar sign would break either.
-/

namespace FilterLang.Mongo

/-! ## Reading -/

/-- The connectives among the keys. -/
def role (key : String) : Role :=
  if key = "$and" then .all else if key = "$or" then .any else if key = "$nor" then .none else .field

/-- A record, given by its answers to conditions on its fields. -/
structure Record where
  answer : String → Json → Bool
  /-- Two bounds in one condition are both of them. -/
  range : ∀ field lower upper,
    answer field (.obj [("$gte", lower), ("$lte", upper)]) =
      (answer field (.single "$gte" lower) && answer field (.single "$lte" upper))

/-- The condition that a text matches a regular expression, whatever the case of its letters. -/
def search (pattern : String) : Json := .obj [("$regex", .str pattern), ("$options", .str "i")]

namespace Record

variable (record : Record)

/-- The reading of filters that goes with the answers of a record. -/
def reader : Reader := ⟨role, record.answer⟩

/-- The record matches the MongoDB filter. -/
def matchesFilter (document : Json) : Bool := record.reader.holds document

/-- A comparison of a field; a range is the bounds that it sets. -/
def comparisonHolds (field : String) : Operator → Value → Bool
  | .between, .range lower upper =>
    rangeHolds (fun bound => record.answer field (.single "$gte" bound))
      (fun bound => record.answer field (.single "$lte" bound)) lower upper
  | .eq, value => record.answer field value.toJson
  | .ne, value => record.answer field (.single "$ne" value.toJson)
  | .gt, value => record.answer field (.single "$gt" value.toJson)
  | .gte, value => record.answer field (.single "$gte" value.toJson)
  | .lt, value => record.answer field (.single "$lt" value.toJson)
  | .lte, value => record.answer field (.single "$lte" value.toJson)
  | .isIn, value => record.answer field (.single "$in" value.toJson)
  | .notIn, value => record.answer field (.single "$nin" value.toJson)
  | .contains, .scalar literal => record.answer field (search (escapeRegex literal.text))
  | .startsWith, .scalar literal => record.answer field (search ("^" ++ escapeRegex literal.text))
  | .endsWith, .scalar literal => record.answer field (search (escapeRegex literal.text ++ "$"))
  | _, _ => false

/-- The record satisfies the filter. -/
def satisfies (t : Filter) : Bool := t.eval .twoValued record.comparisonHolds

end Record

/-! ## Lists without need -/

/-- The document is an object with the key as its only key. -/
def isLone (key : String) : Json → Bool
  | .obj [(k, _)] => k = key
  | _ => false

/-- A list under the key of a connective: it has at least two items, and none of them is a list of the
same connective. -/
def tidyList (key : String) : Json → Bool
  | .arr items => decide (2 ≤ items.length) && items.all fun item => !isLone key item
  | _ => false

mutual

/-- Every list under the key of a connective has a need, wherever in the document it stands. -/
def tidy : Json → Bool
  | .obj members => tidyMembers members
  | .arr items => tidyItems items
  | _ => true
termination_by structural document => document

/-- Every list under the key of a connective has a need, in all members of an object. -/
def tidyMembers : List (String × Json) → Bool
  | [] => true
  | (key, value) :: rest =>
    (if key = "$and" ∨ key = "$or" then tidyList key value else true) && tidy value &&
      tidyMembers rest
termination_by structural members => members

/-- Every list under the key of a connective has a need, in all items of a list. -/
def tidyItems : List Json → Bool
  | [] => true
  | item :: rest => tidy item && tidyItems rest
termination_by structural items => items

end

lemma tidyItems_append (left right : List Json) :
    tidyItems (left ++ right) = (tidyItems left && tidyItems right) := by
  induction left with
  | nil => rw [List.nil_append, tidyItems, Bool.true_and]
  | cons item rest ih => rw [List.cons_append, tidyItems, tidyItems, ih, Bool.and_assoc]

lemma tidy_single {key : String} (h : key ≠ "$and" ∧ key ≠ "$or") (value : Json) :
    tidy (.single key value) = tidy value := by
  simp [Json.single, tidy, tidyMembers, h.1, h.2]

lemma tidy_single_connective (kind : Connective) (items : List Json) :
    tidy (.single (connectiveKey kind) (.arr items)) =
      (tidyList (connectiveKey kind) (.arr items) && tidyItems items) := by
  cases kind <;> simp [connectiveKey, Json.single, tidy, tidyMembers]

lemma tidy_scalar (literal : Scalar) : tidy literal.toJson = true := by
  cases literal with
  | float x =>
    simp only [Scalar.toJson]
    split <;> rfl
  | _ => rfl

lemma tidyItems_scalars (items : List Scalar) : tidyItems (items.map Scalar.toJson) = true := by
  induction items with
  | nil => rfl
  | cons item rest ih => rw [List.map_cons, tidyItems, tidy_scalar, ih, Bool.and_true]

lemma tidy_toJson (value : Value) : tidy value.toJson = true := by
  cases value with
  | scalar literal => exact tidy_scalar literal
  | list items => rw [Value.toJson, tidy, tidyItems_scalars]
  | range lower upper => simp [Value.toJson, tidy, tidyItems, tidy_scalar]

/-! ## Comparisons -/

lemma role_eq_field {field : String} (h : field.toList.head? ≠ some '$') : role field = .field := by
  have hne : ∀ key : String, key.toList.head? = some '$' → field ≠ key := by
    rintro key hkey rfl
    exact h hkey
  rw [role, if_neg (hne _ (by decide)), if_neg (hne _ (by decide)), if_neg (hne _ (by decide))]

lemma ne_connective {field : String} (h : field.toList.head? ≠ some '$') :
    field ≠ "$and" ∧ field ≠ "$or" := by
  constructor <;>
    · rintro rfl
      exact h (by decide)

lemma matchesFilter_single (record : Record) {field : String} (h : field.toList.head? ≠ some '$')
    (condition : Json) :
    record.matchesFilter (.single field condition) = record.answer field condition := by
  rw [Record.matchesFilter, Reader.holds_single, Reader.memberHolds_field (role_eq_field h)]
  rfl

/-- What a filter becomes: a document that says the same and has no list without need. -/
structure Faithful (t : Filter) (document : Json) : Prop where
  tidy : tidy document = true
  holds : ∀ record : Record, record.matchesFilter document = record.satisfies t

lemma Faithful.single {field : String} {op : Operator} {value : Value} {condition : Json}
    (name : field.toList.head? ≠ some '$') (tidy : Mongo.tidy condition = true)
    (holds : ∀ record : Record,
      record.answer field condition = record.comparisonHolds field op value) :
    Faithful (.comparison field op value) (.single field condition) where
  tidy := by rw [tidy_single (ne_connective name), tidy]
  holds record := by
    rw [matchesFilter_single record name, holds record]
    rfl

lemma tidy_bounds (lower upper : Scalar) :
    tidy (.obj (boundMembers "$gte" "$lte" lower upper)) = true := by
  rw [boundMembers]
  cases lower.bound? <;> cases upper.bound? <;> simp [tidy, tidyMembers, tidy_scalar]

/-- A range says what its bounds say; with none of them set it is true. -/
lemma comparisonHolds_range (record : Record) (field : String) (lower upper : Scalar) :
    record.comparisonHolds field .between (.range lower upper) =
      match boundMembers "$gte" "$lte" lower upper with
      | [] => true
      | bounds => record.answer field (.obj bounds) := by
  rw [Record.comparisonHolds, rangeHolds, boundMembers]
  cases lower.bound? with
  | none =>
    cases upper.bound? with
    | none => rfl
    | some upper => exact Bool.true_and _
  | some lower =>
    cases upper.bound? with
    | none => exact Bool.and_true _
    | some upper => exact (record.range field lower.toJson upper.toJson).symm

/-- A range is compiled to its bounds, and to nothing if it sets none. -/
lemma comparison_range {field : String} (lower upper : Scalar)
    (name : field.toList.head? ≠ some '$') :
    ∃ document, comparison field .between (.range lower upper) = .ok document ∧
      Faithful (.comparison field .between (.range lower upper)) document := by
  have hcompiled : comparison field .between (.range lower upper) =
      match boundMembers "$gte" "$lte" lower upper with
      | [] => .ok (.obj [])
      | bounds => .ok (.single field (.obj bounds)) := rfl
  have hholds := fun record => comparisonHolds_range record field lower upper
  have htidy := tidy_bounds lower upper
  rw [hcompiled]
  cases hbounds : boundMembers "$gte" "$lte" lower upper with
  | nil =>
    simp only [hbounds] at hholds
    exact ⟨_, rfl, rfl, fun record => (hholds record).symm⟩
  | cons bound rest =>
    simp only [hbounds] at hholds
    exact ⟨_, rfl, .single name (hbounds ▸ htidy) fun record => (hholds record).symm⟩

/-- A comparison is compiled to a condition on its field that says the same. -/
lemma comparison_faithful {field : String} {op : Operator} {value : Value}
    (accepts : op.accepts value = true)
    (searches : op.isPattern = true → ∀ items, value ≠ .list items) (name : field.toList.head? ≠ some '$') :
    ∃ document, comparison field op value = .ok document ∧
      Faithful (.comparison field op value) document := by
  have hshape : checkShape field op value = .ok () := if_pos accepts
  cases op with
  | between =>
    cases value with
    | range lower upper => exact comparison_range lower upper name
    | scalar | list => exact absurd accepts (by simp [Operator.accepts])
  | eq =>
    refine ⟨_, ?_, .single name (tidy_toJson value) fun record => rfl⟩
    unfold comparison
    rw [hshape]
    rfl
  | contains | startsWith | endsWith =>
    cases value with
    | scalar literal => exact ⟨_, rfl, .single name rfl fun record => rfl⟩
    | list items => exact absurd rfl (searches rfl items)
    | range => exact absurd accepts (by simp [Operator.accepts])
  | _ =>
    refine ⟨_, ?_, .single name ((tidy_single (by decide) _).trans (tidy_toJson value))
      fun record => rfl⟩
    unfold comparison
    rw [hshape]
    rfl

/-! ## Connectives -/

/-- What a document brings to a list of a connective. -/
structure Brings (kind : Connective) (document : Json) (items : List Json) : Prop where
  ne_nil : items ≠ []
  not_lone : ∀ item ∈ items, isLone (connectiveKey kind) item = false
  tidy : tidyItems items = true
  holds : ∀ record : Record, record.reader.listHolds kind items = record.matchesFilter document

lemma memberHolds_connective (record : Record) (kind : Connective) (items : List Json) :
    record.reader.memberHolds (connectiveKey kind) (.arr items) =
      record.reader.listHolds kind items := by
  cases kind with
  | and => exact Reader.memberHolds_all rfl items
  | or => exact Reader.memberHolds_any rfl items

/-- A tidy document brings its items or itself. -/
lemma brings_operands (kind : Connective) {document : Json} (h : tidy document = true) :
    Brings kind document (operands (connectiveKey kind) document) := by
  have hself : isLone (connectiveKey kind) document = false → Brings kind document [document] := by
    intro hlone
    refine ⟨by simp, by simp [hlone], by simp [tidyItems, h], fun record => ?_⟩
    rw [Reader.listHolds_singleton, Record.matchesFilter]
  unfold operands
  split
  · rename_i k value
    split
    · -- the document has a list of the same connective
      rename_i hkey
      subst hkey
      cases value with
      | arr items =>
        rw [← Json.single, tidy_single_connective, Bool.and_eq_true] at h
        obtain ⟨hlist, hitems⟩ := h
        simp only [tidyList, Bool.and_eq_true, decide_eq_true_eq, List.all_eq_true,
          Bool.not_eq_true'] at hlist
        refine ⟨?_, hlist.2, hitems, fun record => ?_⟩
        · rintro rfl
          simp at hlist
        · rw [Record.matchesFilter, ← Json.single, Reader.holds_single, memberHolds_connective]
      | _ =>
        -- without a list under the key, the document is not tidy
        exfalso
        revert h
        cases kind <;> simp [tidy, tidyMembers, tidyList, connectiveKey]
    · -- the only key is another one
      rename_i hkey
      exact hself (by simp [isLone, hkey])
  · rename_i hshape
    refine hself ?_
    unfold isLone
    split
    · exact absurd rfl (hshape _ _)
    · rfl

/-- The items of both sides in one list. -/
lemma Brings.join {kind : Connective} {left right : Filter} {dl dr : Json} {ls rs : List Json}
    (hl : Brings kind dl ls) (hr : Brings kind dr rs) (fl : Faithful left dl) (fr : Faithful right dr) :
    Faithful (.logical kind left right) (.single (connectiveKey kind) (.arr (ls ++ rs))) where
  tidy := by
    have hlength : 2 ≤ (ls ++ rs).length := by
      have hls := List.length_pos_iff.2 hl.ne_nil
      have hrs := List.length_pos_iff.2 hr.ne_nil
      rw [List.length_append]
      omega
    have hlone : ∀ item ∈ ls ++ rs, isLone (connectiveKey kind) item = false := by
      intro item hitem
      rcases List.mem_append.1 hitem with hitem | hitem
      · exact hl.not_lone item hitem
      · exact hr.not_lone item hitem
    have hlist : tidyList (connectiveKey kind) (.arr (ls ++ rs)) = true := by
      simp only [tidyList, Bool.and_eq_true, decide_eq_true_eq, List.all_eq_true, Bool.not_eq_true']
      exact ⟨hlength, hlone⟩
    rw [tidy_single_connective, tidyItems_append, hlist, hl.tidy, hr.tidy]
    rfl
  holds record := by
    rw [Record.matchesFilter, Reader.holds_single, memberHolds_connective, Reader.listHolds_append,
      hl.holds record, hr.holds record, fl.holds record, fr.holds record]
    rfl

lemma Faithful.not {t : Filter} {document : Json} (h : Faithful t document) :
    Faithful (.not t) (.single "$nor" (.arr [document])) where
  tidy := by
    rw [tidy_single (by decide), Mongo.tidy, tidyItems, h.tidy]
    rfl
  holds record := by
    rw [Record.matchesFilter, Reader.holds_single, Reader.memberHolds_none rfl,
      Reader.anyHold_singleton, ← Record.matchesFilter, h.holds record]
    rfl

/-! ## Filters -/

lemma exists_faithful {t : Filter} (shapes : ∀ c ∈ t.comparisons, c.2.1.accepts c.2.2 = true)
    (searches : ∀ c ∈ t.comparisons, c.2.1.isPattern = true → ∀ items, c.2.2 ≠ .list items)
    (names : ∀ c ∈ t.comparisons, c.1.toList.head? ≠ some '$') :
    ∃ document, compile t = .ok document ∧ Faithful t document := by
  induction t with
  | comparison field op value =>
    have hmem : (field, op, value) ∈ (Filter.comparison field op value).comparisons := by
      simp [Filter.comparisons]
    exact comparison_faithful (shapes _ hmem) (searches _ hmem) (names _ hmem)
  | logical kind left right ihleft ihright =>
    simp only [Filter.comparisons, List.mem_append] at shapes searches names
    obtain ⟨dl, hdl, hl⟩ := ihleft (fun c hc => shapes c (.inl hc))
      (fun c hc => searches c (.inl hc)) fun c hc => names c (.inl hc)
    obtain ⟨dr, hdr, hr⟩ := ihright (fun c hc => shapes c (.inr hc))
      (fun c hc => searches c (.inr hc)) fun c hc => names c (.inr hc)
    refine ⟨_, by rw [compile, hdl, hdr]; rfl, ?_⟩
    exact (brings_operands kind hl.tidy).join (brings_operands kind hr.tidy) hl hr
  | not child ih =>
    obtain ⟨document, hdocument, h⟩ := ih shapes searches names
    exact ⟨_, by rw [compile, hdocument]; rfl, h.not⟩

/-- **MongoDB filters match what the filter says, and have no idle lists.**  Take a filter whose values are
of the kinds that its operators take, in which no text search is given a list and no field starts with a
dollar sign.  It has a MongoDB filter, which a record matches if and only if it satisfies the filter; and
wherever that filter has a list under `$and` or `$or`, the list has at least two items, none of which is
an object with the same key alone. -/
theorem compile_tidy_matches {t : Filter}
    (shapes : ∀ c ∈ t.comparisons, c.2.1.accepts c.2.2 = true)
    (searches : ∀ c ∈ t.comparisons, c.2.1.isPattern = true → ∀ items, c.2.2 ≠ .list items)
    (names : ∀ c ∈ t.comparisons, c.1.toList.head? ≠ some '$') :
    ∃ document, compile t = .ok document ∧ tidy document = true ∧
      ∀ record : Record, record.matchesFilter document = true ↔ record.satisfies t = true := by
  obtain ⟨document, hdocument, h⟩ := exists_faithful shapes searches names
  exact ⟨document, hdocument, h.tidy, fun record => by rw [h.holds record]⟩

/-- The number of a field, or the lack of one, is what a document says. -/
def isStored (stored : Option Int) : Json → Bool
  | .null => stored.isNone
  | .int n => stored == some n
  | _ => false

/-- The number of a field, or the lack of one, meets a demand of a condition. -/
def meetsDemand (stored : Option Int) : String → Json → Bool
  | "$ne", value => !isStored stored value
  | "$gt", .int n => stored.any (n < ·)
  | "$gte", .int n => stored.any (n ≤ ·)
  | "$lt", .int n => stored.any (· < n)
  | "$lte", .int n => stored.any (· ≤ n)
  | "$in", .arr items => items.any (isStored stored)
  | "$nin", .arr items => !items.any (isStored stored)
  | _, _ => false

/-- A record of whole numbers.  A field that it lacks is `null`, and no search finds a number. -/
def Record.ofNumbers (numbers : List (String × Int)) : Record where
  answer field condition :=
    match condition with
    | .obj demands => demands.all fun demand => meetsDemand (numbers.lookup field) demand.1 demand.2
    | value => isStored (numbers.lookup field) value
  range field lower upper := by simp [Json.single]

/-- Chains of both connectives inside each other, with an open range below a negation. -/
def nestedChains : Filter :=
  .and
    (.and (.comparison "a.b" .eq (.scalar (.int 1)))
      (.and (.comparison "c" .between (.range (.int 2) (.int 3)))
        (.not (.and (.comparison "d" .between (.range .null .null))
          (.comparison "e" .contains (.scalar (.str "1+1")))))))
    (.or (.comparison "f" .notIn (.list [.null]))
      (.or (.not (.or (.comparison "a.b" .gt (.scalar (.int 4))) (.comparison "e" .ne (.scalar .null))))
        (.comparison "f" .between (.range .null (.int 5)))))

/-- The chains become lists side by side; the open range is an empty object in its list.  Of two records that
differ in a bounded field, the one within the bounds matches. -/
theorem compile_tidy_matches_nestedChains :
    ∃ document, compile nestedChains = .ok document ∧ tidy document = true ∧
      document = .single "$and" (.arr [
        .single "a.b" (.int 1),
        .single "c" (.obj [("$gte", .int 2), ("$lte", .int 3)]),
        .single "$nor" (.arr [.single "$and" (.arr [.obj [], .single "e" (search "1\\+1")])]),
        .single "$or" (.arr [
          .single "f" (.single "$nin" (.arr [.null])),
          .single "$nor" (.arr [.single "$or" (.arr [.single "a.b" (.single "$gt" (.int 4)),
            .single "e" (.single "$ne" .null)])]),
          .single "f" (.single "$lte" (.int 5))])]) ∧
      (∀ record : Record,
        record.matchesFilter document = true ↔ record.satisfies nestedChains = true) ∧
      (Record.ofNumbers [("a.b", 1), ("c", 3)]).matchesFilter document = true ∧
      (Record.ofNumbers [("a.b", 1), ("c", 4)]).matchesFilter document = false := by
  obtain ⟨document, hdocument, htidy, h⟩ :=
    compile_tidy_matches (t := nestedChains) (by decide)
      (by simp [nestedChains, Filter.comparisons, Operator.isPattern]) (by decide)
  have hwithin := (h (.ofNumbers [("a.b", 1), ("c", 3)])).2 (by decide)
  have hbeyond : ¬ (Record.ofNumbers [("a.b", 1), ("c", 4)]).matchesFilter document = true := fun hmatches =>
    absurd ((h _).1 hmatches) (by decide)
  refine ⟨document, hdocument, htidy, ?_, h, hwithin, Bool.eq_false_iff.2 hbeyond⟩
  cases hdocument
  rfl

end FilterLang.Mongo
