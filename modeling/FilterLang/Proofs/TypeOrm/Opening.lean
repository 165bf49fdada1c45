import FilterLang.Proofs.TypeOrm.Lowering

/-!
# Opened drafts

When the envelopes of a draft are opened with functions that record their calls, the document that comes
out says what the draft says, and nothing in it has a marker as a key.  The main statement is
`Object.resolveObject`.

A relation whose only member has a name like that of a function would be read as a call; this is the
reason for asking that the names of fields do not start as those of functions do.
-/

namespace FilterLang.TypeOrm

/-! ## Markers in a document -/

mutual

/-- There is an object in the document with a marker as a key. -/
def marked : Json → Bool
  | .arr items => markedIn items
  | .obj members => markedAmong members
  | _ => false
termination_by structural document => document

/-- There is a marker in one of the items. -/
def markedIn : List Json → Bool
  | [] => false
  | item :: rest => marked item || markedIn rest
termination_by structural items => items

/-- One of the members has a marker as its key, or there is a marker in its value. -/
def markedAmong : List (String × Json) → Bool
  | [] => false
  | (key, value) :: rest => markers.contains key || marked value || markedAmong rest
termination_by structural members => members

end

lemma marked_toJson (value : Value) : marked value.toJson = false := by
  have hscalar : ∀ s : Scalar, marked s.toJson = false := by
    intro s
    cases s with
    | float x =>
      simp only [Scalar.toJson]
      split <;> rfl
    | _ => rfl
  have hscalars : ∀ items : List Scalar, markedIn (items.map Scalar.toJson) = false := by
    intro items
    induction items with
    | nil => rfl
    | cons item rest ih => simp [markedIn, hscalar, ih]
  cases value with
  | scalar s => exact hscalar s
  | list items => exact hscalars items
  | range lower upper => exact hscalars [lower, upper]

/-! ## Recorded calls -/

lemma call_recording {name : String} (h : name ∈ FunctionTable.names) (arguments : List Json) :
    FunctionTable.recording.call name arguments = .ok (recorder name arguments) := by
  simp only [FunctionTable.names, List.mem_cons, List.not_mem_nil, or_false] at h
  rcases h with rfl | rfl | rfl | rfl | rfl | rfl | rfl | rfl | rfl | rfl | rfl <;> rfl

@[simp] lemma isCall_recorder (name : String) (arguments : List Json) :
    isCall (recorder name arguments) = true := by
  simp [recorder, Json.single, isCall]

@[simp] lemma marked_recorder (name : String) (arguments : List Json) :
    marked (recorder name arguments) = markedIn arguments := by
  have hne : "@" ++ name ∉ markers := by
    intro h
    simp only [markers, List.mem_cons, List.not_mem_nil, or_false] at h
    rcases h with h | h | h <;>
      simpa [operatorMarker, logicalMarker, notMarker] using congrArg (·.toList.head?) h
  simp [recorder, Json.single, marked, markedAmong, hne]

section

variable {answer : Test → Bool} {b : Bool}

/-- What is left of a condition, if it is said as a call: nothing if it always holds. -/
def Opened (answer : Test → Bool) (b : Bool) : Option Json → Prop
  | none => b = true
  | some call =>
    isCall call = true ∧ conditionHolds answer call = b ∧ marked call = false

lemma Opened.recorder {name : String} {arguments : List Json}
    (holds : conditionHolds answer (recorder name arguments) = b)
    (unmarked : markedIn arguments = false) : Opened answer b (some (recorder name arguments)) :=
  ⟨isCall_recorder name arguments, holds, by rwa [marked_recorder]⟩

lemma callPlain_opened {value out : Json} (unmarked : marked value = false)
    (ok : callPlain .recording value = .ok out) :
    Opened answer (answer (.equal value)) (some out) := by
  unfold callPlain at ok
  split at ok
  · rw [call_recording (by decide)] at ok
    cases ok
    exact .recorder rfl rfl
  · rw [call_recording (by decide)] at ok
    cases ok
    exact .recorder rfl (by simp [markedIn, unmarked])

lemma callNot_opened {opened out : Option Json} (h : Opened answer b opened)
    (ok : callNot .recording opened = .ok out) : Opened answer (!b) out := by
  cases opened with
  | none => cases ok
  | some call =>
    rw [callNot, call_recording (by decide)] at ok
    cases ok
    obtain ⟨-, rfl, hmarked⟩ := h
    exact .recorder rfl (by simp [markedIn, hmarked])

/-- What is left of several conditions: the calls for those that do not always hold. -/
structure OpenedAll (answer : Test → Bool) (b : Bool) (calls : List Json) : Prop where
  isCall : ∀ call ∈ calls, isCall call = true
  holds : conditionsHold answer calls = b
  unmarked : markedIn calls = false

lemma callAnd_opened {calls : List Json} {out : Option Json} (h : OpenedAll answer b calls)
    (ok : callAnd .recording calls = .ok out) : Opened answer b out := by
  match calls with
  | [] =>
    cases ok
    exact h.holds.symm
  | [call] =>
    cases ok
    have holds := h.holds
    have unmarked := h.unmarked
    simp only [conditionsHold, Bool.and_true, markedIn, Bool.or_false] at holds unmarked
    exact ⟨h.isCall call (by simp), holds, unmarked⟩
  | first :: second :: rest =>
    cases ok
    exact .recorder h.holds h.unmarked

lemma OpenedAll.cons {opened : Option Json} {calls : List Json} {a : Bool}
    (head : Opened answer a opened) (tail : OpenedAll answer b calls) :
    OpenedAll answer (a && b) (opened.toList ++ calls) := by
  cases opened with
  | none =>
    obtain rfl : a = true := head
    simpa using tail
  | some call =>
    obtain ⟨hcall, hholds, hmarked⟩ := head
    refine ⟨?_, ?_, ?_⟩
    · simpa [hcall] using tail.isCall
    · simp [conditionsHold, hholds, tail.holds]
    · simp [markedIn, hmarked, tail.unmarked]

lemma callOperator_ne_opened {value : Json} {out : Option Json}
    (hvalue : ∀ members, value ≠ .obj members) (unmarked : marked value = false)
    (ok : callOperator .recording .ne value = .ok out) :
    Opened answer (operatorHolds answer .ne value) out := by
  cases value with
  | null =>
    cases ok
    exact .recorder rfl rfl
  | obj members => exact absurd rfl (hvalue members)
  | _ =>
    cases ok
    exact .recorder rfl (by simp [markedIn, unmarked])

lemma bound?_eq_some {value bound : Json} (h : value.bound? = some bound) : value = bound := by
  cases value <;> simp_all [Json.bound?]

lemma callOperator_between_opened {lower upper : Json} {out : Option Json}
    (hlower : marked lower = false) (hupper : marked upper = false)
    (ok : callOperator .recording .between (.arr [lower, upper]) = .ok out) :
    Opened answer (operatorHolds answer .between (.arr [lower, upper])) out := by
  simp only [callOperator, rangeBounds?] at ok
  simp only [operatorHolds]
  -- A range that is open on both sides leaves nothing, and one open end leaves one bound.
  cases hl : lower.bound? with
  | none =>
    cases hu : upper.bound? with
    | none =>
      simp only [hl, hu] at ok
      cases ok
      rfl
    | some high =>
      simp only [hl, hu] at ok
      cases ok
      refine .recorder (by simp; rfl) ?_
      simp [markedIn, ← bound?_eq_some hu, hupper]
  | some low =>
    cases hu : upper.bound? with
    | none =>
      simp only [hl, hu] at ok
      cases ok
      refine .recorder (by simp; rfl) ?_
      simp [markedIn, ← bound?_eq_some hl, hlower]
    | some high =>
      simp only [hl, hu] at ok
      cases ok
      refine .recorder rfl ?_
      simp [markedIn, ← bound?_eq_some hl, ← bound?_eq_some hu, hlower, hupper]

/-- An operator with its value says as a call what it says in an envelope. -/
lemma callOperator_opened {op : Operator} {value : Value} {out : Option Json} (ne : op ≠ .eq)
    (accepts : op.accepts value = true) (ok : callOperator .recording op value.toJson = .ok out) :
    Opened answer (operatorHolds answer op value.toJson) out := by
  have unmarked := marked_toJson value
  have unmarkedIn : markedIn [value.toJson] = false := by simp [markedIn, unmarked]
  cases op with
  | eq => exact absurd rfl ne
  | ne => exact callOperator_ne_opened (toJson_ne_obj value) unmarked ok
  | notIn =>
    cases ok
    exact .recorder rfl (by simpa [markedIn] using unmarked)
  | gt | gte | lt | lte | isIn =>
    cases ok
    exact .recorder rfl unmarkedIn
  | contains | startsWith | endsWith =>
    cases ok
    exact .recorder rfl rfl
  | between =>
    cases value with
    | scalar | list => cases accepts
    | range lower upper =>
      exact callOperator_between_opened (marked_toJson (.scalar lower))
        (marked_toJson (.scalar upper)) ok

/-- A document that is no envelope is compared with. -/
lemma callForm_of_get? {table : FunctionTable} {document : Json} (h : document.get? operatorMarker = none) :
    callForm table document =
      callPlain table document >>= fun call => pure (some call) := by
  cases document with
  | obj members =>
    have hhas : Members.has operatorMarker members = false := by
      simpa [Members.has, Json.get?] using h
    rw [callForm.eq_def]
    simp only [hhas, Bool.false_eq_true, if_false]
  | _ => rfl

lemma callForm_envelope_not (table : FunctionTable) (condition : Json) :
    callForm table (envelope "not" condition) = callForm table condition >>= callNot table := rfl

lemma callForm_envelope_and (table : FunctionTable) (conditions : List Json) :
    callForm table (envelope "and" (.arr conditions)) =
      callForms table conditions >>= callAnd table := rfl

lemma callForm_envelope_operator (table : FunctionTable) {op : Operator} (ne : op ≠ .eq)
    (value : Json) :
    callForm table (envelope op.name value) = callOperator table op value := by
  cases op with
  | eq => exact absurd rfl ne
  | _ => rfl

mutual

/-- A condition says as a call what it says in a draft. -/
lemma Condition.callForm {condition : Json} {b : Bool} {out : Option Json}
    (h : Condition answer condition b) (ok : callForm .recording condition = .ok out) :
    Opened answer b out := by
  match h with
  | .equal value =>
    rw [callForm_of_get? (get?_toJson value operatorMarker)] at ok
    obtain ⟨call, hcall, ok⟩ := bind_eq_ok_iff.1 ok
    cases ok
    exact callPlain_opened (marked_toJson value) hcall
  | .operator ne accepts =>
    rw [callForm_envelope_operator .recording ne] at ok
    exact callOperator_opened ne accepts ok
  | .not means =>
    rw [callForm_envelope_not] at ok
    obtain ⟨opened, hopened, ok⟩ := bind_eq_ok_iff.1 ok
    exact callNot_opened (means.callForm hopened) ok
  | .and means =>
    rw [callForm_envelope_and] at ok
    obtain ⟨calls, hcalls, ok⟩ := bind_eq_ok_iff.1 ok
    exact callAnd_opened (means.callForms hcalls) ok

lemma Conditions.callForms {conditions : List Json} {b : Bool} {calls : List Json}
    (h : Conditions answer conditions b) (ok : callForms .recording conditions = .ok calls) :
    OpenedAll answer b calls := by
  match h with
  | .nil =>
    rw [TypeOrm.callForms] at ok
    cases ok
    exact ⟨by simp, rfl, rfl⟩
  | .cons head tail =>
    rw [TypeOrm.callForms] at ok
    obtain ⟨opened, hopened, ok⟩ := bind_eq_ok_iff.1 ok
    obtain ⟨more, hmore, ok⟩ := bind_eq_ok_iff.1 ok
    cases ok
    exact .cons (head.callForm hopened) (tail.callForms hmore)

end

end

/-! ## Opened objects -/

section

variable {IsField : List String → Prop} {record : Record} {n : Nat} {path : List String}
  {members : Members} {m : Option Bool}

lemma entryHolds_of_isCall {call : Json} (h : isCall call = true) :
    entryHolds record path call = conditionHolds (record path) call := by
  cases call with
  | obj members => exact if_pos h
  | _ => rfl

lemma entryHolds_obj (h : isCall (.obj members) = false) :
    entryHolds record path (.obj members) = membersHold record path members := by
  rw [entryHolds]
  exact if_neg (by simp [h])

/-- A condition with its envelopes opened says what it says in a draft, and nothing is left of it only
if it always holds. -/
lemma Condition.openCondition {condition : Json} {b : Bool} {out : Option Json}
    (h : Condition (record path) condition b) (ok : openCondition .recording condition = .ok out) :
    out.all (entryHolds record path) = b ∧ out.any marked = false := by
  have hopened : ∀ {opened}, Opened (record path) b opened →
      opened.all (entryHolds record path) = b ∧ opened.any marked = false := by
    intro opened hopened
    cases opened with
    | none => exact ⟨hopened.symm, rfl⟩
    | some call =>
      obtain ⟨hcall, hholds, hmarked⟩ := hopened
      exact ⟨(entryHolds_of_isCall hcall).trans hholds, hmarked⟩
  cases h with
  | equal value =>
    have hvalue := toJson_ne_obj value
    have hmarked := marked_toJson value
    revert hvalue hmarked ok
    cases value.toJson with
    | obj members => exact fun _ hvalue => absurd rfl (hvalue members)
    | null =>
      intro ok _ _
      cases ok
      exact ⟨rfl, rfl⟩
    | _ =>
      intro ok _ hmarked
      cases ok
      exact ⟨rfl, hmarked⟩
  | operator ne accepts => exact hopened (Condition.callForm (.operator ne accepts) ok)
  | not means => exact hopened (Condition.callForm (.not means) ok)
  | and means => exact hopened (Condition.callForm (.and means) ok)

/-- No name of a field starts as the calls in a document do. -/
def PlainNames (IsField : List String → Prop) : Prop :=
  ∀ path key, IsField path → key ∈ path → key.toList.head? ≠ some '@'

/-- What an object with its envelopes opened has to be, if it says `m` in the draft. -/
structure Readable (IsField : List String → Prop) (record : Record) (path : List String)
    (m : Option Bool) (out : Members) : Prop where
  unmarked : markedAmong out = false
  notCall : PlainNames IsField → isCall (.obj out) = false
  means : PlainNames IsField → m = some (membersHold record path out)

lemma Readable.nil : Readable IsField record path (some true) [] :=
  ⟨rfl, fun _ => rfl, fun _ => rfl⟩

lemma Readable.cons {key : String} {value : Json} {out : Members} {a : Option Bool}
    (hfield : ∃ rest, IsField (path ++ key :: rest)) (hkey : key ∉ markers)
    (unmarked : marked value = false)
    (head : PlainNames IsField → a = some (entryHolds record (path ++ [key]) value))
    (tail : Readable IsField record path m out) :
    Readable IsField record path (both a m) ((key, value) :: out) where
  unmarked := by simp [markedAmong, hkey, unmarked, tail.unmarked]
  notCall plain := by
    obtain ⟨rest, hfield⟩ := hfield
    have hname := plain _ key hfield (by simp)
    simp only [isCall]
    split
    · simp_all
    · rfl
  means plain := by
    rw [head plain, tail.means plain]
    rfl

end

section

variable {IsField : List String → Prop} {record : Record} {n : Nat} {path : List String}
  {members : Members} {m : Option Bool} {nested : Members → Except EnvelopeError Members}

lemma openMembers_cons_condition {key : String} {value : Json} {rest : Members}
    (h : isRelation value = false) (table : FunctionTable) :
    openMembers table nested ((key, value) :: rest) = (do
      let opened ← openCondition table value
      let more ← openMembers table nested rest
      return opened.elim more fun value => (key, value) :: more) := by
  cases value with
  | obj inner =>
    rw [openMembers]
    simp only [h, Bool.false_eq_true, if_false]
    refine bind_congr fun opened => bind_congr fun more => ?_
    cases opened <;> rfl
  | _ =>
    refine bind_congr fun opened => bind_congr fun more => ?_
    cases opened <;> rfl

lemma openMembers_cons_relation {key : String} {inner rest : Members}
    (h : isRelation (.obj inner) = true) (table : FunctionTable) :
    openMembers table nested ((key, .obj inner) :: rest) = (do
      let opened ← nested inner
      let more ← openMembers table nested rest
      return (key, .obj opened) :: more) := by
  rw [openMembers]
  simp only [h, if_true, pure_bind]

variable (fields : FieldPaths IsField)

include fields

/-- The members of an object without negations opened, if those of its relations can be. -/
lemma Object.openMembers {out : Members}
    (relations : ∀ {k path members m out}, n = k + 1 → Object IsField record k path members m →
      nested members = .ok out → Readable IsField record path m out)
    (h : Object IsField record n path members m) (hnot : members.lookup notMarker = none)
    (ok : openMembers .recording nested members = .ok out) :
    Readable IsField record path m out := by
  induction members generalizing m out with
  | nil =>
    cases h
    cases ok
    exact .nil
  | cons member rest ih =>
    cases h with
    | cons fresh head tail =>
      obtain ⟨hkey, hrest⟩ := lookup_cons_eq_none_iff.1 hnot
      cases head with
      | negation => exact absurd rfl hkey
      | field entry =>
        have hfield := entry.exists_field
        have hmarker := entry.key_notMem fields
        cases entry with
        | condition field means =>
          rw [openMembers_cons_condition means.isRelation] at ok
          obtain ⟨opened, hopened, ok⟩ := bind_eq_ok_iff.1 ok
          obtain ⟨more, hmore, ok⟩ := bind_eq_ok_iff.1 ok
          cases ok
          have hmore := ih tail hrest hmore
          obtain ⟨rfl, hmarked⟩ := means.openCondition hopened
          cases opened with
          | none => rwa [Option.all_none, true_both]
          | some value => exact hmore.cons hfield hmarker hmarked fun _ => rfl
        | relation leads ne_nil means =>
          rw [openMembers_cons_relation (means.isRelation fields)] at ok
          obtain ⟨opened, hopened, ok⟩ := bind_eq_ok_iff.1 ok
          obtain ⟨more, hmore, ok⟩ := bind_eq_ok_iff.1 ok
          cases ok
          -- A relation can be read as one because its own names are not those of calls.
          have hopened := relations rfl means hopened
          refine (ih tail hrest hmore).cons hfield hmarker hopened.unmarked fun plain => ?_
          rw [entryHolds_obj (hopened.notCall plain)]
          exact hopened.means plain

/-- An object with its envelopes opened says what the draft says, and has no marker left. -/
theorem Object.resolveObject {out : Members} (h : Object IsField record n path members m)
    (ok : resolveObject .recording n members = .ok out) : Readable IsField record path m out := by
  induction n generalizing path members m out with
  | zero =>
    obtain ⟨lowered, hlowered, ok⟩ := bind_eq_ok_iff.1 ok
    obtain ⟨hobject, hnot⟩ := h.lower fields hlowered
    exact hobject.openMembers fields (fun hk => absurd hk (by simp)) hnot ok
  | succ n ih =>
    obtain ⟨lowered, hlowered, ok⟩ := bind_eq_ok_iff.1 ok
    obtain ⟨hobject, hnot⟩ := h.lower fields hlowered
    refine hobject.openMembers fields (fun hk hinner hok => ?_) hnot ok
    obtain rfl := Nat.succ.inj hk
    exact ih hinner hok

end

end FilterLang.TypeOrm
