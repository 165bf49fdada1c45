import FilterLang.Proofs.Filter.Meaning
import FilterLang.Target.Basic

/-!
# What a filter document says

The documents of the targets differ in their keys, but they are read alike: an object is the conjunction
of its members, some keys join or negate filters, and every other key stands for a field with a condition.
A `Reader` says which keys are which and what a condition on a field means.  Everything else about a
document follows, and so does what happens to its meaning when lists and objects are put together.
-/

namespace FilterLang

/-- What a target takes a key of a filter object for. -/
inductive Role where
  /-- All filters of a list. -/
  | all
  /-- One of the filters of a list. -/
  | any
  /-- None of the filters of a list. -/
  | none
  /-- The opposite of a filter. -/
  | not
  /-- A condition on a field. -/
  | field

/-- How a target reads the members of a filter object. -/
structure Reader where
  role : String → Role
  /-- What the value of a key says that stands for a field. -/
  field : String → Json → Bool

namespace Reader

variable (reader : Reader)

mutual

/-- What a filter document says. -/
def holds : Json → Bool
  | .obj members => membersHold members
  | _ => false
termination_by structural document => document

/-- All members of a filter object. -/
def membersHold : List (String × Json) → Bool
  | [] => true
  | (key, value) :: rest => memberHolds key value && membersHold rest
termination_by structural members => members

/-- What a member of a filter object says. -/
def memberHolds (key : String) : Json → Bool
  | .arr items =>
    match reader.role key with
    | .all => allHold items
    | .any => anyHold items
    | .none => !anyHold items
    | .not => false
    | .field => reader.field key (.arr items)
  | .obj members =>
    match reader.role key with
    | .not => !membersHold members
    | .field => reader.field key (.obj members)
    | _ => false
  | value =>
    match reader.role key with
    | .field => reader.field key value
    | _ => false
termination_by structural value => value

/-- All filters of a list. -/
def allHold : List Json → Bool
  | [] => true
  | item :: rest => holds item && allHold rest
termination_by structural items => items

/-- One of the filters of a list. -/
def anyHold : List Json → Bool
  | [] => false
  | item :: rest => holds item || anyHold rest
termination_by structural items => items

end

/-- The filters of a list, joined by a connective. -/
def listHolds : Connective → List Json → Bool
  | .and => reader.allHold
  | .or => reader.anyHold

variable {reader} {key : String}

lemma holds_single (value : Json) : reader.holds (.single key value) = reader.memberHolds key value := by
  rw [Json.single, holds, membersHold, membersHold, Bool.and_true]

lemma membersHold_append (left right : Members) :
    reader.membersHold (left ++ right) = (reader.membersHold left && reader.membersHold right) := by
  induction left with
  | nil => rw [List.nil_append, membersHold, Bool.true_and]
  | cons member rest ih => rw [List.cons_append, membersHold, membersHold, ih, Bool.and_assoc]

lemma memberHolds_all (h : reader.role key = .all) (items : List Json) :
    reader.memberHolds key (.arr items) = reader.allHold items := by
  rw [memberHolds, h]

lemma memberHolds_any (h : reader.role key = .any) (items : List Json) :
    reader.memberHolds key (.arr items) = reader.anyHold items := by
  rw [memberHolds, h]

lemma memberHolds_none (h : reader.role key = .none) (items : List Json) :
    reader.memberHolds key (.arr items) = !reader.anyHold items := by
  rw [memberHolds, h]

lemma memberHolds_not (h : reader.role key = .not) (members : Members) :
    reader.memberHolds key (.obj members) = !reader.membersHold members := by
  rw [memberHolds, h]

lemma memberHolds_field (h : reader.role key = .field) (value : Json) :
    reader.memberHolds key value = reader.field key value := by
  cases value <;> simp [memberHolds, h]

lemma allHold_append (left right : List Json) :
    reader.allHold (left ++ right) = (reader.allHold left && reader.allHold right) := by
  induction left with
  | nil => rw [List.nil_append, allHold, Bool.true_and]
  | cons item rest ih => rw [List.cons_append, allHold, allHold, ih, Bool.and_assoc]

lemma anyHold_append (left right : List Json) :
    reader.anyHold (left ++ right) = (reader.anyHold left || reader.anyHold right) := by
  induction left with
  | nil => rw [List.nil_append, anyHold, Bool.false_or]
  | cons item rest ih => rw [List.cons_append, anyHold, anyHold, ih, Bool.or_assoc]

@[simp] lemma allHold_singleton (item : Json) : reader.allHold [item] = reader.holds item := by
  rw [allHold, allHold, Bool.and_true]

@[simp] lemma anyHold_singleton (item : Json) : reader.anyHold [item] = reader.holds item := by
  rw [anyHold, anyHold, Bool.or_false]

@[simp] lemma listHolds_singleton (kind : Connective) (item : Json) :
    reader.listHolds kind [item] = reader.holds item := by
  cases kind with
  | and => exact allHold_singleton item
  | or => exact anyHold_singleton item

/-- A list put together from two says what the connective makes of both. -/
lemma listHolds_append (kind : Connective) (left right : List Json) :
    reader.listHolds kind (left ++ right) =
      Logic.twoValued.join kind (reader.listHolds kind left) (reader.listHolds kind right) := by
  cases kind with
  | and => exact allHold_append left right
  | or => exact anyHold_append left right

end Reader

/-! ## Ranges -/

/-- A range is the bounds that it sets; an open end sets none. -/
def rangeHolds (atLeast atMost : Json → Bool) (lower upper : Scalar) : Bool :=
  (lower.bound?.all fun bound => atLeast bound.toJson) &&
    upper.bound?.all fun bound => atMost bound.toJson

end FilterLang
