import FilterLang.Proofs.Json.Members
import FilterLang.Proofs.Json.Values
import FilterLang.Proofs.TypeOrm.Matching

/-!
# Drafts: filters with envelopes, and what they say

A draft is a TypeORM filter as it is before its envelopes are opened.  A value in a draft is a condition
on a field or a relation, which is an object of its own; an object may also have a negation, whose payload
is an object or several payloads in an `and` envelope.

The relations of this file say that a document is a well-formed draft and what it means to a record.  The
meaning is missing (`none`) if a disjunction is negated somewhere, for which TypeORM has no form.  The
paths of fields have to be known, and none may lead on from another: otherwise a condition on a field and
a relation of the same name would meet under one key, and neither could be told from the other.

The main statement is `Object.merge`: joining two objects is saying both.
-/

namespace FilterLang.TypeOrm

/-! ## Meanings -/

/-- Both sides hold, if both can be said. -/
def both : Option Bool → Option Bool → Option Bool
  | some a, some b => some (a && b)
  | _, _ => none

lemma both_comm : ∀ a b, both a b = both b a := by decide

lemma both_assoc : ∀ a b c, both (both a b) c = both a (both b c) := by decide

lemma both_left_comm : ∀ a b c, both a (both b c) = both b (both a c) := by decide

@[simp] lemma both_true : ∀ a, both a (some true) = a := by decide

@[simp] lemma true_both : ∀ a, both (some true) a = a := by decide

/-! ## Conditions -/

section

variable (answer : Test → Bool)

mutual

/-- The document is a condition on a field, and this is what it says of the value. -/
inductive Condition : Json → Bool → Prop
  | equal (value : Value) : Condition value.toJson (answer (.equal value.toJson))
  | operator {op : Operator} {value : Value} (ne : op ≠ .eq) (accepts : op.accepts value = true) :
      Condition (envelope op.name value.toJson) (operatorHolds answer op value.toJson)
  | not {condition : Json} {b : Bool} (means : Condition condition b) :
      Condition (envelope "not" condition) (!b)
  | and {conditions : List Json} {b : Bool} (means : Conditions conditions b) :
      Condition (envelope "and" (.arr conditions)) b

/-- The documents are conditions on a field, and this is what they say together. -/
inductive Conditions : List Json → Bool → Prop
  | nil : Conditions [] true
  | cons {condition : Json} {rest : List Json} {a b : Bool} (head : Condition condition a)
      (tail : Conditions rest b) : Conditions (condition :: rest) (a && b)

end

end

/-! ## Objects -/

/-- The keys that envelopes and negations use. -/
def markers : List String := [operatorMarker, logicalMarker, notMarker]

section

variable (IsField : List String → Prop) (record : Record)

mutual

/-- What a value says at the end of a path.  The number bounds how deep relations nest. -/
inductive Entry : Nat → List String → Json → Option Bool → Prop
  | condition {n : Nat} {path : List String} {value : Json} {b : Bool} (field : IsField path)
      (means : Condition (record path) value b) : Entry n path value (some b)
  | relation {n : Nat} {path : List String} {members : Members} {m : Option Bool}
      (leads : ∃ key rest, IsField (path ++ key :: rest)) (ne_nil : members ≠ [])
      (means : Object n path members m) : Entry (n + 1) path (.obj members) m

/-- What a member says of the object at the end of a path. -/
inductive Member : Nat → List String → String → Json → Option Bool → Prop
  | field {n : Nat} {path : List String} {key : String} {value : Json} {m : Option Bool}
      (means : Entry n (path ++ [key]) value m) : Member n path key value m
  | negation {n : Nat} {path : List String} {payload : Json} {m : Option Bool}
      (means : Payload n path payload m) : Member n path notMarker payload m

/-- What an object says at the end of a path. -/
inductive Object : Nat → List String → Members → Option Bool → Prop
  | nil {n : Nat} {path : List String} : Object n path [] (some true)
  | cons {n : Nat} {path : List String} {key : String} {value : Json} {rest : Members}
      {a b : Option Bool} (fresh : rest.lookup key = none) (head : Member n path key value a)
      (tail : Object n path rest b) : Object n path ((key, value) :: rest) (both a b)

/-- What the negation of a payload says at the end of a path. -/
inductive Payload : Nat → List String → Json → Option Bool → Prop
  | object {n : Nat} {path : List String} {members : Members} {m : Option Bool}
      (ne_nil : members ≠ []) (means : Object n path members m) :
      Payload n path (.obj members) (m.map (! ·))
  /-- A negated disjunction cannot be said. -/
  | alternatives {n : Nat} {path : List String} {branches : List Json} :
      Payload n path (.arr branches) none
  | and {n : Nat} {path : List String} {payloads : List Json} {m : Option Bool}
      (ne_nil : payloads ≠ []) (means : Payloads n path payloads m) :
      Payload n path (envelope "and" (.arr payloads)) m

/-- What the negations of several payloads say together. -/
inductive Payloads : Nat → List String → List Json → Option Bool → Prop
  | nil {n : Nat} {path : List String} : Payloads n path [] (some true)
  | cons {n : Nat} {path : List String} {payload : Json} {rest : List Json} {a b : Option Bool}
      (head : Payload n path payload a) (tail : Payloads n path rest b) :
      Payloads n path (payload :: rest) (both a b)

end

/-- Paths of fields that can be told apart, from each other and from markers. -/
structure FieldPaths : Prop where
  prefixFree : ∀ {path key rest}, IsField path → ¬ IsField (path ++ key :: rest)
  unmarked : ∀ {path key}, IsField path → key ∈ path → key ∉ markers

end

/-! ## Joining conditions -/

@[simp] lemma envelopeName?_envelope (name : String) (value : Json) :
    envelopeName? (envelope name value) = some name := rfl

lemma combine_of_ne {current : Json} (h : envelopeName? current ≠ some "and") (incoming : Json) :
    combine current incoming = envelope "and" (.arr [current, incoming]) := by
  unfold combine
  split
  · contradiction
  · rfl

lemma combine_and (items : List Json) (incoming : Json) :
    combine (envelope "and" (.arr items)) incoming = envelope "and" (.arr (items ++ [incoming])) :=
  rfl

lemma get?_toJson (value : Value) (key : String) : value.toJson.get? key = none := by
  have h := toJson_ne_obj value
  revert h
  cases value.toJson <;> simp [Json.get?]

/-- A value is neither an envelope nor a relation. -/
lemma envelopeName?_toJson (value : Value) : envelopeName? value.toJson = none := by
  simp [envelopeName?, get?_toJson]

@[simp] lemma isRelation_toJson (value : Value) : isRelation value.toJson = false := by
  have h := toJson_ne_obj value
  revert h
  cases value.toJson <;> simp [isRelation]

lemma operatorName_ne (op : Operator) : op.name ≠ "and" ∧ op.name ≠ "not" := by
  cases op <;> decide

section

variable {answer : Test → Bool} {a b : Bool}

lemma Conditions.concat {conditions : List Json} {condition : Json}
    (h : Conditions answer conditions a) (hc : Condition answer condition b) :
    Conditions answer (conditions ++ [condition]) (a && b) := by
  induction conditions generalizing a with
  | nil =>
    cases h
    exact Bool.and_comm b true ▸ .cons hc .nil
  | cons first rest ih =>
    cases h with
    | cons head tail =>
      rw [Bool.and_assoc]
      exact .cons head (ih tail)

lemma Condition.isRelation {condition : Json} (h : Condition answer condition a) :
    isRelation condition = false := by
  cases h with
  | equal value => exact isRelation_toJson value
  | operator | not | and => rfl

/-- Two conditions on one field joined. -/
lemma Condition.combine {current incoming : Json} (hc : Condition answer current a)
    (hi : Condition answer incoming b) : Condition answer (combine current incoming) (a && b) := by
  have hpair : Conditions answer [current, incoming] (a && b) := by
    have hlist := Conditions.cons hc (.cons hi .nil)
    rwa [Bool.and_true] at hlist
  cases hc with
  | equal value =>
    rw [combine_of_ne (by rw [envelopeName?_toJson]; simp)]
    exact .and hpair
  | @operator op value ne accepts =>
    rw [combine_of_ne (by simpa using (operatorName_ne op).1)]
    exact .and hpair
  | not means =>
    rw [combine_of_ne (by simp)]
    exact .and hpair
  | and means =>
    rw [combine_and]
    exact .and (means.concat hi)

end

/-! ## Members of an object -/

section

variable {IsField : List String → Prop} {record : Record} {n : Nat} {path : List String}
  {members : Members} {key : String} {value : Json} {a b m : Option Bool}

/-- The members with another member in place of the one with a key. -/
def replaceMember (key : String) (new : String × Json) (members : Members) : Members :=
  members.map fun member => if member.1 = key then new else member

lemma replaceMember_cons (new member : String × Json) :
    replaceMember key new (member :: members) =
      (if member.1 = key then new else member) :: replaceMember key new members := rfl

lemma replaceMember_append (new : String × Json) (left right : Members) :
    replaceMember key new (left ++ right) = replaceMember key new left ++ replaceMember key new right :=
  List.map_append

lemma replaceMember_of_lookup_eq_none (h : members.lookup key = none) (new : String × Json) :
    replaceMember key new members = members := by
  induction members with
  | nil => rfl
  | cons member rest ih =>
    obtain ⟨hne, hrest⟩ := lookup_cons_eq_none_iff.1 h
    rw [replaceMember_cons, if_neg (Ne.symm hne), ih hrest]

lemma lookup_replaceMember_eq_none {k : String} {new : String × Json} (h : members.lookup k = none)
    (hne : k ≠ new.1) : (replaceMember key new members).lookup k = none := by
  induction members with
  | nil => rfl
  | cons member rest ih =>
    obtain ⟨hmember, hrest⟩ := lookup_cons_eq_none_iff.1 h
    rw [replaceMember_cons]
    split
    · exact lookup_cons_eq_none_iff.2 ⟨hne, ih hrest⟩
    · exact lookup_cons_eq_none_iff.2 ⟨hmember, ih hrest⟩

namespace Object

lemma single (h : Member IsField record n path key value m) :
    Object IsField record n path [(key, value)] m := by
  rw [← both_true m]
  exact .cons rfl h .nil

lemma nodup (h : Object IsField record n path members m) : (members.map Prod.fst).Nodup := by
  induction members generalizing m with
  | nil => exact List.nodup_nil
  | cons member rest ih =>
    cases h with
    | cons fresh _ tail => exact List.nodup_cons.2 ⟨notMem_of_lookup_eq_none fresh, ih tail⟩

/-- A new member at the end of an object. -/
lemma concat (h : Object IsField record n path members a) (fresh : members.lookup key = none)
    (hmember : Member IsField record n path key value b) :
    Object IsField record n path (members ++ [(key, value)]) (both a b) := by
  induction members generalizing a with
  | nil =>
    cases h
    rw [true_both]
    exact .single hmember
  | cons member rest ih =>
    cases h with
    | cons hfresh head tail =>
      obtain ⟨hne, hrest⟩ := lookup_cons_eq_none_iff.1 fresh
      rw [both_assoc]
      exact .cons (lookup_concat_eq_none_iff.2 ⟨hfresh, Ne.symm hne⟩) head (ih tail hrest)

/-- An object taken apart at its end. -/
lemma of_concat (h : Object IsField record n path (members ++ [(key, value)]) m) :
    ∃ a b, Object IsField record n path members a ∧ Member IsField record n path key value b ∧
      members.lookup key = none ∧ m = both a b := by
  induction members generalizing m with
  | nil =>
    cases h with
    | cons fresh head tail =>
      cases tail
      exact ⟨_, _, .nil, head, rfl, both_comm _ _⟩
  | cons member rest ih =>
    cases h with
    | cons fresh head tail =>
      obtain ⟨a, b, hrest, hlast, hlookup, rfl⟩ := ih tail
      obtain ⟨hfresh, hne⟩ := lookup_concat_eq_none_iff.1 fresh
      refine ⟨_, b, .cons hfresh head hrest, hlast, ?_, (both_assoc _ _ _).symm⟩
      exact lookup_cons_eq_none_iff.2 ⟨Ne.symm hne, hlookup⟩

/-- What an object says is what one of its members says and the others say.  Another member may stand
in its place, under the same key or under a new one. -/
lemma replace (h : Object IsField record n path members m) (hkey : members.lookup key = some value) :
    ∃ a b, Member IsField record n path key value a ∧ m = both a b ∧
      ∀ key' value' a', (key' = key ∨ members.lookup key' = none) →
        Member IsField record n path key' value' a' →
        Object IsField record n path (replaceMember key (key', value') members) (both a' b) := by
  induction members generalizing m with
  | nil => simp at hkey
  | cons member rest ih =>
    cases h with
    | @cons _ _ k v _ c d fresh head tail =>
      by_cases hk : key = k
      · subst hk
        obtain rfl : v = value := by simpa using hkey
        refine ⟨c, d, head, rfl, fun key' value' a' hkey' hmember => ?_⟩
        have hfresh : rest.lookup key' = none := by
          rcases hkey' with rfl | hkey'
          · exact fresh
          · exact (lookup_cons_eq_none_iff.1 hkey').2
        rw [replaceMember_cons, if_pos rfl, replaceMember_of_lookup_eq_none fresh]
        exact .cons hfresh hmember tail
      · rw [lookup_cons_of_ne hk] at hkey
        obtain ⟨a, b, hmember, rfl, hreplace⟩ := ih tail hkey
        refine ⟨a, both c b, hmember, both_left_comm _ _ _, fun key' value' a' hkey' hnew => ?_⟩
        have hkey'' : key' ≠ k ∧ (key' = key ∨ rest.lookup key' = none) := by
          rcases hkey' with rfl | hkey'
          · exact ⟨hk, .inl rfl⟩
          · exact (lookup_cons_eq_none_iff.1 hkey').imp_right .inr
        have hobject := hreplace key' value' a' hkey''.2 hnew
        rw [both_left_comm, replaceMember_cons, if_neg (Ne.symm hk)]
        exact .cons (lookup_replaceMember_eq_none fresh (Ne.symm hkey''.1)) head hobject

/-- Setting the value of a member replaces it. -/
lemma set_eq_replaceMember (h : Object IsField record n path members m)
    (hkey : members.lookup key = some value) (value' : Json) :
    Members.set key value' members = replaceMember key (key, value') members := by
  induction members generalizing m with
  | nil => simp at hkey
  | cons member rest ih =>
    cases h with
    | @cons _ _ k v _ c d fresh head tail =>
      by_cases hk : key = k
      · subst hk
        rw [Members.set, if_pos rfl, replaceMember_cons, if_pos rfl,
          replaceMember_of_lookup_eq_none fresh]
      · rw [lookup_cons_of_ne hk] at hkey
        rw [Members.set, if_neg (Ne.symm hk), replaceMember_cons, if_neg (Ne.symm hk), ih tail hkey]

end Object

/-! ## Joining objects -/

lemma Payloads.concat {payloads : List Json} {payload : Json}
    (h : Payloads IsField record n path payloads a) (hp : Payload IsField record n path payload b) :
    Payloads IsField record n path (payloads ++ [payload]) (both a b) := by
  induction payloads generalizing a with
  | nil =>
    cases h
    rw [both_comm]
    exact .cons hp .nil
  | cons first rest ih =>
    cases h with
    | cons head tail =>
      rw [both_assoc]
      exact .cons head (ih tail)

lemma mergeValue_eq_combine {current incoming : Json}
    (h : key = notMarker ∨ isRelation current = false ∨ isRelation incoming = false) :
    mergeValue key current incoming = combine current incoming := by
  cases incoming with
  | obj incoming =>
    rw [mergeValue.eq_def]
    cases current with
    | obj members =>
      refine if_neg ?_
      rintro ⟨hkey, hcurrent, hincoming⟩
      rcases h with h | h | h
      · exact hkey h
      · simp [h] at hcurrent
      · simp [h] at hincoming
    | _ => rfl
  | _ => rw [mergeValue.eq_def]

lemma mergeValue_relation {incoming : Members} (hkey : key ≠ notMarker)
    (hcurrent : isRelation (.obj members) = true) (hincoming : isRelation (.obj incoming) = true) :
    mergeValue key (.obj members) (.obj incoming) = .obj (mergeObjects members incoming) := by
  rw [mergeValue]
  exact if_pos ⟨hkey, hcurrent, hincoming⟩

/-- The value of a key of the right side after it is joined to an object. -/
def mergedValue (left : Members) (key : String) (value : Json) : Json :=
  match left.lookup key with
  | none => value
  | some current => mergeValue key current value

lemma mergeObjects_cons (left : Members) (key : String) (value : Json) (rest : Members) :
    mergeObjects left ((key, value) :: rest) =
      mergeObjects (Members.set key (mergedValue left key value) left) rest := by
  rw [mergeObjects, mergedValue]
  cases h : left.lookup key with
  | none => rw [set_eq_append h]
  | some current => rfl

/-- Joining keeps what is kept when one member after the other is set. -/
lemma mergeObjects_induction {P : Members → Prop} {left right : Members} (hleft : P left)
    (hset : ∀ members, P members → ∀ member ∈ right,
      P (Members.set member.1 (mergedValue members member.1 member.2) members)) :
    P (mergeObjects left right) := by
  induction right generalizing left with
  | nil => rwa [mergeObjects]
  | cons member rest ih =>
    rw [mergeObjects_cons]
    exact ih (hset left hleft member List.mem_cons_self) fun members hmembers other hother =>
      hset members hmembers other (List.mem_cons_of_mem _ hother)

lemma mergeObjects_ne_nil {left right : Members} (h : left ≠ [] ∨ right ≠ []) :
    mergeObjects left right ≠ [] := by
  induction right generalizing left with
  | nil =>
    rw [mergeObjects]
    exact h.resolve_right fun hne => hne rfl
  | cons member rest ih =>
    rw [mergeObjects]
    split
    · exact ih (.inl (by simp))
    · refine ih (.inl ?_)
      cases left with
      | nil => contradiction
      | cons first others =>
        rw [Members.set]
        split <;> simp

/-- The name of a field or of a relation is a part of the path of a field. -/
lemma Entry.exists_field (h : Entry IsField record n (path ++ [key]) value m) :
    ∃ rest, IsField (path ++ key :: rest) := by
  cases h with
  | condition field => exact ⟨[], field⟩
  | relation leads =>
    obtain ⟨next, rest, hfield⟩ := leads
    exact ⟨next :: rest, by simpa using hfield⟩

section

variable (fields : FieldPaths IsField)

include fields

lemma Entry.key_notMem (h : Entry IsField record n (path ++ [key]) value m) : key ∉ markers := by
  obtain ⟨rest, hfield⟩ := h.exists_field
  exact fields.unmarked hfield (by simp)

lemma Entry.key_ne (h : Entry IsField record n (path ++ [key]) value m) : key ≠ notMarker := by
  rintro rfl
  exact h.key_notMem fields (by simp [markers])

lemma Member.key_ne (h : Member IsField record n path key value m) : key ≠ operatorMarker := by
  cases h with
  | field means =>
    rintro rfl
    exact means.key_notMem fields (by simp [markers])
  | negation => decide

lemma Member.payload (h : Member IsField record n path notMarker value m) :
    Payload IsField record n path value m := by
  cases h with
  | field means => exact absurd rfl (means.key_ne fields)
  | negation means => exact means

lemma Object.lookup_operatorMarker (h : Object IsField record n path members m) :
    members.lookup operatorMarker = none := by
  induction members generalizing m with
  | nil => rfl
  | cons member rest ih =>
    cases h with
    | cons fresh head tail =>
      exact lookup_cons_eq_none_iff.2 ⟨Ne.symm (head.key_ne fields), ih tail⟩

lemma Object.envelopeName? (h : Object IsField record n path members m) :
    envelopeName? (.obj members) = none := by
  simp [FilterLang.envelopeName?, Json.get?, h.lookup_operatorMarker fields]

lemma Object.isRelation (h : Object IsField record n path members m) :
    isRelation (.obj members) = true := by
  simp [FilterLang.isRelation, Members.has, h.lookup_operatorMarker fields]

/-- Two negations in one object joined. -/
lemma Payload.combine {current incoming : Json} (hc : Payload IsField record n path current a)
    (hi : Payload IsField record n path incoming b) :
    Payload IsField record n path (combine current incoming) (both a b) := by
  have hpair : Payloads IsField record n path [current, incoming] (both a b) := by
    have hlist := Payloads.cons hc (.cons hi .nil)
    rwa [both_true] at hlist
  cases hc with
  | object ne_nil means =>
    rw [combine_of_ne (by simp [means.envelopeName? fields])]
    exact .and (by simp) hpair
  | alternatives =>
    rw [combine_of_ne (by simp [FilterLang.envelopeName?, Json.get?])]
    exact .and (by simp) hpair
  | and _ means =>
    rw [combine_and]
    exact .and (by simp) (means.concat hi)

/-- Two values of one key joined, if objects that are nested less deep can be joined. -/
lemma Member.merge {current incoming : Json}
    (objects : ∀ {k path left right a b}, k < n → Object IsField record k path left a →
      Object IsField record k path right b →
      Object IsField record k path (mergeObjects left right) (both a b))
    (hc : Member IsField record n path key current a)
    (hi : Member IsField record n path key incoming b) :
    Member IsField record n path key (mergeValue key current incoming) (both a b) := by
  cases hc with
  | negation hc =>
    rw [mergeValue_eq_combine (.inl rfl)]
    exact .negation (hc.combine fields (hi.payload fields))
  | field hc =>
    have hkey := hc.key_ne fields
    cases hi with
    | negation => exact absurd rfl hkey
    | field hi =>
      cases hc with
      | condition hfield hc =>
        cases hi with
        | condition _ hi =>
          rw [mergeValue_eq_combine (.inr (.inl hc.isRelation))]
          exact .field (.condition hfield (hc.combine hi))
        | relation leads =>
          obtain ⟨next, rest, hfield'⟩ := leads
          exact absurd hfield' (fields.prefixFree hfield)
      | relation leads hne hc =>
        cases hi with
        | condition hfield =>
          obtain ⟨next, rest, hfield'⟩ := leads
          exact absurd hfield' (fields.prefixFree hfield)
        | relation _ _ hi =>
          rw [mergeValue_relation hkey (hc.isRelation fields) (hi.isRelation fields)]
          exact .field (.relation leads (mergeObjects_ne_nil (.inl hne))
            (objects (Nat.lt_succ_self _) hc hi))

/-- Joining two objects is saying both. -/
theorem Object.merge {left right : Members} (hl : Object IsField record n path left a)
    (hr : Object IsField record n path right b) :
    Object IsField record n path (mergeObjects left right) (both a b) := by
  -- The outer induction is on the depth, for relations; the inner one is on the right object, whose
  -- members go into the left one by one.
  induction n using Nat.strong_induction_on generalizing path left right a b with
  | _ n objects =>
    induction right generalizing left a b with
    | nil =>
      cases hr
      rwa [both_true, mergeObjects]
    | cons member rest ih =>
      cases hr with
      | @cons _ _ key value _ c d fresh head tail =>
        rw [mergeObjects, ← both_assoc]
        split
        · rename_i hnone
          exact ih (hl.concat hnone head) tail
        · rename_i current hsome
          obtain ⟨a', rest', hcurrent, rfl, hreplace⟩ := hl.replace hsome
          rw [hl.set_eq_replaceMember hsome]
          have hmerged := hcurrent.merge fields (fun hk => objects _ hk) head
          have hleft := hreplace key _ _ (.inl rfl) hmerged
          refine ih ?_ tail
          rwa [both_assoc, both_comm rest', ← both_assoc]

end

/-! ## Depth -/

mutual

/-- A bound on the nesting of relations may be replaced by the height of the document. -/
lemma Entry.of_height {n k : Nat} {path : List String} {value : Json} {m : Option Bool}
    (h : Entry IsField record n path value m) (hk : height value ≤ k) :
    Entry IsField record k path value m := by
  match h with
  | .condition field means => exact .condition field means
  | .relation leads ne_nil means =>
    rw [height] at hk
    cases k with
    | zero => omega
    | succ k => exact .relation leads ne_nil (means.of_height (by omega))

lemma Member.of_height {n k : Nat} {path : List String} {key : String} {value : Json}
    {m : Option Bool} (h : Member IsField record n path key value m) (hk : height value ≤ k) :
    Member IsField record k path key value m := by
  match h with
  | .field means => exact .field (means.of_height hk)
  | .negation means => exact .negation (means.of_height hk)

lemma Object.of_height {n k : Nat} {path : List String} {members : Members} {m : Option Bool}
    (h : Object IsField record n path members m) (hk : heightAmong members ≤ k) :
    Object IsField record k path members m := by
  match h with
  | .nil => exact .nil
  | .cons fresh head tail =>
    rw [heightAmong] at hk
    exact .cons fresh (head.of_height (by omega)) (tail.of_height (by omega))

lemma Payload.of_height {n k : Nat} {path : List String} {payload : Json} {m : Option Bool}
    (h : Payload IsField record n path payload m) (hk : height payload ≤ k) :
    Payload IsField record k path payload m := by
  match h with
  | .object ne_nil means =>
    rw [height] at hk
    exact .object ne_nil (means.of_height (by omega))
  | .alternatives => exact .alternatives
  | .and ne_nil means =>
    simp only [envelope, height, heightAmong] at hk
    exact .and ne_nil (means.of_height (by omega))

lemma Payloads.of_height {n k : Nat} {path : List String} {payloads : List Json} {m : Option Bool}
    (h : Payloads IsField record n path payloads m) (hk : heightIn payloads ≤ k) :
    Payloads IsField record k path payloads m := by
  match h with
  | .nil => exact .nil
  | .cons head tail =>
    rw [heightIn] at hk
    exact .cons (head.of_height (by omega)) (tail.of_height (by omega))

end

/-! ## Branches of a filter -/

lemma Entry.nest {path rest : List String} {condition : Json} {b : Bool}
    (field : IsField (path ++ rest)) (means : Condition (record (path ++ rest)) condition b) :
    Entry IsField record rest.length path (nest rest condition) (some b) := by
  induction rest generalizing path with
  | nil =>
    rw [List.append_nil] at field means
    exact .condition field means
  | cons key rest ih =>
    have happend : path ++ key :: rest = path ++ [key] ++ rest := by simp
    refine .relation ⟨key, rest, field⟩ (by simp) ?_
    rw [happend] at field means
    exact .single (.field (ih field means))

/-- The object is a branch of a filter, and this is what it says. -/
def Branch (IsField : List String → Prop) (record : Record) (members : Members) (m : Option Bool) :
    Prop :=
  members ≠ [] ∧ ∃ n, Object IsField record n [] members m

/-- A condition at the end of the path of its field. -/
lemma Branch.nestPath {field : String} {condition : Json} {b : Bool}
    (hfield : IsField (fieldPath field)) (means : Condition (record (fieldPath field)) condition b) :
    Branch IsField record (nestPath field condition) (some b) := by
  have hne := fieldPath_ne_nil field
  rw [FilterLang.nestPath]
  revert hfield means hne
  cases fieldPath field with
  | nil => exact fun _ _ hne => absurd rfl hne
  | cons key rest =>
    intro hfield means _
    exact ⟨by simp, rest.length, .single (.field (.nest hfield means))⟩

lemma Branch.merge (fields : FieldPaths IsField) {left right : Members}
    (hl : Branch IsField record left a) (hr : Branch IsField record right b) :
    Branch IsField record (mergeObjects left right) (both a b) := by
  obtain ⟨hne, _, hl⟩ := hl
  obtain ⟨-, _, hr⟩ := hr
  -- The bounds on nesting are those of the objects themselves, so that the greater one does for both.
  have hl := hl.of_height (le_max_left (heightAmong left) (heightAmong right))
  have hr := hr.of_height (le_max_right (heightAmong left) (heightAmong right))
  exact ⟨mergeObjects_ne_nil (.inl hne), _, hl.merge fields hr⟩

lemma Branch.not (h : Branch IsField record members m) :
    Branch IsField record [(notMarker, .obj members)] (m.map (! ·)) := by
  obtain ⟨hne, n, h⟩ := h
  exact ⟨by simp, n, .single (.negation (.object hne h))⟩

lemma Branch.not_alternatives (branches : List Json) :
    Branch IsField record [(notMarker, .arr branches)] none :=
  ⟨by simp, 0, .single (.negation .alternatives)⟩

end

end FilterLang.TypeOrm
