import FilterLang.Proofs.Filter.Grouping
import FilterLang.Proofs.Json.Alike
import FilterLang.Proofs.Json.Values
import FilterLang.Proofs.Sequelize.Faithful

/-!
# Sequelize filters lose nothing but the grouping

Values, operators and connectives are put into one kind of object, and a field may have any name, that of a
marker included.  They can still be told apart by their members: a comparison has one, and a group, a
negation and an envelope have two, of which the first is a text.  So a filter can be read off its compiled
form, up to the grouping that joining the groups has undone.

A group is joined with the groups inside it before anything is known of the filter around it.
`Recovers` therefore says of a compiled document what can be read off it as a whole, and what can be read
off the conditions that it brings to a group.
-/

namespace FilterLang

open Json (Discerns)
open FilterLang.Filter (Regrouped Respects)

variable {R : Json → Json → Prop}

/-! ## Values -/

/-- Values of one kind whose literals have related documents, one by one. -/
inductive Value.Related (R : Json → Json → Prop) : Value → Value → Prop
  | scalar {x y : Scalar} (literal : R x.toJson y.toJson) : Related R (.scalar x) (.scalar y)
  | list {xs ys : List Scalar} (items : List.Forall₂ (fun x y => R x.toJson y.toJson) xs ys) :
      Related R (.list xs) (.list ys)
  | range {lower lower' upper upper' : Scalar} (lowers : R lower.toJson lower'.toJson)
      (uppers : R upper.toJson upper'.toJson) : Related R (.range lower upper) (.range lower' upper')

namespace Value

lemma related_eq_refl (value : Value) : Related Eq value value := by
  cases value with
  | scalar x => exact .scalar rfl
  | list items => exact .list (List.forall₂_same.2 fun _ _ => rfl)
  | range lower upper => exact .range rfl rfl

lemma Related.kindName {v w : Value} (h : Related R v w) : v.kindName = w.kindName := by
  cases h <;> rfl

lemma Related.accepts {v w : Value} (h : Related R v w) (op : Operator) :
    op.accepts v = op.accepts w := by
  cases h with
  | scalar => rw [Operator.accepts_scalar, Operator.accepts_scalar]
  | list => rw [Operator.accepts_list, Operator.accepts_list]
  | range => rw [Operator.accepts_range, Operator.accepts_range]

lemma Related.toJson (hR : Discerns R) {v w : Value} (h : Related R v w) : R v.toJson w.toJson := by
  cases h with
  | scalar literal => exact literal
  | list items => exact hR.arr_of (List.forall₂_map_left_iff.2 (List.forall₂_map_right_iff.2 items))
  | range lowers uppers => exact hR.arr_of (.cons lowers (.cons uppers .nil))

/-- A literal is not taken for a list. -/
lemma not_related_arr (hR : Discerns R) (literal : Scalar) (items : List Json) :
    ¬ R literal.toJson (.arr items) := by
  intro h
  obtain ⟨ys, hys, -⟩ := hR.arr (hR.equivalence.symm h)
  exact scalarToJson_ne_arr literal ys hys

/-- Values that one operator takes are told apart by their documents.  A range is written like the list of
its ends, but no operator takes both. -/
lemma related_of_toJson (hR : Discerns R) {op : Operator} {v w : Value} (hv : op.accepts v = true)
    (hw : op.accepts w = true) (h : R v.toJson w.toJson) : Related R v w := by
  cases v with
  | scalar x =>
    cases w with
    | scalar y => exact .scalar h
    | list items => exact absurd h (not_related_arr hR x _)
    | range lower upper => exact absurd h (not_related_arr hR x _)
  | list items =>
    cases w with
    | scalar y => exact absurd (hR.equivalence.symm h) (not_related_arr hR y _)
    | list items' =>
      obtain ⟨ys, hys, hitems⟩ := hR.arr h
      obtain rfl := Json.arr.inj hys
      exact .list (List.forall₂_map_left_iff.1 (List.forall₂_map_right_iff.1 hitems))
    | range lower upper =>
      rw [Operator.accepts_list] at hv
      rw [Operator.accepts_range] at hw
      simp_all
  | range lower upper =>
    cases w with
    | scalar y => exact absurd (hR.equivalence.symm h) (not_related_arr hR y _)
    | list items =>
      rw [Operator.accepts_range] at hv
      rw [Operator.accepts_list] at hw
      simp_all
    | range lower' upper' =>
      obtain ⟨ys, hys, hitems⟩ := hR.arr h
      obtain rfl := Json.arr.inj hys
      obtain ⟨lowers, hitems⟩ := List.forall₂_cons.1 hitems
      exact .range lowers (List.forall₂_cons.1 hitems).1

end Value

/-! ## Objects -/

/-- A text under the key of a marker, and a document under another key. -/
def tagged (marker name key : String) (document : Json) : Json :=
  .obj [(marker, .str name), (key, document)]

namespace Json.Discerns

lemma single_iff (hR : Discerns R) {key key' : String} {v w : Json} :
    R (.single key v) (.single key' w) ↔ key = key' ∧ R v w := by
  constructor
  · intro h
    obtain ⟨ys, hys, hlookup⟩ := hR.obj h
    obtain rfl := Json.obj.inj hys
    have hkey := hlookup key
    by_cases hne : key = key'
    · subst hne
      exact ⟨rfl, by simpa using hkey⟩
    · rw [lookup_cons_of_ne hne] at hkey
      simp at hkey
  · rintro ⟨rfl, h⟩
    exact hR.obj_of (.cons ⟨rfl, h⟩ .nil)

/-- An object with one member is not taken for one with two. -/
lemma not_single_tagged (hR : Discerns R) {key marker name other : String} {v document : Json}
    (hne : other ≠ marker) : ¬ R (.single key v) (tagged marker name other document) := by
  intro h
  obtain ⟨ys, hys, hlookup⟩ := hR.obj h
  obtain rfl := Json.obj.inj hys
  -- both keys of the second object would have to be the key of the first
  have hkey : ∀ k, k ≠ key → List.lookup k [(marker, Json.str name), (other, document)] = none := by
    intro k hk
    have hrel := hlookup k
    rw [lookup_cons_of_ne hk] at hrel
    cases hlook : List.lookup k [(marker, Json.str name), (other, document)] with
    | none => rfl
    | some value =>
      rw [hlook] at hrel
      simp at hrel
  by_cases hmarker : marker = key
  · subst hmarker
    have hother := hkey other hne
    rw [lookup_cons_of_ne hne] at hother
    simp at hother
  · have hnone := hkey marker hmarker
    simp at hnone

lemma tagged_iff (hR : Discerns R) {marker name name' key key' : String} {v w : Json}
    (hkey : key ≠ marker) (hkey' : key' ≠ marker) :
    R (tagged marker name key v) (tagged marker name' key' w) ↔ name = name' ∧ key = key' ∧ R v w := by
  constructor
  · intro h
    obtain ⟨ys, hys, hlookup⟩ := hR.obj h
    obtain rfl := Json.obj.inj hys
    have hname : R (.str name) (.str name') := by simpa using hlookup marker
    have hvalue := hlookup key
    rw [lookup_cons_of_ne hkey, lookup_cons_of_ne hkey] at hvalue
    by_cases hne : key = key'
    · subst hne
      exact ⟨(Json.str.inj (hR.str hname)).symm, rfl, by simpa using hvalue⟩
    · rw [lookup_cons_of_ne hne] at hvalue
      simp at hvalue
  · rintro ⟨rfl, rfl, h⟩
    exact hR.obj_of (.cons ⟨rfl, hR.equivalence.refl _⟩ (.cons ⟨rfl, h⟩ .nil))

lemma get? (hR : Discerns R) {x y : Json} (h : R x y) (key : String) :
    Option.Rel R (x.get? key) (y.get? key) := by
  cases x with
  | obj xs =>
    obtain ⟨ys, rfl, hlookup⟩ := hR.obj h
    exact hlookup key
  | _ =>
    cases y with
    | obj ys =>
      obtain ⟨xs, hxs, -⟩ := hR.obj (hR.equivalence.symm h)
      cases hxs
    | _ => exact .none

lemma asStr? (hR : Discerns R) {x y : Json} (h : R x y) : x.asStr? = y.asStr? := by
  cases x with
  | str text => rw [hR.str h]
  | _ =>
    cases y with
    | str text => cases hR.str (hR.equivalence.symm h)
    | _ => rfl

end Json.Discerns

namespace Sequelize

/-! ## Compiling does not see the grouping -/

/-- Related documents bring related conditions to a group. -/
lemma groupConditions?_rel (hR : Discerns R) (kind : Connective) {x y : Json} (h : R x y) :
    Option.Rel (List.Forall₂ R) (groupConditions? kind x) (groupConditions? kind y) := by
  have hname : (x.get? logicalMarker).bind Json.asStr? = (y.get? logicalMarker).bind Json.asStr? := by
    have hrel := hR.get? h logicalMarker
    generalize x.get? logicalMarker = a at hrel ⊢
    generalize y.get? logicalMarker = b at hrel ⊢
    cases hrel with
    | none => rfl
    | some hab => exact hR.asStr? hab
  unfold groupConditions?
  rw [hname]
  split
  · have hrel := hR.get? h "conditions"
    generalize x.get? "conditions" = a at hrel ⊢
    generalize y.get? "conditions" = b at hrel ⊢
    cases hrel with
    | none => exact .none
    | @some a b hab =>
      cases a with
      | arr xs =>
        obtain ⟨ys, rfl, hitems⟩ := hR.arr hab
        exact .some hitems
      | _ =>
        cases b with
        | arr ys =>
          obtain ⟨xs, hxs, -⟩ := hR.arr (hR.equivalence.symm hab)
          cases hxs
        | _ => exact .none
  · exact .none

lemma conditions_rel (hR : Discerns R) (kind : Connective) {x y : Json} (h : R x y) :
    List.Forall₂ R (conditions kind x) (conditions kind y) := by
  unfold conditions
  have hrel := groupConditions?_rel hR kind h
  generalize groupConditions? kind x = a at hrel ⊢
  generalize groupConditions? kind y = b at hrel ⊢
  cases hrel with
  | none => exact .cons h .nil
  | some hitems => exact hitems

lemma enveloped_rel (hR : Discerns R) (op : Operator) {v w : Value} (h : v.Related R w) :
    R (enveloped op v) (enveloped op w) := by
  by_cases hop : op = .eq
  · subst hop
    exact h.toJson hR
  · rw [enveloped_of_ne hop, enveloped_of_ne hop]
    exact (hR.tagged_iff (by decide) (by decide)).2 ⟨rfl, rfl, h.toJson hR⟩

/-- Compiling joins the conditions of the operands, and joining lists is associative. -/
lemma compile_respects (hR : Discerns R) : Respects (Value.Related R) (Agrees R) compile := by
  refine .of_join (fun kind x y => group kind (conditions kind x ++ conditions kind y))
    (tagged logicalMarker "not" "condition") hR.equivalence ?_ (fun _ _ _ => rfl)
    (fun _ => rfl) ?_ ?_ ?_
  · intro field op v w h
    simp only [compile, checkShape, h.accepts op, h.kindName]
    split
    · exact .ok (hR.single_iff.2 ⟨rfl, enveloped_rel hR op h⟩)
    · exact .error _
  · intro kind x x' y y' hx hy
    refine (hR.tagged_iff (by decide) (by decide)).2 ⟨rfl, rfl, hR.arr_of ?_⟩
    exact List.rel_append (conditions_rel hR kind hx) (conditions_rel hR kind hy)
  · intro kind x y z
    rw [conditions_group, conditions_group, List.append_assoc]
    exact hR.equivalence.refl _
  · intro x x' h
    exact (hR.tagged_iff (by decide) (by decide)).2 ⟨rfl, rfl, h⟩

/-! ## Reading a filter off its compiled form -/

/-- The condition of a comparison tells its operator, and its value up to the documents of its literals. -/
lemma enveloped_inj (hR : Discerns R) {op op' : Operator} {v w : Value} (hv : op.accepts v = true)
    (hw : op'.accepts w = true) (h : R (enveloped op v) (enveloped op' w)) :
    op = op' ∧ v.Related R w := by
  have hplain : ∀ (value : Value) name document,
      ¬ R (tagged operatorMarker name "value" document) value.toJson := by
    intro value name document hrel
    obtain ⟨ys, hys, -⟩ := hR.obj hrel
    exact toJson_ne_obj value ys hys
  by_cases hop : op = .eq
  · by_cases hop' : op' = .eq
    · subst hop hop'
      exact ⟨rfl, Value.related_of_toJson hR hv hw h⟩
    · subst hop
      rw [enveloped_of_ne hop'] at h
      exact absurd (hR.equivalence.symm h) (hplain v _ _)
  · by_cases hop' : op' = .eq
    · subst hop'
      rw [enveloped_of_ne hop] at h
      exact absurd h (hplain w _ _)
    · rw [enveloped_of_ne hop, enveloped_of_ne hop'] at h
      obtain ⟨hname, -, hvalue⟩ := (hR.tagged_iff (by decide) (by decide)).1 h
      have hsame : some op = some op' := by rw [← ofName?_name op, ← ofName?_name op', hname]
      obtain rfl := Option.some.inj hsame
      exact ⟨rfl, Value.related_of_toJson hR hv hw hvalue⟩

lemma compile_comparison_eq_ok {field : String} {op : Operator} {value : Value} {document : Json} :
    compile (.comparison field op value) = .ok document ↔
      op.accepts value = true ∧ document = .single field (enveloped op value) := by
  rw [compile, checkShape]
  constructor
  · intro h
    obtain ⟨_, haccepts, h⟩ := bind_eq_ok_iff.1 h
    exact ⟨accepts_of_checkShape haccepts, (Except.ok.inj h).symm⟩
  · rintro ⟨haccepts, rfl⟩
    rw [if_pos haccepts]
    rfl

lemma compile_not_eq_ok {child : Filter} {document : Json} :
    compile (.not child) = .ok document ↔
      ∃ inner, compile child = .ok inner ∧ document = tagged logicalMarker "not" "condition" inner := by
  rw [compile]
  constructor
  · intro h
    obtain ⟨inner, hinner, h⟩ := bind_eq_ok_iff.1 h
    exact ⟨inner, hinner, (Except.ok.inj h).symm⟩
  · rintro ⟨inner, hinner, rfl⟩
    rw [hinner]
    rfl

lemma compile_logical_eq_ok {kind : Connective} {left right : Filter} {document : Json} :
    compile (.logical kind left right) = .ok document ↔
      ∃ l r, compile left = .ok l ∧ compile right = .ok r ∧
        document = group kind (conditions kind l ++ conditions kind r) := by
  rw [compile]
  constructor
  · intro h
    obtain ⟨l, hl, h⟩ := bind_eq_ok_iff.1 h
    obtain ⟨r, hr, h⟩ := bind_eq_ok_iff.1 h
    exact ⟨l, r, hl, hr, (Except.ok.inj h).symm⟩
  · rintro ⟨l, r, hl, hr, rfl⟩
    rw [hl, hr]
    rfl

/-- A comparison brings itself to a group, whatever its field and its value are. -/
lemma conditions_single (kind : Connective) (field : String) (condition : Json) :
    conditions kind (.single field condition) = [.single field condition] := by
  have hnone : groupConditions? kind (.single field condition) = none := by
    unfold groupConditions?
    split
    · rename_i hname
      -- the only key is that of the marker
      have hfield : logicalMarker = field := by
        by_contra hne
        rw [Json.single, Json.get?, lookup_cons_of_ne hne] at hname
        cases hname
      have hmissing : (Json.single field condition).get? "conditions" = none := by
        rw [Json.single, Json.get?, lookup_cons_of_ne (by rw [← hfield]; decide)]
        rfl
      rw [hmissing]
    · rfl
  rw [conditions, hnone]
  rfl

lemma conditions_not (kind : Connective) (document : Json) :
    conditions kind (tagged logicalMarker "not" "condition" document) =
      [tagged logicalMarker "not" "condition" document] := by
  cases kind <;> rfl

/-- The filter has a compiled form that is related to the document. -/
def CompilesTo (R : Json → Json → Prop) (t : Filter) (document : Json) : Prop :=
  ∃ compiled, compile t = .ok compiled ∧ R compiled document

/-- What can be read off the compiled form of a filter: whatever is compiled to it is a regrouping of the
filter, and whatever is compiled to the conditions that it brings to a group are regroupings of the operands
of the filter. -/
structure Recovers (R : Json → Json → Prop) (t : Filter) (document : Json) : Prop where
  whole : ∀ other, CompilesTo R other document → Regrouped (Value.Related R) other t
  parts : ∀ kind others, List.Forall₂ (CompilesTo R) others (conditions kind document) →
    List.Forall₂ (Regrouped (Value.Related R)) others (t.operands kind)

/-- A filter that brings itself to groups of a connective. -/
lemma parts_of_whole {t : Filter} {document : Json} {kind : Connective} {others : List Filter}
    (whole : ∀ other, CompilesTo R other document → Regrouped (Value.Related R) other t)
    (hoperands : t.operands kind = [t]) (hconditions : conditions kind document = [document])
    (h : List.Forall₂ (CompilesTo R) others (conditions kind document)) :
    List.Forall₂ (Regrouped (Value.Related R)) others (t.operands kind) := by
  rw [hconditions] at h
  rw [hoperands]
  obtain ⟨other, rest, hother, hrest, rfl⟩ := List.forall₂_cons_right_iff.1 h
  cases hrest
  exact .cons (whole other hother) .nil

lemma Recovers.comparison (hR : Discerns R) (field : String) {op : Operator} {value : Value}
    (hvalue : op.accepts value = true) :
    Recovers R (.comparison field op value) (.single field (enveloped op value)) := by
  have whole : ∀ other, CompilesTo R other (.single field (enveloped op value)) →
      Regrouped (Value.Related R) other (.comparison field op value) := by
    rintro other ⟨compiled, hother, h⟩
    cases other with
    | comparison field' op' value' =>
      obtain ⟨hvalue', rfl⟩ := compile_comparison_eq_ok.1 hother
      obtain ⟨rfl, hcondition⟩ := hR.single_iff.1 h
      obtain ⟨rfl, hvalues⟩ := enveloped_inj hR hvalue' hvalue hcondition
      exact .comparison field' op' hvalues
    | not child =>
      obtain ⟨inner, -, rfl⟩ := compile_not_eq_ok.1 hother
      exact absurd (hR.equivalence.symm h) (hR.not_single_tagged (by decide))
    | logical kind left right =>
      obtain ⟨l, r, -, -, rfl⟩ := compile_logical_eq_ok.1 hother
      exact absurd (hR.equivalence.symm h) (hR.not_single_tagged (by decide))
  exact ⟨whole, fun kind _ => parts_of_whole whole rfl (conditions_single kind field _)⟩

lemma Recovers.not (hR : Discerns R) {child : Filter} {inner : Json} (hchild : Recovers R child inner) :
    Recovers R (.not child) (tagged logicalMarker "not" "condition" inner) := by
  have whole : ∀ other, CompilesTo R other (tagged logicalMarker "not" "condition" inner) →
      Regrouped (Value.Related R) other (.not child) := by
    rintro other ⟨compiled, hother, h⟩
    cases other with
    | comparison field op value =>
      obtain ⟨-, rfl⟩ := compile_comparison_eq_ok.1 hother
      exact absurd h (hR.not_single_tagged (by decide))
    | not child' =>
      obtain ⟨inner', hinner', rfl⟩ := compile_not_eq_ok.1 hother
      obtain ⟨-, -, hinner⟩ := (hR.tagged_iff (by decide) (by decide)).1 h
      exact .not (hchild.whole child' ⟨inner', hinner', hinner⟩)
    | logical kind left right =>
      obtain ⟨l, r, -, -, rfl⟩ := compile_logical_eq_ok.1 hother
      obtain ⟨-, hkey, -⟩ := (hR.tagged_iff (by decide) (by decide)).1 h
      exact absurd hkey (by decide)
  exact ⟨whole, fun kind _ => parts_of_whole whole rfl (conditions_not kind inner)⟩

/-- The compiled operands of a chain are its conditions. -/
lemma forall₂_operands (kind : Connective) {t : Filter} {document : Json} (h : compile t = .ok document) :
    List.Forall₂ (fun o d => compile o = .ok d) (t.operands kind) (conditions kind document) := by
  induction t generalizing document with
  | comparison field op value =>
    obtain ⟨-, rfl⟩ := compile_comparison_eq_ok.1 h
    rw [conditions_single]
    exact .cons h .nil
  | not child =>
    obtain ⟨inner, -, rfl⟩ := compile_not_eq_ok.1 h
    rw [conditions_not]
    exact .cons h .nil
  | logical k left right ihleft ihright =>
    obtain ⟨l, r, hl, hr, rfl⟩ := compile_logical_eq_ok.1 h
    by_cases hkind : k = kind
    · subst hkind
      rw [Filter.operands_self, conditions_group]
      exact List.rel_append (ihleft hl) (ihright hr)
    · rw [Filter.operands_of_ne hkind, conditions_group_of_ne (Ne.symm hkind)]
      exact .cons h .nil

lemma forall₂_trans {α β γ : Type} {p : α → β → Prop} {q : β → γ → Prop} {xs : List α} {ys : List β}
    {zs : List γ} (h : List.Forall₂ p xs ys) (h' : List.Forall₂ q ys zs) :
    List.Forall₂ (fun x z => ∃ y, p x y ∧ q y z) xs zs := by
  induction h generalizing zs with
  | nil =>
    cases h'
    exact .nil
  | cons hxy _ ih =>
    cases h' with
    | cons hyz hrest => exact .cons ⟨_, hxy, hyz⟩ (ih hrest)

lemma Recovers.logical (hR : Discerns R) (kind : Connective) {left right : Filter} {l r : Json}
    (hleft : Recovers R left l) (hright : Recovers R right r) :
    Recovers R (.logical kind left right) (group kind (conditions kind l ++ conditions kind r)) := by
  -- the conditions of the group are those of its operands, and the operands are recovered from them
  have parts : ∀ others, List.Forall₂ (CompilesTo R) others (conditions kind l ++ conditions kind r) →
      List.Forall₂ (Regrouped (Value.Related R)) others
        ((Filter.logical kind left right).operands kind) := by
    intro others h
    rw [Filter.operands_self, ← List.take_append_drop (conditions kind l).length others]
    exact List.rel_append (hleft.parts kind _ (List.forall₂_take_append _ _ _ h))
      (hright.parts kind _ (List.forall₂_drop_append _ _ _ h))
  have whole : ∀ other, CompilesTo R other (group kind (conditions kind l ++ conditions kind r)) →
      Regrouped (Value.Related R) other (.logical kind left right) := by
    rintro other ⟨compiled, hother, h⟩
    cases other with
    | comparison field op value =>
      obtain ⟨-, rfl⟩ := compile_comparison_eq_ok.1 hother
      exact absurd h (hR.not_single_tagged (by decide))
    | not child =>
      obtain ⟨inner, -, rfl⟩ := compile_not_eq_ok.1 hother
      obtain ⟨-, hkey, -⟩ := (hR.tagged_iff (by decide) (by decide)).1 h
      exact absurd hkey (by decide)
    | logical kind' left' right' =>
      have hoperands := forall₂_operands kind hother
      have hconditions := conditions_rel hR kind h
      rw [conditions_group] at hconditions
      exact .of_operands kind (parts _ (forall₂_trans hoperands hconditions))
  refine ⟨whole, fun other others h => ?_⟩
  by_cases hkind : kind = other
  · subst hkind
    rw [conditions_group] at h
    exact parts others h
  · exact parts_of_whole whole (Filter.operands_of_ne hkind left right)
      (conditions_group_of_ne (Ne.symm hkind) _) h

/-- A filter can be read off its compiled form. -/
lemma recovers (hR : Discerns R) {t : Filter} {document : Json} (h : compile t = .ok document) :
    Recovers R t document := by
  induction t generalizing document with
  | comparison field op value =>
    obtain ⟨hvalue, rfl⟩ := compile_comparison_eq_ok.1 h
    exact .comparison hR field hvalue
  | not child ih =>
    obtain ⟨inner, hinner, rfl⟩ := compile_not_eq_ok.1 h
    exact (ih hinner).not hR
  | logical kind left right ihleft ihright =>
    obtain ⟨l, r, hl, hr, rfl⟩ := compile_logical_eq_ok.1 h
    exact (ihleft hl).logical hR kind (ihright hr)

lemma rel_iff_regrouped (hR : Discerns R) {a b : Filter} {da db : Json} (ha : compile a = .ok da)
    (hb : compile b = .ok db) : R da db ↔ Regrouped (Value.Related R) a b := by
  constructor
  · intro h
    exact (recovers hR hb).whole a ⟨da, ha, h⟩
  · intro h
    have hagrees := (compile_respects hR).of_regrouped h
    rw [ha, hb] at hagrees
    cases hagrees with
    | ok related => exact related

lemma exists_compile {t : Filter} (shapes : ∀ c ∈ t.comparisons, c.2.1.accepts c.2.2 = true) :
    ∃ document, compile t = .ok document := by
  induction t with
  | comparison field op value =>
    have haccepts := shapes (field, op, value) (by simp [Filter.comparisons])
    exact ⟨_, compile_comparison_eq_ok.2 ⟨haccepts, rfl⟩⟩
  | not child ih =>
    obtain ⟨inner, hinner⟩ := ih shapes
    exact ⟨_, compile_not_eq_ok.2 ⟨inner, hinner, rfl⟩⟩
  | logical kind left right ihleft ihright =>
    obtain ⟨l, hl⟩ := ihleft fun c hc => shapes c (List.mem_append_left _ hc)
    obtain ⟨r, hr⟩ := ihright fun c hc => shapes c (List.mem_append_right _ hc)
    exact ⟨_, compile_logical_eq_ok.2 ⟨l, r, hl, hr, rfl⟩⟩

/-- **Sequelize filters lose nothing but the grouping.**  Two filters whose values are of the kinds that
their operators take are compiled, and to the same document exactly if they are regroupings of each other,
with literals compared by their documents.  It makes no difference whether documents are compared to the
letter or by what they hold.  Nothing is asked of the fields. -/
theorem compile_same_iff_regrouped {a b : Filter}
    (ha : ∀ c ∈ a.comparisons, c.2.1.accepts c.2.2 = true)
    (hb : ∀ c ∈ b.comparisons, c.2.1.accepts c.2.2 = true) :
    ∃ da db, compile a = .ok da ∧ compile b = .ok db ∧
      (da = db ↔ Regrouped (Value.Related Eq) a b) ∧
      (da.Alike db ↔ Regrouped (Value.Related Json.Alike) a b) := by
  obtain ⟨da, hda⟩ := exists_compile ha
  obtain ⟨db, hdb⟩ := exists_compile hb
  exact ⟨da, db, hda, hdb, rel_iff_regrouped Json.discerns_eq hda hdb,
    rel_iff_regrouped Json.discerns_alike hda hdb⟩

/-- A comparison of a field with the name of a marker, which looks like the start of a group. -/
def markerField : Filter := .comparison "__qast_logical__" .eq (.scalar (.str "and"))

/-- A list of two literals and a range between them, which have the same document. -/
def listAndRange : Filter :=
  .and (.comparison "conditions" .ne (.list [.int 1, .null]))
    (.not (.comparison "conditions" .between (.range (.int 1) .null)))

/-- Fields with the names of keys: both groupings of a chain are compiled to one document, and an `or` in the
place of one `and` makes another. -/
theorem compile_same_iff_regrouped_markerFields :
    (∃ d, compile (.and (.and markerField markerField) listAndRange) = .ok d ∧
      compile (.and markerField (.and markerField listAndRange)) = .ok d) ∧
    Regrouped (Value.Related Eq) (.and (.and markerField markerField) listAndRange)
      (.and markerField (.and markerField listAndRange)) ∧
    ¬ Regrouped (Value.Related Json.Alike) (.and markerField (.or markerField listAndRange))
      (.and markerField (.and markerField listAndRange)) := by
  obtain ⟨da, db, hda, hdb, heq, -⟩ := compile_same_iff_regrouped
    (a := .and (.and markerField markerField) listAndRange)
    (b := .and markerField (.and markerField listAndRange)) (by decide) (by decide)
  obtain ⟨dc, dd, hdc, hdd, -, halike⟩ := compile_same_iff_regrouped
    (a := .and markerField (.or markerField listAndRange))
    (b := .and markerField (.and markerField listAndRange)) (by decide) (by decide)
  have hsame : da = db := by
    cases hda
    cases hdb
    rfl
  refine ⟨⟨da, hda, hsame ▸ hdb⟩, heq.1 hsame, fun h => ?_⟩
  -- the groups have conditions of different numbers
  cases hdc
  cases hdd
  obtain ⟨-, -, hitems⟩ := (Json.discerns_alike.tagged_iff (by decide) (by decide)).1 (halike.2 h)
  obtain ⟨items, hitems, hrel⟩ := Json.discerns_alike.arr hitems
  cases hitems
  exact absurd hrel.length_eq (by decide)

end Sequelize

end FilterLang
