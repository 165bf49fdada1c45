import FilterLang.Proofs.Json.Members

/-!
# Equal documents

Documents are compared by what they hold: the members of an object may stand in any order, and numbers are
compared as numbers, so that both zeros are one.  Whatever is read off a document by its keys and items can
be read off every equal one.

Both this comparison and equality to the letter see every text, item and member of a document.  What they
have in common is `Json.Discerns`, and what is shown from it holds of either.
-/

namespace FilterLang

lemma Binary64.same_comm (x y : Binary64) : x.same y = y.same x := by
  cases x with
  | finite s a =>
    cases y with
    | finite t b =>
      by_cases hab : a = b
      · subst hab
        simp [Binary64.same, Bool.beq_comm]
      · have hba : ¬ b = a := Ne.symm hab
        simp only [Binary64.same, beq_eq_false_iff_ne.2 hab, beq_eq_false_iff_ne.2 hba,
          Bool.false_and]
    | _ => rfl
  | infinite s =>
    cases y with
    | infinite t => exact Bool.beq_comm
    | _ => rfl
  | nan => cases y <;> rfl

lemma Binary64.same_trans {x y z : Binary64} (h : x.same y = true) (h' : y.same z = true) :
    x.same z = true := by
  match x, y, z with
  | .finite s a, .finite t b, .finite u c =>
    simp only [Binary64.same, Bool.and_eq_true, beq_iff_eq, Bool.or_eq_true] at h h' ⊢
    obtain ⟨rfl, hst⟩ := h
    obtain ⟨rfl, htu⟩ := h'
    refine ⟨rfl, ?_⟩
    rcases hst with rfl | hzero
    · exact htu
    · exact .inr hzero
  | .infinite s, .infinite t, .infinite u =>
    simp only [Binary64.same, beq_iff_eq] at h h' ⊢
    exact h.trans h'

namespace Json

/-- The documents hold the same. -/
inductive Alike : Json → Json → Prop
  | refl (document : Json) : Alike document document
  | float {x y : Binary64} (same : x.same y = true) : Alike (.float x) (.float y)
  | arr {xs ys : List Json} (length : xs.length = ys.length)
      (items : ∀ (i : Nat) x y, xs[i]? = some x → ys[i]? = some y → Alike x y) : Alike (.arr xs) (.arr ys)
  | obj {xs ys : Members} (keys : ∀ key, xs.lookup key = none ↔ ys.lookup key = none)
      (values : ∀ key x y, xs.lookup key = some x → ys.lookup key = some y → Alike x y) :
      Alike (.obj xs) (.obj ys)

namespace Alike

variable {document other : Json}

lemma symm (h : Alike document other) : Alike other document := by
  induction h with
  | refl document => exact .refl document
  | float same => exact .float (Binary64.same_comm _ _ ▸ same)
  | arr length items ih => exact .arr length.symm fun i x y hx hy => ih i y x hy hx
  | obj keys values ih => exact .obj (fun key => (keys key).symm) fun key x y hx hy => ih key y x hy hx

lemma trans {a b c : Json} (h : Alike a b) (h' : Alike b c) : Alike a c := by
  induction h generalizing c with
  | refl document => exact h'
  | float same =>
    cases h' with
    | refl => exact .float same
    | float same' => exact .float (Binary64.same_trans same same')
  | @arr xs ys length items ih =>
    cases h' with
    | refl => exact .arr length items
    | @arr _ zs length' items' =>
      refine .arr (length.trans length') fun i x z hx hz => ?_
      have hi : i < ys.length := length ▸ (List.getElem?_eq_some_iff.1 hx).1
      have hy := List.getElem?_eq_getElem hi
      exact ih i x _ hx hy (items' i _ z hy hz)
  | @obj xs ys keys values ih =>
    cases h' with
    | refl => exact .obj keys values
    | @obj _ zs keys' values' =>
      refine .obj (fun key => (keys key).trans (keys' key)) fun key x z hx hz => ?_
      cases hy : ys.lookup key with
      | none => simp [(keys key).2 hy] at hx
      | some y => exact ih key x y hx hy (values' key y z hy hz)

/-- An object equals objects only, which have the same keys with equal values. -/
lemma of_obj {xs : Members} (h : Alike (.obj xs) other) :
    ∃ ys, other = .obj ys ∧ (∀ key, xs.lookup key = none → ys.lookup key = none) ∧
      ∀ key x, xs.lookup key = some x → ∃ y, ys.lookup key = some y ∧ Alike x y := by
  cases h with
  | refl => exact ⟨xs, rfl, fun _ h => h, fun _ x hx => ⟨x, hx, .refl x⟩⟩
  | @obj _ ys keys values =>
    refine ⟨ys, rfl, fun key => (keys key).1, fun key x hx => ?_⟩
    cases hy : ys.lookup key with
    | none => simp [(keys key).2 hy] at hx
    | some y => exact ⟨y, rfl, values key x y hx hy⟩

/-- A list equals lists only, item by item. -/
lemma of_arr {xs : List Json} (h : Alike (.arr xs) other) :
    ∃ ys, other = .arr ys ∧ xs.length = ys.length ∧ ∀ x ∈ xs, ∃ y ∈ ys, Alike x y := by
  cases h with
  | refl => exact ⟨xs, rfl, rfl, fun x hx => ⟨x, hx, .refl x⟩⟩
  | @arr _ ys length items =>
    refine ⟨ys, rfl, length, fun x hx => ?_⟩
    obtain ⟨i, hi, rfl⟩ := List.getElem_of_mem hx
    have hi' : i < ys.length := length ▸ hi
    exact ⟨ys[i], List.getElem_mem hi', items i _ _ (List.getElem?_eq_getElem hi)
      (List.getElem?_eq_getElem hi')⟩

end Alike

/-! ## Equalities -/

/-- The relation is an equality of documents that looks at all their texts, items and members. -/
structure Discerns (R : Json → Json → Prop) : Prop where
  equivalence : Equivalence R
  str : ∀ {text : String} {other : Json}, R (.str text) other → other = .str text
  arr : ∀ {xs : List Json} {other : Json}, R (.arr xs) other →
    ∃ ys, other = .arr ys ∧ List.Forall₂ R xs ys
  obj : ∀ {xs : Members} {other : Json}, R (.obj xs) other →
    ∃ ys, other = .obj ys ∧ ∀ key, Option.Rel R (xs.lookup key) (ys.lookup key)
  arr_of : ∀ {xs ys : List Json}, List.Forall₂ R xs ys → R (.arr xs) (.arr ys)
  obj_of : ∀ {xs ys : Members}, List.Forall₂ (fun x y => x.1 = y.1 ∧ R x.2 y.2) xs ys →
    R (.obj xs) (.obj ys)

lemma discerns_eq : Discerns Eq where
  equivalence := eq_equivalence
  str h := h.symm
  arr h := ⟨_, h.symm, List.forall₂_refl _⟩
  obj {xs _} h := by
    refine ⟨xs, h.symm, fun key => ?_⟩
    cases xs.lookup key with
    | none => exact .none
    | some x => exact .some rfl
  arr_of h := by
    rw [List.forall₂_eq_eq_eq] at h
    rw [h]
  obj_of h := by
    congr 1
    induction h with
    | nil => rfl
    | cons hmember _ ih => rw [ih, Prod.ext hmember.1 hmember.2]

lemma lookup_rel {R : Json → Json → Prop} {xs ys : Members} (key : String)
    (h : List.Forall₂ (fun x y => x.1 = y.1 ∧ R x.2 y.2) xs ys) :
    Option.Rel R (xs.lookup key) (ys.lookup key) := by
  induction h with
  | nil => exact .none
  | @cons x y xs ys hmember _ ih =>
    obtain ⟨k, v⟩ := x
    obtain ⟨k', v'⟩ := y
    obtain ⟨rfl, hvalue⟩ : k = k' ∧ R v v' := hmember
    by_cases hkey : key = k
    · subst hkey
      simpa using hvalue
    · rwa [lookup_cons_of_ne hkey, lookup_cons_of_ne hkey]

lemma discerns_alike : Discerns Alike where
  equivalence := ⟨.refl, .symm, .trans⟩
  str h := by
    cases h
    rfl
  arr {xs _} h := by
    obtain ⟨ys, rfl, length, -⟩ := h.of_arr
    refine ⟨ys, rfl, List.forall₂_iff_get.2 ⟨length, fun i hi hi' => ?_⟩⟩
    cases h with
    | refl => exact .refl _
    | arr _ items =>
      exact items i _ _ (List.getElem?_eq_getElem hi) (List.getElem?_eq_getElem hi')
  obj {xs _} h := by
    obtain ⟨ys, rfl, missing, held⟩ := h.of_obj
    refine ⟨ys, rfl, fun key => ?_⟩
    cases hx : xs.lookup key with
    | none =>
      rw [missing key hx]
      exact .none
    | some x =>
      obtain ⟨y, hy, hxy⟩ := held key x hx
      rw [hy]
      exact .some hxy
  arr_of h := by
    obtain ⟨length, items⟩ := List.forall₂_iff_get.1 h
    refine .arr length fun i x y hx hy => ?_
    obtain ⟨hi, rfl⟩ := List.getElem?_eq_some_iff.1 hx
    obtain ⟨hi', rfl⟩ := List.getElem?_eq_some_iff.1 hy
    exact items i hi hi'
  obj_of {xs ys} h := by
    refine .obj (fun key => ?_) fun key x y hx hy => ?_
    · have hrel := lookup_rel key h
      cases hx : xs.lookup key <;> cases hy : ys.lookup key <;> simp_all
    · have hrel := lookup_rel key h
      rw [hx, hy] at hrel
      simpa using hrel

end Json

end FilterLang
