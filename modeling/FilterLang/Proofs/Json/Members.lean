import FilterLang.Target.Basic
import Mathlib.Tactic

/-!
# Members of an object

Looking up a key among the members of an object, and setting it; and the objects that lead along a path.
-/

namespace FilterLang

variable {members : Members} {key : String} {value : Json}

lemma lookup_cons_of_ne {k : String} (h : k ≠ key) :
    List.lookup k ((key, value) :: members) = members.lookup k := by
  rw [List.lookup_cons, beq_eq_false_iff_ne.2 h]

lemma lookup_cons_eq_none_iff {k : String} :
    List.lookup k ((key, value) :: members) = none ↔ k ≠ key ∧ members.lookup k = none := by
  by_cases h : k = key
  · simp [h]
  · rw [lookup_cons_of_ne h]
    exact ⟨fun hrest => ⟨h, hrest⟩, And.right⟩

lemma lookup_concat_eq_none_iff {k : String} :
    List.lookup k (members ++ [(key, value)]) = none ↔ members.lookup k = none ∧ k ≠ key := by
  rw [List.lookup_append, Option.or_eq_none_iff, lookup_cons_eq_none_iff]
  exact and_congr_right fun _ => and_iff_left rfl

lemma mem_of_lookup (h : members.lookup key = some value) : (key, value) ∈ members := by
  obtain ⟨front, behind, rfl, -⟩ := List.lookup_eq_some_iff.1 h
  simp

/-- A new key goes to the end of the members. -/
lemma set_eq_append (h : members.lookup key = none) (value : Json) :
    Members.set key value members = members ++ [(key, value)] := by
  induction members with
  | nil => rfl
  | cons member rest ih =>
    obtain ⟨hne, hrest⟩ := lookup_cons_eq_none_iff.1 h
    rw [Members.set, if_neg (Ne.symm hne), ih hrest, List.cons_append]

lemma lookup_set (k key : String) (value : Json) (members : Members) :
    (Members.set key value members).lookup k = if k = key then some value else members.lookup k := by
  induction members with
  | nil =>
    by_cases hk : k = key
    · simp [Members.set, hk]
    · rw [Members.set, lookup_cons_of_ne hk, if_neg hk]
  | cons member rest ih =>
    obtain ⟨key', value'⟩ := member
    rw [Members.set]
    by_cases hkey : key' = key
    · subst hkey
      rw [if_pos rfl]
      by_cases hk : k = key'
      · simp [hk]
      · rw [lookup_cons_of_ne hk, lookup_cons_of_ne hk, if_neg hk]
    · rw [if_neg hkey]
      by_cases hk : k = key'
      · subst hk
        simp [hkey]
      · rw [lookup_cons_of_ne hk, lookup_cons_of_ne hk, ih]

lemma lookup_eq_none_of_notMem (h : key ∉ members.map Prod.fst) : members.lookup key = none := by
  rw [List.lookup_eq_none_iff]
  rintro ⟨k, v⟩ hmem
  have hne : key ≠ k := by
    rintro rfl
    exact h (List.mem_map.2 ⟨_, hmem, rfl⟩)
  simpa using hne

lemma notMem_of_lookup_eq_none (h : members.lookup key = none) : key ∉ members.map Prod.fst := by
  intro hmem
  obtain ⟨member, hmember, rfl⟩ := List.mem_map.1 hmem
  simpa using List.lookup_eq_none_iff.1 h member hmember

lemma mem_set {member : String × Json} (h : member ∈ Members.set key value members) :
    member = (key, value) ∨ member ∈ members := by
  induction members with
  | nil => exact .inl (List.mem_singleton.1 h)
  | cons first rest ih =>
    rw [Members.set] at h
    split at h
    · rename_i hkey
      rcases List.mem_cons.1 h with rfl | h
      · exact .inl (by rw [hkey])
      · exact .inr (List.mem_cons_of_mem _ h)
    · rcases List.mem_cons.1 h with rfl | h
      · exact .inr List.mem_cons_self
      · exact (ih h).imp_right (List.mem_cons_of_mem _)

/-- Setting a key does not make any key come twice. -/
lemma nodup_keys_set (h : (members.map Prod.fst).Nodup) (key : String) (value : Json) :
    ((Members.set key value members).map Prod.fst).Nodup := by
  induction members with
  | nil => simp [Members.set]
  | cons member rest ih =>
    obtain ⟨hmember, hrest⟩ := List.nodup_cons.1 h
    rw [Members.set]
    split
    · exact h
    · rename_i hne
      refine List.nodup_cons.2 ⟨fun hmem => ?_, ih hrest⟩
      obtain ⟨other, hother, heq⟩ := List.mem_map.1 hmem
      rcases mem_set hother with rfl | hother
      · exact hne heq.symm
      · exact hmember (List.mem_map.2 ⟨other, hother, heq⟩)

/-! ## Paths -/

lemma fieldPath_ne_nil (field : String) : fieldPath field ≠ [] := by
  simp [fieldPath, List.splitOn_ne_nil]

lemma nestPath_ne_nil (field : String) (condition : Json) : nestPath field condition ≠ [] := by
  unfold nestPath
  split
  · rename_i hpath
    exact absurd hpath (fieldPath_ne_nil field)
  · exact List.cons_ne_nil _ _

lemma nest_cons (key : String) (rest : List String) (document : Json) :
    nest (key :: rest) document = .single key (nest rest document) := rfl

lemma nest_append (path rest : List String) (document : Json) :
    nest (path ++ rest) document = nest path (nest rest document) :=
  List.foldr_append

lemma nest_injective {path : List String} {a b : Json} (h : nest path a = nest path b) : a = b := by
  induction path with
  | nil => exact h
  | cons key rest ih =>
    simp only [nest_cons, Json.single, Json.obj.injEq, List.cons.injEq, Prod.mk.injEq, true_and,
      and_true] at h
    exact ih h

end FilterLang
