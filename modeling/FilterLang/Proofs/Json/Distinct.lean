import FilterLang.Json.Reader
import FilterLang.Proofs.Json.Members

/-!
# Documents in which no key comes twice

An object is a list of members here, and nothing in its type keeps a key from coming twice.  In a document
that was read from a text it never does: of the values of a repeated key only the last one is left
(`distinct_of_ofText?`).
-/

namespace FilterLang.Json

/-- In every object of the document, no key comes twice. -/
inductive Distinct : Json → Prop
  | literal {document : Json} (no_object : ∀ members, document ≠ .obj members)
      (no_list : ∀ items, document ≠ .arr items) : Distinct document
  | arr {items : List Json} (values : ∀ item ∈ items, Distinct item) : Distinct (.arr items)
  | obj {members : Members} (nodup : (members.map Prod.fst).Nodup)
      (values : ∀ member ∈ members, Distinct member.2) : Distinct (.obj members)

/-- Members that are written one after the other. -/
lemma distinct_ofList {entries : List (String × Json)} (h : ∀ entry ∈ entries, Distinct entry.2) :
    Distinct (.obj (Members.ofList entries)) := by
  suffices hfold : ∀ members : Members, Distinct (.obj members) →
      Distinct (.obj (entries.foldl (fun members entry => Members.set entry.1 entry.2 members) members)) by
    exact hfold [] (.obj (by simp) (by simp))
  induction entries with
  | nil => exact fun members hmembers => hmembers
  | cons entry rest ih =>
    intro members hmembers
    rw [List.forall_mem_cons] at h
    refine ih h.2 _ ?_
    cases hmembers with
    | literal no_object => exact absurd rfl (no_object _)
    | obj nodup values =>
      refine .obj (nodup_keys_set nodup _ _) fun member hmember => ?_
      rcases mem_set hmember with rfl | hmember
      · exact h.1
      · exact values member hmember

mutual

/-- Merging leaves every key once. -/
lemma distinct_merged (document : Json) : Distinct document.merged := by
  match document with
  | .arr items =>
    rw [merged]
    exact .arr (distinct_mergedItems items)
  | .obj members =>
    rw [merged]
    exact distinct_ofList (distinct_mergedMembers members)
  | .null | .bool _ | .int _ | .float _ | .str _ =>
    rw [merged.eq_def]
    exact .literal (by simp) (by simp)
termination_by structural document

lemma distinct_mergedItems (items : List Json) : ∀ item ∈ mergedItems items, Distinct item := by
  match items with
  | [] => simp [mergedItems]
  | item :: rest =>
    rw [mergedItems]
    exact List.forall_mem_cons.2 ⟨distinct_merged item, distinct_mergedItems rest⟩
termination_by structural items

lemma distinct_mergedMembers (members : Members) :
    ∀ member ∈ mergedMembers members, Distinct member.2 := by
  match members with
  | [] => simp [mergedMembers]
  | (key, value) :: rest =>
    rw [mergedMembers]
    exact List.forall_mem_cons.2 ⟨distinct_merged value, distinct_mergedMembers rest⟩
termination_by structural members

end

/-- A document that comes from outside. -/
lemma distinct_of_ofText? {text : String} {document : Json} (h : ofText? text = some document) :
    Distinct document := by
  obtain ⟨read, -, rfl⟩ := Option.map_eq_some_iff.1 h
  exact distinct_merged read

end FilterLang.Json
