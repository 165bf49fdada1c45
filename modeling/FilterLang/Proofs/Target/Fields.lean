import FilterLang.Proofs.Filter.RoundTrip
import FilterLang.Proofs.Policy.Extraction
import FilterLang.Proofs.Prisma.Trails
import FilterLang.Proofs.TypeOrm.Trails

/-!
# The fields behind a document

Field names are free text, and their parts become keys of a document beside the keys of its connectives.
So two queries on different fields may have the same document, and a check of the fields that one of them
names does not speak for the other.  This file says for which names that can happen.

Only the first part of a name counts.  If it cannot be taken for a connective, the fields can be read off
the document, by the trails through it; and if it can, there are two queries with one document and different
fields (`tellsFields_iff`).
-/

namespace FilterLang

/-! ## Fields and their paths -/

lemma fieldPath_injective : Function.Injective fieldPath := by
  intro a b h
  have hofList : Function.Injective String.ofList := fun _ _ => String.ofList_injective
  have hparts : a.toList.splitOn '.' = b.toList.splitOn '.' := List.map_injective_iff.2 hofList h
  have hchars := congrArg (List.intercalate ['.']) hparts
  rw [List.intercalate_splitOn, List.intercalate_splitOn] at hchars
  exact String.toList_inj.1 hchars

/-! ## Documents that tell the fields -/

/-- Accepted queries with equal documents have the same fields, as long as the names of the fields begin
with certain parts. -/
def TellsFields (compile : Filter → Except CompileError Json) (IsHead : String → Prop) : Prop :=
  ∀ q₁ q₂ t₁ t₂ d₁ d₂, Filter.parse q₁ = .ok t₁ → Filter.parse q₂ = .ok t₂ →
    (∀ c ∈ t₁.comparisons ++ t₂.comparisons, ∀ head ∈ (fieldPath c.1).head?, IsHead head) →
    compile t₁ = .ok d₁ → compile t₂ = .ok d₂ → d₁.Alike d₂ →
    ∀ f, f ∈ t₁.fields ↔ f ∈ t₂.fields

section

variable {compile : Filter → Except CompileError Json} {IsHead : String → Prop}

/-- If the paths of the fields can be read off a document, it tells the fields. -/
lemma tellsFields_of_leads (Leads : Json → List String → Prop)
    (alike : ∀ {d d' path}, Leads d path → d.Alike d' → Leads d' path)
    (paths : ∀ {t d path}, (∀ c ∈ t.comparisons, ∀ head ∈ (fieldPath c.1).head?, IsHead head) →
      compile t = .ok d → path ≠ [] → (Leads d path ↔ ∃ c ∈ t.comparisons, path = fieldPath c.1)) :
    TellsFields compile IsHead := by
  have hsub : ∀ {t₁ t₂ d₁ d₂}, (∀ c ∈ t₁.comparisons, ∀ head ∈ (fieldPath c.1).head?, IsHead head) →
      (∀ c ∈ t₂.comparisons, ∀ head ∈ (fieldPath c.1).head?, IsHead head) →
      compile t₁ = .ok d₁ → compile t₂ = .ok d₂ → d₁.Alike d₂ → ∀ f ∈ t₁.fields, f ∈ t₂.fields := by
    intro t₁ t₂ d₁ d₂ h₁ h₂ ok₁ ok₂ halike f hf
    obtain ⟨c, hc, rfl⟩ := mem_fields.1 hf
    have hleads := (paths h₁ ok₁ (fieldPath_ne_nil c.1)).2 ⟨c, hc, rfl⟩
    obtain ⟨c', hc', hpath⟩ := (paths h₂ ok₂ (fieldPath_ne_nil c.1)).1 (alike hleads halike)
    exact mem_fields.2 ⟨c', hc', (fieldPath_injective hpath).symm⟩
  intro _ _ t₁ t₂ d₁ d₂ _ _ heads ok₁ ok₂ halike f
  have h₁ := fun c hc => heads c (List.mem_append_left t₂.comparisons hc)
  have h₂ := fun c hc => heads c (List.mem_append_right t₁.comparisons hc)
  exact ⟨hsub h₁ h₂ ok₁ ok₂ halike f, hsub h₂ h₁ ok₂ ok₁ halike.symm f⟩

/-- The filter can be written, and its names begin with certain parts. -/
structure Begins (heads : List String) (t : Filter) : Prop where
  writable : t.Writable
  finite : t.isFinite = true
  need : t.printNeed ≤ defaultMaxNesting
  heads : ∀ c ∈ t.comparisons, (fieldPath c.1).head? ∈ heads.map some

lemma begins_iff (heads : List String) (t : Filter) :
    Begins heads t ↔
      (∀ c ∈ t.comparisons, Lexer.Lexable c.1 ∧ c.2.1.accepts c.2.2 = true ∧
        (fieldPath c.1).head? ∈ heads.map some) ∧
      t.isFinite = true ∧ t.printNeed ≤ defaultMaxNesting := by
  constructor
  · rintro ⟨⟨fields, shapes⟩, finite, need, hheads⟩
    exact ⟨fun c hc => ⟨fields c hc, shapes c hc, hheads c hc⟩, finite, need⟩
  · rintro ⟨hall, finite, need⟩
    exact ⟨⟨fun c hc => (hall c hc).1, fun c hc => (hall c hc).2.1⟩, finite, need,
      fun c hc => (hall c hc).2.2⟩

instance (heads : List String) (t : Filter) : Decidable (Begins heads t) :=
  decidable_of_iff' _ (begins_iff heads t)

/-- Two filters with one document and different fields. -/
lemma not_tellsFields {heads : List String} {t₁ t₂ : Filter} {d : Json} (h₁ : Begins heads t₁)
    (h₂ : Begins heads t₂) (ok₁ : compile t₁ = .ok d) (ok₂ : compile t₂ = .ok d)
    (hfields : ∃ f ∈ t₁.fields, f ∉ t₂.fields) (hheads : ∀ head ∈ heads, IsHead head) :
    ¬ TellsFields compile IsHead := by
  have hparse : ∀ {t}, Begins heads t → Filter.parse t.print = .ok t := by
    intro t h
    rw [← Filter.parseWithin_defaultMaxNesting]
    exact Filter.parseWithin_print_eq_ok h.writable h.finite h.need
  have hhead : ∀ {t}, Begins heads t → ∀ c ∈ t.comparisons, ∀ head ∈ (fieldPath c.1).head?,
      IsHead head := by
    intro t h c hc head hmem
    obtain ⟨name, hname, heq⟩ := List.mem_map.1 (h.heads c hc)
    obtain rfl := Option.some.inj (heq.trans hmem)
    exact hheads name hname
  intro htells
  obtain ⟨f, hf₁, hf₂⟩ := hfields
  refine hf₂ ((htells _ _ t₁ t₂ d d (hparse h₁) (hparse h₂) (fun c hc => ?_) ok₁ ok₂ (.refl d) f).1 hf₁)
  exact (List.mem_append.1 hc).elim (hhead h₁ c) (hhead h₂ c)

end

/-! ## Names that can be taken for connectives -/

/-- The name of a negation leads on where a negated comparison would stand. -/
lemma prisma_not_tellsFields_not {IsHead : String → Prop} (h : IsHead "NOT") :
    ¬ TellsFields Prisma.compile IsHead := by
  have h₁ : Begins ["NOT"] (.equals "NOT.NOT" (.int 1)) := by
    decide +kernel
  have h₂ : Begins ["NOT"] (.not (.equals "NOT" (.int 1))) := by
    decide +kernel
  exact not_tellsFields h₁ h₂ rfl rfl ⟨"NOT.NOT", by decide⟩ (by simpa using h)

/-- The name of a conjunction stands where a list of conjuncts would, and other conjuncts join it. -/
lemma prisma_not_tellsFields_and {IsHead : String → Prop} (h : IsHead "AND") :
    ¬ TellsFields Prisma.compile IsHead := by
  have h₁ : Begins ["AND"]
      (.and (.and (.not (.equals "AND" (.int 0))) (.equals "AND.NOT.AND" (.int 1)))
        (.equals "AND.NOT.AND" (.int 2))) := by
    decide +kernel
  have h₂ : Begins ["AND"]
      (.and (.not (.equals "AND" (.int 0)))
        (.and (.not (.equals "AND" (.int 1))) (.not (.equals "AND" (.int 2))))) := by
    decide +kernel
  exact not_tellsFields h₁ h₂ rfl rfl ⟨"AND.NOT.AND", by decide⟩ (by simpa using h)

lemma typeOrm_not_tellsFields_not {IsHead : String → Prop} (h : IsHead notMarker) :
    ¬ TellsFields TypeOrm.compile IsHead := by
  have h₁ : Begins [notMarker] (.equals "__qast_not__.__qast_not__" (.int 1)) := by
    decide +kernel
  have h₂ : Begins [notMarker] (.not (.equals notMarker (.int 1))) := by
    decide +kernel
  exact not_tellsFields h₁ h₂ rfl rfl ⟨"__qast_not__.__qast_not__", by decide⟩ (by simpa using h)

/-- Comparisons of both keys of an envelope make one without conjuncts, which is lost among others. -/
lemma typeOrm_not_tellsFields_envelope {IsHead : String → Prop} (hoperator : IsHead operatorMarker)
    (hvalue : IsHead "value") : ¬ TellsFields TypeOrm.compile IsHead := by
  have h₁ : Begins [operatorMarker, "value"]
      (.and (.and (.not (.and (.equals operatorMarker (.str "and")) (.comparison "value" .eq (.list []))))
        (.not (.equals "value" (.int 1)))) (.not (.equals "value" (.int 2)))) := by
    decide +kernel
  have h₂ : Begins [operatorMarker, "value"]
      (.and (.not (.equals "value" (.int 1))) (.not (.equals "value" (.int 2)))) := by
    decide +kernel
  exact not_tellsFields h₁ h₂ rfl rfl ⟨operatorMarker, by decide⟩ (by simp [hoperator, hvalue])

/-- **When a document tells the fields.**  Take queries whose field names begin with certain parts.  Equal
Prisma documents mean the same fields if and only if these parts are neither `NOT` nor `AND`.  Equal TypeORM
documents mean the same fields if and only if they are not the key of a negation and not both keys of an
envelope.  Without a limit on the names, neither document tells the fields. -/
theorem tellsFields_iff (IsHead : String → Prop) :
    (TellsFields Prisma.compile IsHead ↔ ¬ IsHead "NOT" ∧ ¬ IsHead "AND") ∧
    (TellsFields TypeOrm.compile IsHead ↔
      ¬ IsHead notMarker ∧ ¬ (IsHead operatorMarker ∧ IsHead "value")) := by
  refine ⟨⟨fun htells => ⟨?_, ?_⟩, fun ⟨hnot, hand⟩ => ?_⟩,
    ⟨fun htells => ⟨?_, ?_⟩, fun ⟨hnot, henvelope⟩ => ?_⟩⟩
  · exact fun h => prisma_not_tellsFields_not h htells
  · exact fun h => prisma_not_tellsFields_and h htells
  · refine tellsFields_of_leads Prisma.Leads Prisma.Leads.alike fun {t d path} heads ok hpath => ?_
    have named : Prisma.OpenlyNamed t := fun c hc =>
      ⟨fun h => hnot (heads c hc _ h), fun h => hand (heads c hc _ h)⟩
    exact Prisma.leads_compile_iff named ok hpath
  · exact fun h => typeOrm_not_tellsFields_not h htells
  · exact fun ⟨hoperator, hvalue⟩ => typeOrm_not_tellsFields_envelope hoperator hvalue htells
  · exact tellsFields_of_leads TypeOrm.Leads TypeOrm.Leads.alike fun heads ok _ =>
      TypeOrm.leads_compile_iff heads hnot henvelope ok

/-- The key of a disjunction and one key of an envelope do no harm; the key of a negation does. -/
theorem tellsFields_iff_negationKey :
    TellsFields Prisma.compile (· ∈ ["a", "OR"]) ∧ ¬ TellsFields Prisma.compile (· ∈ ["a", "NOT"]) ∧
    TellsFields TypeOrm.compile (· ∈ ["a", "value"]) ∧
    ¬ TellsFields TypeOrm.compile (· ∈ ["a", notMarker]) := by
  refine ⟨(tellsFields_iff _).1.2 (by simp), fun htells => ?_, (tellsFields_iff _).2.2 (by decide),
    fun htells => ?_⟩
  · exact ((tellsFields_iff _).1.1 htells).1 (by simp)
  · exact ((tellsFields_iff _).2.1 htells).1 (by simp)

end FilterLang
