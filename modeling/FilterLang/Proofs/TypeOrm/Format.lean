import FilterLang.Proofs.TypeOrm.Opening

/-!
# The format of drafts

The compiler and the finisher of TypeORM filters share a format of envelopes.  This file states it
(`Formed`) and shows that the compiler keeps to it, that joining objects and moving negations stay within
it, and that opening a document of this format fails for two reasons only: a function is missing from the
table, or a negation has no form, which takes a negation (`Excused`).

Unlike the relations of drafts, the format says nothing about meaning.  So it need not know the paths of
fields, and it covers filters in which a condition and a relation meet under one key.
-/

namespace FilterLang

/-- There is a negation in the filter. -/
def Filter.hasNegation : Filter → Bool
  | .comparison _ _ _ => false
  | .logical _ left right => left.hasNegation || right.hasNegation
  | .not _ => true

namespace TypeOrm

/-! ## The format -/

/-- Where a document stands: under the key of a field, or under that of a negation. -/
inductive Slot where
  | condition
  | negation
deriving DecidableEq

/-- What stands under a key. -/
def Slot.ofKey (key : String) : Slot := if key = notMarker then .negation else .condition

/-- The key may be one of an object that is no envelope; that of a negation only if there are
negations. -/
def Admitted (negated : Bool) (key : String) : Prop :=
  key ≠ operatorMarker ∧ (key = notMarker → negated = true)

/-- The document has the format that its slot asks for.  The flag says whether there are negations.  An
object may stand in either slot: as a relation or as a negated filter. -/
inductive Formed (negated : Bool) : Slot → Json → Prop
  | value (value : Value) : Formed negated .condition value.toJson
  | operator {op : Operator} {value : Value} (ne : op ≠ .eq) (accepts : op.accepts value = true) :
      Formed negated .condition (envelope op.name value.toJson)
  | not {condition : Json} (flag : negated = true) (inner : Formed negated .condition condition) :
      Formed negated .condition (envelope "not" condition)
  | object {slot : Slot} {members : Members} (keys : ∀ member ∈ members, Admitted negated member.1)
      (values : ∀ member ∈ members, Formed negated (.ofKey member.1) member.2) :
      Formed negated slot (.obj members)
  | alternatives {branches : List Json} : Formed negated .negation (.arr branches)
  | and {slot : Slot} {items : List Json} (inner : ∀ item ∈ items, Formed negated slot item) :
      Formed negated slot (envelope "and" (.arr items))

/-- The members of an object of this format. -/
structure FormedMembers (negated : Bool) (members : Members) : Prop where
  keys : ∀ member ∈ members, Admitted negated member.1
  values : ∀ member ∈ members, Formed negated (.ofKey member.1) member.2

/-- What may go wrong when a document of this format is opened with a table. -/
def Excused (table : FunctionTable) (negated : Bool) : EnvelopeError → Prop
  | .missingOperator target name => target = .typeOrm ∧ table.functions.lookup name = none
  | .unsupported target _ => target = .typeOrm ∧ negated = true
  | .invalid _ _ => False

variable {negated : Bool} {slot : Slot} {members : Members}

namespace FormedMembers

lemma nil : FormedMembers negated [] := ⟨by simp, by simp⟩

lemma formed (h : FormedMembers negated members) : Formed negated slot (.obj members) :=
  .object h.keys h.values

lemma cons {key : String} {value : Json} (hkey : Admitted negated key)
    (hvalue : Formed negated (.ofKey key) value) (h : FormedMembers negated members) :
    FormedMembers negated ((key, value) :: members) :=
  ⟨by simpa [hkey] using h.keys, by simpa [hvalue] using h.values⟩

lemma of_subset {others : Members} (h : FormedMembers negated members)
    (hsub : ∀ member ∈ others, member ∈ members) : FormedMembers negated others :=
  ⟨fun member hmem => h.keys member (hsub member hmem),
    fun member hmem => h.values member (hsub member hmem)⟩

lemma lookup_operatorMarker (h : FormedMembers negated members) :
    members.lookup operatorMarker = none := by
  refine lookup_eq_none_of_notMem fun hmem => ?_
  obtain ⟨member, hmember, heq⟩ := List.mem_map.1 hmem
  exact (h.keys member hmember).1 heq

lemma get?_operatorMarker (h : FormedMembers negated members) :
    (Json.obj members).get? operatorMarker = none :=
  h.lookup_operatorMarker

lemma envelopeName? (h : FormedMembers negated members) : envelopeName? (.obj members) = none := by
  simp [FilterLang.envelopeName?, h.get?_operatorMarker]

lemma isRelation (h : FormedMembers negated members) : isRelation (.obj members) = true := by
  simp [FilterLang.isRelation, Members.has, h.lookup_operatorMarker]

end FormedMembers

/-- A relation is an object of this format. -/
lemma Formed.relation {document : Json} (h : Formed negated slot document)
    (hrelation : isRelation document = true) :
    ∃ members, document = .obj members ∧ FormedMembers negated members := by
  cases h with
  | value value => simp at hrelation
  | object keys values => exact ⟨_, rfl, keys, values⟩
  | operator | not | alternatives | and => cases hrelation

/-! ## Joining -/

lemma Formed.combine {current incoming : Json} (hc : Formed negated slot current)
    (hi : Formed negated slot incoming) : Formed negated slot (combine current incoming) := by
  have hpair : Formed negated slot (envelope "and" (.arr [current, incoming])) :=
    .and (by simpa using ⟨hc, hi⟩)
  cases hc with
  | value value =>
    rwa [combine_of_ne (by rw [envelopeName?_toJson]; simp)]
  | @operator op value ne accepts =>
    rwa [combine_of_ne (by simpa using (operatorName_ne op).1)]
  | not => rwa [combine_of_ne (by simp)]
  | object keys values =>
    rwa [combine_of_ne (by simp [(FormedMembers.mk keys values).envelopeName?])]
  | alternatives => rwa [combine_of_ne (by simp [envelopeName?, Json.get?])]
  | and inner =>
    rw [combine_and]
    refine .and fun item hitem => ?_
    rcases List.mem_append.1 hitem with hitem | hitem
    · exact inner item hitem
    · rw [List.mem_singleton.1 hitem]
      exact hi

/-- Two objects joined, if the values that meet can be. -/
lemma FormedMembers.mergeObjects_of_values {left right : Members} (hl : FormedMembers negated left)
    (hr : FormedMembers negated right)
    (hmerge : ∀ member ∈ right, ∀ current, Formed negated (.ofKey member.1) current →
      Formed negated (.ofKey member.1) (mergeValue member.1 current member.2)) :
    FormedMembers negated (mergeObjects left right) := by
  refine mergeObjects_induction (P := FormedMembers negated) hl fun members hmembers member hmem => ⟨?_, ?_⟩
  · intro other hother
    rcases mem_set hother with rfl | hother
    · exact hr.keys member hmem
    · exact hmembers.keys other hother
  · intro other hother
    rcases mem_set hother with rfl | hother
    · unfold mergedValue
      cases hlookup : members.lookup member.1 with
      | none => exact hr.values member hmem
      | some current =>
        exact hmerge member hmem current (hmembers.values _ (mem_of_lookup hlookup))
    · exact hmembers.values other hother

/-- The values of a key joined. -/
lemma Formed.mergeValue {key : String} {current incoming : Json}
    (hi : Formed negated slot incoming) (hslot : slot = .ofKey key)
    (hc : Formed negated slot current) : Formed negated slot (mergeValue key current incoming) := by
  -- The induction is on what comes in, as the joining of objects is.
  induction hi generalizing key current with
  | object keys values ih =>
    by_cases hkey : key = notMarker
    · rw [mergeValue_eq_combine (.inl hkey)]
      exact hc.combine (.object keys values)
    by_cases hrelation : isRelation current = true
    · obtain ⟨left, rfl, hleft⟩ := hc.relation hrelation
      have hright : FormedMembers negated _ := ⟨keys, values⟩
      rw [mergeValue_relation hkey hrelation hright.isRelation]
      exact (hleft.mergeObjects_of_values hright fun member hmem _ hcurrent =>
        ih member hmem rfl hcurrent).formed
    · rw [mergeValue_eq_combine (.inr (.inl (by simpa using hrelation)))]
      exact hc.combine (.object keys values)
  | value value =>
    rw [mergeValue_eq_combine (.inr (.inr (isRelation_toJson value)))]
    exact hc.combine (.value value)
  | operator ne accepts =>
    rw [mergeValue_eq_combine (.inr (.inr rfl))]
    exact hc.combine (.operator ne accepts)
  | not flag inner =>
    rw [mergeValue_eq_combine (.inr (.inr rfl))]
    exact hc.combine (.not flag inner)
  | alternatives =>
    rw [mergeValue_eq_combine (.inr (.inr rfl))]
    exact hc.combine .alternatives
  | and inner =>
    rw [mergeValue_eq_combine (.inr (.inr rfl))]
    exact hc.combine (.and inner)

/-- Joining two objects stays within the format. -/
lemma FormedMembers.mergeObjects {left right : Members} (hl : FormedMembers negated left)
    (hr : FormedMembers negated right) : FormedMembers negated (mergeObjects left right) :=
  hl.mergeObjects_of_values hr fun member hmem _ hcurrent =>
    (hr.values member hmem).mergeValue rfl hcurrent

/-! ## Moving negations -/

section

variable {table : FunctionTable}

lemma unsupported_excused {α : Type} {result : α → Prop} (hneg : negated = true)
    (cause : NegationCause) : Meets result (Excused table negated) (unsupported cause) :=
  ⟨rfl, hneg⟩

lemma Formed.cancel {payload : Json} (h : Formed negated .negation payload) (hneg : negated = true) :
    Meets (FormedMembers negated) (Excused table negated) (cancel payload) := by
  cases h with
  | alternatives => exact unsupported_excused hneg .overOr
  | and => exact unsupported_excused hneg .overOr
  | object keys values =>
    have hmembers : FormedMembers negated _ := ⟨keys, values⟩
    simp only [TypeOrm.cancel, hmembers.envelopeName?, reduceCtorEq, if_false]
    exact hmembers

lemma negateAll_meets {items : List Json} {joined : Members}
    (h : ∀ item ∈ items, Meets (FormedMembers negated) (Excused table negated) (negate item))
    (hjoined : FormedMembers negated joined) :
    Meets (FormedMembers negated) (Excused table negated) (negateAll joined items) := by
  induction items generalizing joined with
  | nil => rwa [negateAll]
  | cons item rest ih =>
    rw [negateAll]
    exact (h item List.mem_cons_self).bind fun opposite hopposite =>
      ih (fun item hitem => h item (List.mem_cons_of_mem _ hitem)) (hjoined.mergeObjects hopposite)

/-- The opposite of a negated filter or of a relation is an object of the format, or there is none. -/
lemma Formed.negate {document : Json} (h : Formed negated slot document) (hneg : negated = true)
    (hslot : slot = .negation ∨ isRelation document = true) :
    Meets (FormedMembers negated) (Excused table negated) (negate document) := by
  induction h with
  | value value => simp at hslot
  | operator | not => cases hslot <;> contradiction
  | alternatives => exact unsupported_excused hneg .overOr
  | and inner ih =>
    have hnegation := hslot.resolve_right (by simp [isRelation, envelope, Members.has])
    rw [negate_envelope_and]
    exact negateAll_meets (fun item hitem => ih item hitem (.inl hnegation)) .nil
  | @object _ members keys values ih =>
    have hmembers : FormedMembers negated members := ⟨keys, values⟩
    rw [TypeOrm.negate.eq_def]
    simp only [hmembers.envelopeName?, reduceCtorEq, if_false]
    match members with
    | [] => exact .nil
    | _ :: _ :: _ => exact unsupported_excused hneg .overSeveralFields
    | [(key, inner)] =>
      have hmember : (key, inner) ∈ [(key, inner)] := List.mem_cons_self
      have hvalue := values _ hmember
      by_cases hkey : key = notMarker
      · subst hkey
        simp only [if_true]
        exact hvalue.cancel hneg
      simp only [if_neg hkey]
      by_cases hrelation : isRelation inner = true
      · rw [if_pos hrelation]
        refine (ih _ hmember (.inr hrelation)).bind fun opposite hopposite => ?_
        exact .cons (keys _ hmember) hopposite.formed .nil
      · rw [if_neg hrelation]
        simp only [Slot.ofKey, if_neg hkey] at hvalue
        refine .cons (keys _ hmember) ?_ .nil
        rw [Slot.ofKey, if_neg hkey]
        exact .not hneg hvalue

lemma mem_of_mem_swapErase {key : String} {members : Members} {member : String × Json}
    (h : member ∈ Members.swapErase key members) : member ∈ members := by
  unfold Members.swapErase at h
  split at h
  · cases h
  · rename_i last hlast
    split at h
    · exact h
    split at h
    · exact List.mem_of_mem_dropLast h
    · obtain ⟨other, hother, rfl⟩ := List.mem_map.1 h
      split
      · exact List.mem_of_getLast? hlast
      · exact List.mem_of_mem_dropLast hother

/-- One round, and so any number of them, stays within the format. -/
lemma FormedMembers.lowerWithin (h : FormedMembers negated members) (rounds : Nat) :
    Meets (FormedMembers negated) (Excused table negated) (lowerWithin rounds members) := by
  induction rounds generalizing members with
  | zero => exact h
  | succ rounds ih =>
    rw [TypeOrm.lowerWithin]
    split
    · exact h
    · rename_i payload hpayload
      have hmem := mem_of_lookup hpayload
      have hneg := (h.keys _ hmem).2 rfl
      refine ((h.values _ hmem).negate hneg (.inl rfl)).bind fun opposite hopposite => ?_
      exact ih ((h.of_subset fun _ => mem_of_mem_swapErase).mergeObjects hopposite)

/-! ## Opening -/

lemma call_meets (name : String) (arguments : List Json) :
    Meets (fun _ => True) (Excused table negated) (table.call name arguments) := by
  rw [FunctionTable.call]
  split
  · trivial
  · exact ⟨rfl, ‹_›⟩

lemma some_call_meets (name : String) (arguments : List Json) :
    Meets (fun _ => True) (Excused table negated)
      (table.call name arguments >>= fun call => pure (some call)) :=
  (call_meets name arguments).bind fun _ _ => trivial

lemma callPlain_meets (value : Json) :
    Meets (fun _ => True) (Excused table negated) (callPlain table value) := by
  unfold callPlain
  split
  · exact call_meets _ _
  · exact call_meets _ _

lemma callNot_meets (hneg : negated = true) (opened : Option Json) :
    Meets (fun _ => True) (Excused table negated) (callNot table opened) := by
  cases opened with
  | none => exact unsupported_excused hneg .overUnbounded
  | some condition => exact some_call_meets _ _

lemma callAnd_meets (conditions : List Json) :
    Meets (fun _ => True) (Excused table negated) (callAnd table conditions) := by
  match conditions with
  | [] => trivial
  | [_] => trivial
  | _ :: _ :: _ => exact some_call_meets _ _

lemma callOperator_meets {op : Operator} {value : Value} (accepts : op.accepts value = true) :
    Meets (fun _ => True) (Excused table negated) (callOperator table op value.toJson) := by
  cases op with
  | eq => exact (callPlain_meets _).bind fun _ _ => trivial
  | ne =>
    unfold callOperator
    dsimp only
    split
    · exact (call_meets _ _).bind fun _ _ => some_call_meets _ _
    · exact some_call_meets _ _
  | notIn => exact (call_meets _ _).bind fun _ _ => some_call_meets _ _
  | gt | gte | lt | lte | isIn | contains | startsWith | endsWith => exact some_call_meets _ _
  | between =>
    cases value with
    | scalar | list => cases accepts
    | range lower upper =>
      unfold callOperator
      dsimp only [Value.toJson, rangeBounds?]
      split
      · contradiction
      · exact some_call_meets _ _
      · exact some_call_meets _ _
      · exact some_call_meets _ _
      · trivial

lemma callForms_meets {items : List Json}
    (h : ∀ item ∈ items, Meets (fun _ => True) (Excused table negated) (callForm table item)) :
    Meets (fun _ => True) (Excused table negated) (callForms table items) := by
  induction items with
  | nil => trivial
  | cons item rest ih =>
    rw [callForms]
    refine (h item List.mem_cons_self).bind fun _ _ => ?_
    exact (ih fun item hitem => h item (List.mem_cons_of_mem _ hitem)).bind fun _ _ => trivial

/-- A condition in the form of a call. -/
lemma Formed.callForm {document : Json} (h : Formed negated slot document) :
    Meets (fun _ => True) (Excused table negated) (callForm table document) := by
  induction h with
  | value value =>
    rw [callForm_of_get? (get?_toJson value operatorMarker)]
    exact (callPlain_meets _).bind fun _ _ => trivial
  | operator ne accepts =>
    rw [callForm_envelope_operator table ne]
    exact callOperator_meets accepts
  | not flag inner ih =>
    rw [callForm_envelope_not]
    exact ih.bind fun opened _ => callNot_meets flag opened
  | alternatives =>
    rw [callForm_of_get? rfl]
    exact (callPlain_meets _).bind fun _ _ => trivial
  | and inner ih =>
    rw [callForm_envelope_and]
    exact (callForms_meets ih).bind fun conditions _ => callAnd_meets conditions
  | object keys values =>
    rw [callForm_of_get? (FormedMembers.mk keys values).get?_operatorMarker]
    exact (callPlain_meets _).bind fun _ _ => trivial

/-- A condition on a field.  An envelope is opened as it is in the form of a call. -/
lemma Formed.openCondition {document : Json} (h : Formed negated slot document) :
    Meets (fun _ => True) (Excused table negated) (openCondition table document) := by
  have hcall : Meets (fun _ => True) (Excused table negated) (TypeOrm.callForm table document) :=
    h.callForm
  cases h with
  | operator | not | and => exact hcall
  | alternatives => trivial
  | object keys values =>
    simp only [TypeOrm.openCondition, (FormedMembers.mk keys values).envelopeName?]
    trivial
  | value value =>
    unfold TypeOrm.openCondition
    split
    · exact some_call_meets _ _
    · exact absurd ‹_› (toJson_ne_obj value _)
    · trivial

/-- The members of an object opened, if those of its relations can be. -/
lemma FormedMembers.openMembers {nested : Members → Except EnvelopeError Members}
    (hnested : ∀ {members}, FormedMembers negated members →
      Meets (fun _ => True) (Excused table negated) (nested members))
    (h : FormedMembers negated members) :
    Meets (fun _ => True) (Excused table negated) (openMembers table nested members) := by
  induction members with
  | nil => trivial
  | cons member rest ih =>
    obtain ⟨key, value⟩ := member
    have hvalue := h.values _ List.mem_cons_self
    have hrest := ih (h.of_subset fun _ => List.mem_cons_of_mem _)
    by_cases hrelation : FilterLang.isRelation value = true
    · obtain ⟨inner, rfl, hinner⟩ := hvalue.relation hrelation
      rw [openMembers_cons_relation hrelation]
      exact (hnested hinner).bind fun _ _ => hrest.bind fun _ _ => trivial
    · rw [openMembers_cons_condition (by simpa using hrelation)]
      exact hvalue.openCondition.bind fun _ _ => hrest.bind fun _ _ => trivial

lemma FormedMembers.resolveObject (h : FormedMembers negated members) (levels : Nat) :
    Meets (fun _ => True) (Excused table negated) (resolveObject table levels members) := by
  induction levels generalizing members with
  | zero =>
    exact (h.lowerWithin _).bind fun _ hlowered => hlowered.openMembers fun _ => trivial
  | succ levels ih =>
    exact (h.lowerWithin _).bind fun _ hlowered => hlowered.openMembers ih

lemma FormedMembers.resolveBranch (h : FormedMembers negated members) :
    Meets (fun _ => True) (Excused table negated) (resolveBranch table (.obj members)) :=
  (h.resolveObject _).bind fun _ _ => trivial

/-- A filter all of whose branches have the format is opened, or the reason is one of the two. -/
lemma Where.resolve_toJson {w : Where} (h : ∀ members ∈ w.branches, FormedMembers negated members) :
    Meets (fun _ => True) (Excused table negated) (resolve table w.toJson) := by
  cases w with
  | all members => exact (h members (List.mem_singleton_self members)).resolveBranch
  | any branches =>
    refine (?_ : Meets (fun _ => True) _ _).bind fun _ _ => trivial
    replace h : ∀ members ∈ branches, FormedMembers negated members := h
    induction branches with
    | nil => trivial
    | cons members rest ih =>
      rw [List.map_cons, List.mapM_cons]
      refine (h members List.mem_cons_self).resolveBranch.bind fun _ _ => ?_
      exact (ih fun members hmem => h members (List.mem_cons_of_mem _ hmem)).bind fun _ _ => trivial

end

/-! ## Compiling -/

lemma enveloped_formed {op : Operator} {value : Value} (accepts : op.accepts value = true) :
    Formed negated .condition (enveloped op value) := by
  by_cases h : op = .eq
  · subst h
    exact .value value
  · rw [enveloped_of_ne h]
    exact .operator h accepts

/-- A member with the name of a field. -/
lemma FormedMembers.single {key : String} {condition : Json} (hkey : key ∉ markers)
    (h : Formed negated .condition condition) : FormedMembers negated [(key, condition)] := by
  simp only [markers, List.mem_cons, List.not_mem_nil, or_false, not_or] at hkey
  refine .cons ⟨hkey.1, fun heq => absurd heq hkey.2.2⟩ ?_ .nil
  rwa [Slot.ofKey, if_neg hkey.2.2]

lemma nest_formed {path : List String} {condition : Json} (hpath : ∀ key ∈ path, key ∉ markers)
    (h : Formed negated .condition condition) : Formed negated .condition (nest path condition) := by
  induction path with
  | nil => exact h
  | cons key rest ih =>
    rw [nest_cons]
    have hrest := ih fun key hkey => hpath key (List.mem_cons_of_mem _ hkey)
    exact (FormedMembers.single (hpath key List.mem_cons_self) hrest).formed

lemma nestPath_formed {field : String} {condition : Json}
    (hfield : ∀ key ∈ fieldPath field, key ∉ markers)
    (h : Formed negated .condition condition) : FormedMembers negated (nestPath field condition) := by
  unfold nestPath
  split
  · exact .nil
  · rename_i key rest hpath
    rw [hpath] at hfield
    exact .single (hfield key List.mem_cons_self)
      (nest_formed (fun key hkey => hfield key (List.mem_cons_of_mem _ hkey)) h)

namespace Where

variable {left right : Where}

lemma and_formed (hl : ∀ members ∈ left.branches, FormedMembers negated members)
    (hr : ∀ members ∈ right.branches, FormedMembers negated members) :
    ∀ members ∈ (left.and right).branches, FormedMembers negated members := by
  intro members hmem
  cases left with
  | all first =>
    have hfirst := hl first (List.mem_singleton_self first)
    cases right with
    | all second =>
      rw [List.mem_singleton.1 hmem]
      exact hfirst.mergeObjects (hr second (List.mem_singleton_self second))
    | any branches =>
      obtain ⟨branch, hbranch, rfl⟩ := List.mem_map.1 hmem
      exact (hr branch hbranch).mergeObjects hfirst
  | any branches =>
    cases right with
    | all second =>
      obtain ⟨branch, hbranch, rfl⟩ := List.mem_map.1 hmem
      exact (hl branch hbranch).mergeObjects (hr second (List.mem_singleton_self second))
    | any others => exact (List.mem_append.1 hmem).elim (hl members) (hr members)

lemma not_formed {child : Where} (hneg : negated = true)
    (h : ∀ members ∈ child.branches, FormedMembers negated members) :
    ∀ members ∈ child.not.branches, FormedMembers negated members := by
  intro members hmem
  rw [List.mem_singleton.1 hmem]
  refine .cons ⟨by decide, fun _ => hneg⟩ ?_ .nil
  cases child with
  | all inner => exact (h inner (List.mem_singleton_self inner)).formed
  | any branches => exact .alternatives

/-- The branches that a filter is compiled to have the format. -/
lemma ofFilter_formed {t : Filter} {w : Where} (flag : t.hasNegation = true → negated = true)
    (unmarked : ∀ c ∈ t.comparisons, ∀ key ∈ fieldPath c.1, key ∉ markers)
    (ok : ofFilter t = .ok w) : ∀ members ∈ w.branches, FormedMembers negated members := by
  induction t generalizing w with
  | comparison field op value =>
    rw [ofFilter] at ok
    obtain ⟨_, hshape, ok⟩ := bind_eq_ok_iff.1 ok
    cases ok
    intro members hmem
    rw [List.mem_singleton.1 hmem]
    exact nestPath_formed (unmarked (field, op, value) (by simp [Filter.comparisons]))
      (enveloped_formed (accepts_of_checkShape hshape))
  | logical kind left right ihleft ihright =>
    simp only [Filter.hasNegation, Bool.or_eq_true] at flag
    simp only [Filter.comparisons, List.mem_append] at unmarked
    have hleft := fun {w} => @ihleft w (fun h => flag (.inl h)) fun c hc => unmarked c (.inl hc)
    have hright := fun {w} => @ihright w (fun h => flag (.inr h)) fun c hc => unmarked c (.inr hc)
    cases kind with
    | and =>
      obtain ⟨l, hl, ok⟩ := bind_eq_ok_iff.1 ok
      obtain ⟨r, hr, ok⟩ := bind_eq_ok_iff.1 ok
      cases ok
      exact and_formed (hleft hl) (hright hr)
    | or =>
      obtain ⟨l, hl, ok⟩ := bind_eq_ok_iff.1 ok
      obtain ⟨r, hr, ok⟩ := bind_eq_ok_iff.1 ok
      cases ok
      intro members hmem
      exact (List.mem_append.1 hmem).elim (hleft hl members) (hright hr members)
  | not child ih =>
    have hneg : negated = true := flag rfl
    obtain ⟨w, hw, ok⟩ := bind_eq_ok_iff.1 ok
    cases ok
    exact not_formed hneg (ih (fun _ => hneg) unmarked hw)

end Where

end TypeOrm

end FilterLang
