import FilterLang.Proofs.Json.Alike
import FilterLang.Proofs.Outcome
import FilterLang.Proofs.TypeOrm.Draft

/-!
# Trails through a TypeORM filter

A trail goes from a TypeORM filter down to a literal and lists the keys on its way.  A list or an envelope
is passed without a key, so that a condition may be combined with others and its trail stays the same.
Hence the trails of joined documents are those of both (`Plain.mergeObjects`), and the trails of a filter,
without the negations in front, are the paths of its fields (`leads_compile_iff`).

The paths must not begin with the key of a negation, nor with both keys of an envelope: the outermost
object could be taken for one then.  Further down this cannot happen, because an object with an operator
is never joined member by member.
-/

namespace FilterLang.TypeOrm

variable {document other current incoming value : Json} {members left right : Members}
  {items : List Json} {key : String} {steps : List String}

/-! ## Trails -/

/-- The keys on the way from a document down to a literal. -/
inductive Trail : Json → List String → Prop
  | literal {document : Json} (no_object : ∀ members, document ≠ .obj members)
      (no_list : ∀ items, document ≠ .arr items) : Trail document []
  | empty : Trail (.arr []) []
  | item {items : List Json} {document : Json} {steps : List String} (mem : document ∈ items)
      (rest : Trail document steps) : Trail (.arr items) steps
  | envelope {members : Members} {op value : Json} {steps : List String}
      (marked : members.lookup operatorMarker = some op) (under : members.lookup "value" = some value)
      (rest : Trail value steps) : Trail (.obj members) steps
  | member {members : Members} {key : String} {value : Json} {steps : List String}
      (bare : members.lookup operatorMarker = none ∨ members.lookup "value" = none)
      (under : members.lookup key = some value) (rest : Trail value steps) :
      Trail (.obj members) (key :: steps)

/-- Equal documents have the same trails. -/
lemma Trail.alike (h : Trail document steps) (alike : document.Alike other) : Trail other steps := by
  induction h generalizing other with
  | literal no_object no_list =>
    cases alike with
    | refl => exact .literal no_object no_list
    | float => exact .literal (by simp) (by simp)
    | arr => exact absurd rfl (no_list _)
    | obj => exact absurd rfl (no_object _)
  | empty =>
    obtain ⟨ys, rfl, hlength, -⟩ := alike.of_arr
    obtain rfl := List.length_eq_zero_iff.1 hlength.symm
    exact .empty
  | item mem _ ih =>
    obtain ⟨ys, rfl, -, hitems⟩ := alike.of_arr
    obtain ⟨y, hy, hsame⟩ := hitems _ mem
    exact .item hy (ih hsame)
  | envelope marked under _ ih =>
    obtain ⟨ys, rfl, -, hvalues⟩ := alike.of_obj
    obtain ⟨_, hop, -⟩ := hvalues _ _ marked
    obtain ⟨_, hvalue, hsame⟩ := hvalues _ _ under
    exact .envelope hop hvalue (ih hsame)
  | member bare under _ ih =>
    obtain ⟨ys, rfl, hkeys, hvalues⟩ := alike.of_obj
    obtain ⟨_, hvalue, hsame⟩ := hvalues _ _ under
    exact .member (bare.imp (hkeys _) (hkeys _)) hvalue (ih hsame)

lemma trail_literal (no_object : ∀ members, document ≠ .obj members)
    (no_list : ∀ items, document ≠ .arr items) : Trail document steps ↔ steps = [] := by
  constructor
  · intro h
    cases h with
    | literal => rfl
    | empty => exact absurd rfl (no_list _)
    | item => exact absurd rfl (no_list _)
    | envelope => exact absurd rfl (no_object _)
    | member => exact absurd rfl (no_object _)
  · rintro rfl
    exact .literal no_object no_list

lemma trail_arr (h : items ≠ []) : Trail (.arr items) steps ↔ ∃ item ∈ items, Trail item steps := by
  constructor
  · intro htrail
    cases htrail with
    | literal _ no_list => exact absurd rfl (no_list _)
    | empty => exact absurd rfl h
    | item mem rest => exact ⟨_, mem, rest⟩
  · rintro ⟨item, mem, rest⟩
    exact .item mem rest

lemma trail_envelope {op : Json} (marked : members.lookup operatorMarker = some op)
    (under : members.lookup "value" = some value) : Trail (.obj members) steps ↔ Trail value steps := by
  constructor
  · intro htrail
    cases htrail with
    | literal no_object => exact absurd rfl (no_object _)
    | envelope _ hvalue rest =>
      obtain rfl := Option.some.inj (under.symm.trans hvalue)
      exact rest
    | member bare => simp [marked, under] at bare
  · exact .envelope marked under

/-- A trail through one of the members of an object. -/
def Through (members : Members) (steps : List String) : Prop :=
  ∃ key value rest, members.lookup key = some value ∧ steps = key :: rest ∧ Trail value rest

lemma trail_bare (bare : members.lookup operatorMarker = none ∨ members.lookup "value" = none) :
    Trail (.obj members) steps ↔ Through members steps := by
  constructor
  · intro htrail
    cases htrail with
    | literal no_object => exact absurd rfl (no_object _)
    | envelope marked under => simp [marked, under] at bare
    | member _ under rest => exact ⟨_, _, _, under, rfl, rest⟩
  · rintro ⟨key, value, rest, under, rfl, htrail⟩
    exact .member bare under htrail

lemma through_cons (fresh : members.lookup key = none) :
    Through ((key, value) :: members) steps ↔
      (∃ rest, steps = key :: rest ∧ Trail value rest) ∨ Through members steps := by
  constructor
  · rintro ⟨k, v, rest, under, rfl, htrail⟩
    by_cases hk : k = key
    · subst hk
      obtain rfl : value = v := by simpa using under
      exact .inl ⟨rest, rfl, htrail⟩
    · rw [lookup_cons_of_ne hk] at under
      exact .inr ⟨k, v, rest, under, rfl, htrail⟩
  · rintro (⟨rest, rfl, htrail⟩ | ⟨k, v, rest, under, rfl, htrail⟩)
    · exact ⟨key, value, rest, by simp, rfl, htrail⟩
    · have hk : k ≠ key := by
        rintro rfl
        simp [fresh] at under
      exact ⟨k, v, rest, (lookup_cons_of_ne hk).trans under, rfl, htrail⟩

lemma through_single :
    Through [(key, value)] steps ↔ ∃ rest, steps = key :: rest ∧ Trail value rest := by
  have hnil : ¬ Through [] steps := by simp [Through]
  rw [through_cons rfl, or_iff_left hnil]

/-- The trails after a key is set to a value that has the trails of its old value and others. -/
lemma through_set {joined : Json} (h : ∀ rest, Trail joined rest ↔
      (∃ current, members.lookup key = some current ∧ Trail current rest) ∨ Trail value rest) :
    Through (Members.set key joined members) steps ↔
      Through members steps ∨ ∃ rest, steps = key :: rest ∧ Trail value rest := by
  constructor
  · rintro ⟨k, v, rest, under, rfl, htrail⟩
    rw [lookup_set] at under
    split at under
    · rename_i hk
      obtain rfl := Option.some.inj under
      rcases (h rest).1 htrail with ⟨current, hcurrent, hrest⟩ | hrest
      · exact .inl ⟨k, current, rest, hk ▸ hcurrent, rfl, hrest⟩
      · exact .inr ⟨rest, by rw [hk], hrest⟩
    · exact .inl ⟨k, v, rest, under, rfl, htrail⟩
  · rintro (⟨k, v, rest, under, rfl, htrail⟩ | ⟨rest, rfl, htrail⟩)
    · by_cases hk : k = key
      · subst hk
        exact ⟨k, joined, rest, by simp [lookup_set], rfl, (h rest).2 (.inl ⟨v, under, htrail⟩)⟩
      · exact ⟨k, v, rest, by rw [lookup_set, if_neg hk, under], rfl, htrail⟩
    · exact ⟨key, joined, rest, by simp [lookup_set], rfl, (h rest).2 (.inr htrail)⟩

/-! ## Objects that can be joined -/

/-- No key comes twice in an object, and a conjunction has conjuncts. -/
inductive Tended : Json → Prop
  | other {document : Json} (no_object : ∀ members, document ≠ .obj members) : Tended document
  | obj {members : Members} (nodup : (members.map Prod.fst).Nodup)
      (conjuncts : envelopeName? (.obj members) = some "and" → members.lookup "value" ≠ some (.arr []))
      (values : ∀ member ∈ members, Tended member.2) : Tended (.obj members)

/-- An object with certain keys only, and with values that can be joined. -/
structure Plain (Allowed : String → Prop) (members : Members) : Prop where
  nodup : (members.map Prod.fst).Nodup
  keys : ∀ member ∈ members, Allowed member.1
  values : ∀ member ∈ members, Tended member.2

namespace Plain

variable {Allowed : String → Prop}

lemma single (hkey : Allowed key) (hvalue : Tended value) : Plain Allowed [(key, value)] :=
  ⟨by simp, by simpa using hkey, by simpa using hvalue⟩

lemma lookup_eq_none (h : Plain Allowed members) (hkey : ¬ Allowed key) : members.lookup key = none := by
  by_contra hne
  obtain ⟨value, hvalue⟩ := Option.ne_none_iff_exists'.1 hne
  exact hkey (h.keys _ (mem_of_lookup hvalue))

/-- The object is no envelope if one of the keys is not allowed. -/
lemma bare (h : Plain Allowed members) (hallowed : ¬ (Allowed operatorMarker ∧ Allowed "value")) :
    members.lookup operatorMarker = none ∨ members.lookup "value" = none :=
  (not_and_or.1 hallowed).imp h.lookup_eq_none h.lookup_eq_none

lemma tended (h : Plain Allowed members) (hallowed : ¬ (Allowed operatorMarker ∧ Allowed "value")) :
    Tended (.obj members) := by
  refine .obj h.nodup (fun hname => ?_) h.values
  rcases h.bare hallowed with hnone | hnone
  · simp [envelopeName?, Json.get?, hnone] at hname
  · simp [hnone]

/-- A relation has all keys but the one of an operator. -/
lemma of_isRelation (h : Tended (.obj members)) (hrelation : isRelation (.obj members) = true) :
    Plain (· ≠ operatorMarker) members := by
  cases h with
  | other no_object => exact absurd rfl (no_object _)
  | obj nodup _ values =>
    refine ⟨nodup, fun member hmember heq => ?_, values⟩
    have hnone : members.lookup operatorMarker = none := by
      simpa [isRelation, Members.has] using hrelation
    have hne := List.lookup_eq_none_iff.1 hnone member hmember
    simp [heq] at hne

end Plain

/-! ## Joining -/

/-- A document that has been joined from two. -/
structure Joined (left right joined : Json) : Prop where
  tended : Tended joined
  trails : ∀ steps, Trail joined steps ↔ Trail left steps ∨ Trail right steps

lemma tended_arr (items : List Json) : Tended (.arr items) := .other (by simp)

lemma tended_envelope {name : String} (hvalue : Tended value)
    (conjuncts : name = "and" → value ≠ .arr []) : Tended (envelope name value) := by
  refine .obj (by simp [operatorMarker]) (fun hname => ?_) ?_
  · have hname : name = "and" := by simpa [envelopeName?, Json.get?, Json.asStr?] using hname
    exact fun hlookup => conjuncts hname (Option.some.inj hlookup)
  · simpa using ⟨Tended.other (by simp), hvalue⟩

lemma trail_envelope_and : Trail (envelope "and" (.arr items)) steps ↔ Trail (.arr items) steps :=
  trail_envelope rfl rfl

lemma joined_envelope (current incoming : Json) :
    Joined current incoming (envelope "and" (.arr [current, incoming])) := by
  refine ⟨tended_envelope (tended_arr _) (by simp), fun steps => ?_⟩
  rw [trail_envelope_and, trail_arr (by simp)]
  simp

/-- A condition added to another on the same field. -/
lemma combine_joined (hc : Tended current) : Joined current incoming (combine current incoming) := by
  unfold combine
  split
  · rename_i members hname
    split
    · -- the envelope has conjuncts, and the new one goes behind them
      rename_i items hvalue
      cases hc with
      | other no_object => exact absurd rfl (no_object _)
      | obj nodup conjuncts values =>
        have hitems : items ≠ [] := by
          rintro rfl
          exact conjuncts hname hvalue
        obtain ⟨op, hop, -⟩ := Option.bind_eq_some_iff.1 hname
        have hset : ∀ conjuncts, (Members.set "value" conjuncts members).lookup operatorMarker = some op :=
          fun conjuncts => by rw [lookup_set, if_neg (by decide)]; exact hop
        have hnew : ∀ conjuncts, (Members.set "value" conjuncts members).lookup "value" = some conjuncts :=
          fun conjuncts => by rw [lookup_set, if_pos rfl]
        constructor
        · refine .obj (nodup_keys_set nodup _ _) (fun _ => ?_) fun member hmember => ?_
          · simp [hnew]
          · rcases mem_set hmember with rfl | hmember
            · exact tended_arr _
            · exact values member hmember
        · intro steps
          rw [trail_envelope (hset _) (hnew _), trail_envelope hop hvalue, trail_arr (by simp),
            trail_arr hitems]
          simp [or_and_right, exists_or]
    · exact joined_envelope _ _
  · exact joined_envelope _ _

/-- Objects are joined if the values of the right one can be joined to any others. -/
lemma Plain.mergeObjects_of_values {Allowed : String → Prop} (hl : Plain Allowed left)
    (hr : Plain Allowed right)
    (hvalues : ∀ member ∈ right, ∀ key current, Tended current →
      Joined current member.2 (mergeValue key current member.2)) :
    Plain Allowed (mergeObjects left right) ∧
      ∀ steps, Through (mergeObjects left right) steps ↔ Through left steps ∨ Through right steps := by
  induction right generalizing left with
  | nil =>
    rw [mergeObjects]
    refine ⟨hl, fun steps => ?_⟩
    simp [Through]
  | cons member rest ih =>
    obtain ⟨key, value⟩ := member
    obtain ⟨hkey, hnodup⟩ := List.nodup_cons.1 hr.nodup
    have hrest : Plain Allowed rest := ⟨hnodup, fun m hm => hr.keys m (List.mem_cons_of_mem _ hm),
      fun m hm => hr.values m (List.mem_cons_of_mem _ hm)⟩
    have hmerged : Tended (mergedValue left key value) ∧
        ∀ steps, Trail (mergedValue left key value) steps ↔
          (∃ current, left.lookup key = some current ∧ Trail current steps) ∨ Trail value steps := by
      unfold mergedValue
      cases hlookup : left.lookup key with
      | none => exact ⟨hr.values _ List.mem_cons_self, fun steps => by simp⟩
      | some current =>
        have hcurrent : Tended current := hl.values _ (mem_of_lookup hlookup)
        have hjoined := hvalues _ List.mem_cons_self key current hcurrent
        exact ⟨hjoined.tended, fun steps => by simp [hjoined.trails]⟩
    have hset : Plain Allowed (Members.set key (mergedValue left key value) left) := by
      refine ⟨nodup_keys_set hl.nodup _ _, fun m hm => ?_, fun m hm => ?_⟩
      · rcases mem_set hm with rfl | hm
        · exact hr.keys (key, value) List.mem_cons_self
        · exact hl.keys m hm
      · rcases mem_set hm with rfl | hm
        · exact hmerged.1
        · exact hl.values m hm
    obtain ⟨hplain, htrails⟩ := ih hset hrest fun m hm => hvalues m (List.mem_cons_of_mem _ hm)
    rw [mergeObjects_cons]
    refine ⟨hplain, fun steps => ?_⟩
    rw [htrails, through_set hmerged.2, through_cons (lookup_eq_none_of_notMem hkey), or_assoc]

lemma mergeValue_joined (hc : Tended current) (hi : Tended incoming) (key : String) :
    Joined current incoming (mergeValue key current incoming) := by
  -- The values of an incoming relation are joined in the same way, so the induction is on them.
  induction hi generalizing current key with
  | @other incoming no_object =>
    have hrelation : isRelation incoming = false := by
      cases incoming with
      | obj members => exact absurd rfl (no_object members)
      | _ => rfl
    rw [mergeValue_eq_combine (.inr (.inr hrelation))]
    exact combine_joined hc
  | @obj incoming nodup conjuncts values ih =>
    by_cases hrelation : key ≠ notMarker ∧ isRelation current = true ∧ isRelation (.obj incoming) = true
    · obtain ⟨hkey, hcurrent, hincoming⟩ := hrelation
      obtain ⟨members, rfl⟩ : ∃ members, current = .obj members := by
        cases current with
        | obj members => exact ⟨members, rfl⟩
        | _ => simp [isRelation] at hcurrent
      rw [mergeValue_relation hkey hcurrent hincoming]
      have hl := Plain.of_isRelation hc hcurrent
      have hr := Plain.of_isRelation (.obj nodup conjuncts values) hincoming
      obtain ⟨hplain, htrails⟩ := hl.mergeObjects_of_values hr fun member hmember key current hcurrent =>
        ih member hmember hcurrent key
      -- Neither relation has an operator, and so the joined one has none.
      have hallowed : ¬ (operatorMarker ≠ operatorMarker ∧ "value" ≠ operatorMarker) := by simp
      refine ⟨hplain.tended hallowed, fun steps => ?_⟩
      rw [trail_bare (hplain.bare hallowed), trail_bare (hl.bare hallowed),
        trail_bare (hr.bare hallowed), htrails]
    · have hcombine : key = notMarker ∨ isRelation current = false ∨ isRelation (.obj incoming) = false := by
        by_contra hnone
        simp only [not_or, Bool.not_eq_false] at hnone
        exact hrelation hnone
      rw [mergeValue_eq_combine hcombine]
      exact combine_joined hc

/-- The trails of joined objects are those of both. -/
lemma Plain.mergeObjects {Allowed : String → Prop} (hl : Plain Allowed left) (hr : Plain Allowed right) :
    Plain Allowed (mergeObjects left right) ∧
      ∀ steps, Through (mergeObjects left right) steps ↔ Through left steps ∨ Through right steps :=
  hl.mergeObjects_of_values hr fun member hmember key _ hcurrent =>
    mergeValue_joined hcurrent (hr.values member hmember) key

/-! ## Filters -/

section

variable {Allowed : String → Prop} {w wl wr : Where}

/-- Alternatives that can be joined. -/
structure Laid (Allowed : String → Prop) (w : Where) : Prop where
  ne_nil : w.branches ≠ []
  plain : ∀ branch ∈ w.branches, Plain Allowed branch

/-- A trail through one of the alternatives. -/
def Where.Through (w : Where) (steps : List String) : Prop :=
  ∃ branch ∈ w.branches, TypeOrm.Through branch steps

lemma trail_toJson_where (h : Laid Allowed w)
    (hallowed : ¬ (Allowed operatorMarker ∧ Allowed "value")) :
    Trail w.toJson steps ↔ w.Through steps := by
  have hbranch : ∀ branch ∈ w.branches, Trail (.obj branch) steps ↔ Through branch steps :=
    fun branch hmem => trail_bare ((h.plain branch hmem).bare hallowed)
  cases w with
  | all members =>
    rw [Where.toJson, hbranch members List.mem_cons_self]
    simp [Where.Through, Where.branches]
  | any branches =>
    have hne : branches.map Json.obj ≠ [] := by simpa [Where.branches] using h.ne_nil
    rw [Where.toJson, trail_arr hne]
    constructor
    · rintro ⟨_, hitem, htrail⟩
      obtain ⟨branch, hmem, rfl⟩ := List.mem_map.1 hitem
      exact ⟨branch, hmem, (hbranch branch hmem).1 htrail⟩
    · rintro ⟨branch, hmem, htrail⟩
      exact ⟨_, List.mem_map.2 ⟨branch, hmem, rfl⟩, (hbranch branch hmem).2 htrail⟩

lemma tended_toJson_where (h : Laid Allowed w)
    (hallowed : ¬ (Allowed operatorMarker ∧ Allowed "value")) : Tended w.toJson := by
  cases w with
  | all members => exact (h.plain members List.mem_cons_self).tended hallowed
  | any branches => exact tended_arr _

/-- The alternatives of one side, each joined to the same object. -/
lemma map_mergeObjects_laid {branches : List Members} (hl : Laid Allowed (.any branches))
    (hr : Plain Allowed members) :
    Laid Allowed (.any (branches.map (mergeObjects · members))) ∧ ∀ steps,
      (Where.any (branches.map (mergeObjects · members))).Through steps ↔
        (Where.any branches).Through steps ∨ Through members steps := by
  have hmerged := fun branch hmem => (hl.plain branch hmem).mergeObjects hr
  refine ⟨⟨by simpa [Where.branches] using hl.ne_nil, fun branch hmem => ?_⟩, fun steps => ?_⟩
  · obtain ⟨original, horiginal, rfl⟩ := List.mem_map.1 hmem
    exact (hmerged original horiginal).1
  constructor
  · rintro ⟨branch, hmem, htrail⟩
    obtain ⟨original, horiginal, rfl⟩ := List.mem_map.1 hmem
    exact (((hmerged original horiginal).2 steps).1 htrail).imp_left fun h => ⟨original, horiginal, h⟩
  · rintro (⟨branch, hmem, htrail⟩ | htrail)
    · exact ⟨_, List.mem_map.2 ⟨branch, hmem, rfl⟩, ((hmerged branch hmem).2 steps).2 (.inl htrail)⟩
    · -- the object is joined to every alternative, and there is one
      obtain ⟨branch, hmem⟩ := List.exists_mem_of_ne_nil _ hl.ne_nil
      exact ⟨_, List.mem_map.2 ⟨branch, hmem, rfl⟩, ((hmerged branch hmem).2 steps).2 (.inr htrail)⟩

lemma append_laid {lefts rights : List Members} (hl : Laid Allowed (.any lefts))
    (hr : Laid Allowed (.any rights)) :
    Laid Allowed (.any (lefts ++ rights)) ∧ ∀ steps,
      (Where.any (lefts ++ rights)).Through steps ↔
        (Where.any lefts).Through steps ∨ (Where.any rights).Through steps := by
  refine ⟨⟨List.append_ne_nil_of_left_ne_nil hl.ne_nil _, fun branch hmem => ?_⟩, fun steps => ?_⟩
  · exact (List.mem_append.1 hmem).elim (hl.plain branch) (hr.plain branch)
  · simp only [Where.Through, Where.branches, List.mem_append, or_and_right, exists_or]

lemma and_laid (hl : Laid Allowed wl) (hr : Laid Allowed wr) :
    Laid Allowed (wl.and wr) ∧
      ∀ steps, (wl.and wr).Through steps ↔ wl.Through steps ∨ wr.Through steps := by
  have hall : ∀ {members} steps, (Where.all members).Through steps ↔ Through members steps := by
    simp [Where.Through, Where.branches]
  cases wl with
  | all l =>
    have hleft := hl.plain l List.mem_cons_self
    cases wr with
    | all r =>
      obtain ⟨hplain, htrails⟩ := hleft.mergeObjects (hr.plain r List.mem_cons_self)
      refine ⟨⟨by simp [Where.and, Where.branches], ?_⟩, fun steps => ?_⟩
      · simpa [Where.and, Where.branches] using hplain
      · rw [Where.and, hall, hall, hall, htrails]
    | any r =>
      obtain ⟨hlaid, htrails⟩ := map_mergeObjects_laid hr hleft
      refine ⟨hlaid, fun steps => ?_⟩
      rw [Where.and, htrails, hall, or_comm]
  | any l =>
    cases wr with
    | all r =>
      obtain ⟨hlaid, htrails⟩ := map_mergeObjects_laid hl (hr.plain r List.mem_cons_self)
      refine ⟨hlaid, fun steps => ?_⟩
      rw [Where.and, htrails, hall]
    | any r => exact append_laid hl hr

lemma not_laid (h : Laid Allowed w) (hallowed : ¬ (Allowed operatorMarker ∧ Allowed "value"))
    (hnot : Allowed notMarker) :
    Laid Allowed w.not ∧
      ∀ steps, w.not.Through steps ↔ ∃ rest, steps = notMarker :: rest ∧ w.Through rest := by
  refine ⟨⟨by simp [Where.not, Where.branches], ?_⟩, fun steps => ?_⟩
  · simpa [Where.not, Where.branches] using Plain.single hnot (tended_toJson_where h hallowed)
  · simp [Where.not, Where.Through, Where.branches, through_single, trail_toJson_where h hallowed]

end

/-! ## Comparisons -/

lemma trail_toJson (value : Value) : Trail value.toJson steps ↔ steps = [] := by
  have hscalar : ∀ literal : Scalar, Trail literal.toJson steps ↔ steps = [] := fun literal =>
    trail_literal (toJson_ne_obj (.scalar literal)) (scalarToJson_ne_arr literal)
  cases value with
  | scalar literal => exact hscalar literal
  | list literals =>
    cases literals with
    | nil =>
      constructor
      · intro h
        cases h with
        | literal | empty => rfl
        | item mem => simp at mem
      · rintro rfl
        exact .empty
    | cons literal rest =>
      rw [Value.toJson, trail_arr (by simp)]
      simp [hscalar]
  | range lower upper =>
    rw [Value.toJson, trail_arr (by simp)]
    simp [hscalar]

lemma enveloped_trail (op : Operator) (value : Value) :
    Tended (enveloped op value) ∧ ∀ steps, Trail (enveloped op value) steps ↔ steps = [] := by
  have hvalue : Tended value.toJson := .other (toJson_ne_obj value)
  by_cases hop : op = .eq
  · subst hop
    exact ⟨hvalue, fun _ => trail_toJson value⟩
  · rw [enveloped_of_ne hop]
    refine ⟨tended_envelope hvalue fun h => absurd h (operatorName_ne op).1, fun steps => ?_⟩
    exact (trail_envelope rfl rfl).trans (trail_toJson value)

/-- A document at the end of a path. -/
lemma nest_trail (h : Tended document) (path : List String) :
    Tended (nest path document) ∧
      ∀ steps, Trail (nest path document) steps ↔ ∃ rest, steps = path ++ rest ∧ Trail document rest := by
  induction path with
  | nil => exact ⟨h, fun steps => by simp [nest]⟩
  | cons key path ih =>
    have hplain : Plain (· = key) [(key, nest path document)] := .single rfl ih.1
    have hallowed : ¬ (operatorMarker = key ∧ "value" = key) := by
      rintro ⟨rfl, h⟩
      exact absurd h (by decide)
    rw [nest_cons, Json.single]
    refine ⟨hplain.tended hallowed, fun steps => ?_⟩
    rw [trail_bare (hplain.bare hallowed), through_single]
    simp [ih.2]

lemma nestPath_laid {Allowed : String → Prop} {field : String}
    (hhead : ∀ head ∈ (fieldPath field).head?, Allowed head) (op : Operator) (value : Value) :
    Laid Allowed (.all (nestPath field (enveloped op value))) ∧
      ∀ steps, (Where.all (nestPath field (enveloped op value))).Through steps ↔
        steps = fieldPath field := by
  obtain ⟨key, rest, hpath⟩ := List.exists_cons_of_ne_nil (fieldPath_ne_nil field)
  have hkey : Allowed key := hhead key (by simp [hpath])
  obtain ⟨htended, htrails⟩ := enveloped_trail op value
  obtain ⟨hnest, hnested⟩ := nest_trail htended rest
  rw [nestPath, hpath]
  refine ⟨⟨by simp [Where.branches], ?_⟩, fun steps => ?_⟩
  · simpa [Where.branches] using Plain.single hkey hnest
  · simp [Where.Through, Where.branches, through_single, hnested, htrails]

/-! ## The paths of a filter -/

/-- A path that the document leads along behind its negations. -/
def Leads (document : Json) (path : List String) : Prop :=
  ∃ trail, Trail document trail ∧ trail.dropWhile (· = notMarker) = path

lemma Leads.alike {path : List String} (h : Leads document path) (alike : document.Alike other) :
    Leads other path := by
  obtain ⟨trail, htrail, hsteps⟩ := h
  exact ⟨trail, htrail.alike alike, hsteps⟩

section

variable {IsHead : String → Prop} {t : Filter}

lemma not_envelope_keys (h : ¬ (IsHead operatorMarker ∧ IsHead "value")) :
    ¬ ((IsHead operatorMarker ∨ operatorMarker = notMarker) ∧
      (IsHead "value" ∨ "value" = notMarker)) := by
  have hne : operatorMarker ≠ notMarker ∧ "value" ≠ notMarker := by decide
  simpa [hne.1, hne.2] using h

lemma ofFilter_trails {w : Where}
    (named : ∀ c ∈ t.comparisons, ∀ head ∈ (fieldPath c.1).head?, IsHead head)
    (hnot : ¬ IsHead notMarker) (henvelope : ¬ (IsHead operatorMarker ∧ IsHead "value"))
    (ok : Where.ofFilter t = .ok w) :
    Laid (fun key => IsHead key ∨ key = notMarker) w ∧ ∀ steps,
      (∃ trail, w.Through trail ∧ trail.dropWhile (· = notMarker) = steps) ↔
        ∃ c ∈ t.comparisons, steps = fieldPath c.1 := by
  induction t generalizing w with
  | comparison field op value =>
    obtain ⟨_, -, ok⟩ := bind_eq_ok_iff.1 ok
    cases ok
    have hhead := named (field, op, value) (by simp [Filter.comparisons])
    have hallowed : ∀ head ∈ (fieldPath field).head?, IsHead head ∨ head = notMarker :=
      fun head hmem => .inl (hhead head hmem)
    obtain ⟨hlaid, htrails⟩ := nestPath_laid hallowed op value
    have hpath : (fieldPath field).dropWhile (· = notMarker) = fieldPath field := by
      obtain ⟨key, rest, hpath⟩ := List.exists_cons_of_ne_nil (fieldPath_ne_nil field)
      have hkey : key ≠ notMarker := by
        rintro rfl
        exact hnot (hhead notMarker (by simp [hpath]))
      rw [hpath, List.dropWhile_cons_of_neg (by simpa using hkey)]
    refine ⟨hlaid, fun steps => ?_⟩
    simp [htrails, hpath, Filter.comparisons, eq_comm]
  | logical kind left right ihleft ihright =>
    have hl := fun {wl} => ihleft (w := wl) fun c hc => named c (by simp [Filter.comparisons, hc])
    have hr := fun {wr} => ihright (w := wr) fun c hc => named c (by simp [Filter.comparisons, hc])
    have hjoin : ∀ {wl wr : Where}, Where.ofFilter left = .ok wl → Where.ofFilter right = .ok wr →
        (∀ steps, w.Through steps ↔ wl.Through steps ∨ wr.Through steps) → ∀ steps,
          (∃ trail, w.Through trail ∧ trail.dropWhile (· = notMarker) = steps) ↔
            ∃ c ∈ (Filter.logical kind left right).comparisons, steps = fieldPath c.1 := by
      intro wl wr hwl hwr htrails steps
      simp only [htrails, Filter.comparisons, List.mem_append, or_and_right, exists_or,
        (hl hwl).2 steps, (hr hwr).2 steps]
    cases kind with
    | and =>
      obtain ⟨wl, hwl, ok⟩ := bind_eq_ok_iff.1 ok
      obtain ⟨wr, hwr, ok⟩ := bind_eq_ok_iff.1 ok
      cases ok
      obtain ⟨hlaid, htrails⟩ := and_laid (hl hwl).1 (hr hwr).1
      exact ⟨hlaid, hjoin hwl hwr htrails⟩
    | or =>
      obtain ⟨wl, hwl, ok⟩ := bind_eq_ok_iff.1 ok
      obtain ⟨wr, hwr, ok⟩ := bind_eq_ok_iff.1 ok
      cases ok
      obtain ⟨hlaid, htrails⟩ := append_laid ⟨(hl hwl).1.ne_nil, (hl hwl).1.plain⟩ ⟨(hr hwr).1.ne_nil, (hr hwr).1.plain⟩
      exact ⟨hlaid, hjoin hwl hwr htrails⟩
  | not child ih =>
    obtain ⟨inner, hinner, ok⟩ := bind_eq_ok_iff.1 ok
    cases ok
    obtain ⟨hlaid, htrails⟩ := ih named hinner
    obtain ⟨hlaid, hthrough⟩ := not_laid hlaid (not_envelope_keys henvelope) (.inr rfl)
    refine ⟨hlaid, fun steps => ?_⟩
    rw [Filter.comparisons, ← htrails steps]
    constructor
    · rintro ⟨_, htrail, rfl⟩
      obtain ⟨rest, rfl, hrest⟩ := (hthrough _).1 htrail
      exact ⟨rest, hrest, by simp⟩
    · rintro ⟨rest, hrest, rfl⟩
      exact ⟨notMarker :: rest, (hthrough _).2 ⟨rest, rfl, hrest⟩, by simp⟩

/-- The trails of a filter, without the negations in front, are the paths of its fields. -/
theorem leads_compile_iff {d : Json} {path : List String}
    (named : ∀ c ∈ t.comparisons, ∀ head ∈ (fieldPath c.1).head?, IsHead head)
    (hnot : ¬ IsHead notMarker) (henvelope : ¬ (IsHead operatorMarker ∧ IsHead "value"))
    (ok : compile t = .ok d) : Leads d path ↔ ∃ c ∈ t.comparisons, path = fieldPath c.1 := by
  obtain ⟨w, hw, ok⟩ := bind_eq_ok_iff.1 ok
  cases ok
  obtain ⟨hlaid, htrails⟩ := ofFilter_trails named hnot henvelope hw
  simp only [Leads, trail_toJson_where hlaid (not_envelope_keys henvelope), htrails]

end

end FilterLang.TypeOrm
