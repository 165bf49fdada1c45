import FilterLang.Proofs.Json.Distinct
import FilterLang.Proofs.TypeOrm.Opening

/-!
# Opening a filter comes to an end

A document may come from anywhere, so nothing is known of it but that no key comes twice in an object.  Its
negations are moved in rounds, and the relations that are left are opened in the same way, each with rounds of
its own.  The rounds come to an end because each uses up a negation (`exists_rounds`).

The relations need another measure.  They are not parts of the document that came in: they have been joined
from several parts, and new envelopes stand around their conditions.  So envelopes and lists do not count,
and only relations inside relations do (`Nests`).  Neither joining nor moving negations adds to that number,
and going down into a relation takes one away.
-/

namespace FilterLang.TypeOrm

/-! ## How deep relations nest -/

/-- No key comes twice, and at most a number of relations stand inside each other.  Envelopes and lists do
not count. -/
inductive Nests : Nat → Json → Prop
  | literal {n : Nat} {document : Json} (no_object : ∀ members, document ≠ .obj members)
      (no_list : ∀ items, document ≠ .arr items) : Nests n document
  | arr {n : Nat} {items : List Json} (values : ∀ item ∈ items, Nests n item) : Nests n (.arr items)
  | envelope {n : Nat} {members : Members} (marked : isRelation (.obj members) = false)
      (nodup : (members.map Prod.fst).Nodup) (values : ∀ member ∈ members, Nests n member.2) :
      Nests n (.obj members)
  | relation {n : Nat} {members : Members} (nodup : (members.map Prod.fst).Nodup)
      (values : ∀ member ∈ members, Nests n member.2) : Nests (n + 1) (.obj members)

/-- The members of an object whose relations nest at most this deep. -/
structure NestsAmong (n : Nat) (members : Members) : Prop where
  nodup : (members.map Prod.fst).Nodup
  values : ∀ member ∈ members, Nests n member.2

variable {n : Nat} {members : Members}

lemma Nests.mono {k : Nat} {document : Json} (h : Nests n document) (hk : n ≤ k) : Nests k document := by
  induction h generalizing k with
  | literal no_object no_list => exact .literal no_object no_list
  | arr _ ih => exact .arr fun item hitem => ih item hitem hk
  | envelope marked nodup _ ih => exact .envelope marked nodup fun member hmember => ih member hmember hk
  | relation nodup _ ih =>
    obtain ⟨k, rfl⟩ : ∃ j, k = j + 1 := ⟨k - 1, by omega⟩
    exact .relation nodup fun member hmember => ih member hmember (by omega)

lemma Nests.among (h : Nests n (.obj members)) : NestsAmong n members := by
  cases h with
  | literal no_object => exact absurd rfl (no_object _)
  | envelope _ nodup values => exact ⟨nodup, values⟩
  | relation nodup values => exact ⟨nodup, fun member hmember => (values member hmember).mono (by omega)⟩

/-- Inside a relation there is one relation less. -/
lemma Nests.inside {document : Json} (h : Nests n document) (hrelation : isRelation document = true) :
    ∃ k, n = k + 1 ∧ ∀ members, document = .obj members → NestsAmong k members := by
  cases h with
  | literal no_object =>
    unfold isRelation at hrelation
    split at hrelation
    · exact absurd rfl (no_object _)
    · cases hrelation
  | arr => cases hrelation
  | envelope marked => simp [marked] at hrelation
  | @relation k members nodup values =>
    refine ⟨k, rfl, fun others heq => ?_⟩
    obtain rfl := Json.obj.inj heq
    exact ⟨nodup, values⟩

lemma NestsAmong.single {key : String} {value : Json} (h : Nests n value) :
    NestsAmong n [(key, value)] :=
  ⟨by simp, by simpa using h⟩

/-! ### Documents from outside -/

lemma height_le_heightIn {items : List Json} {item : Json} (h : item ∈ items) :
    height item ≤ heightIn items := by
  induction items with
  | nil => cases h
  | cons first rest ih =>
    rw [heightIn]
    rcases List.mem_cons.1 h with rfl | h
    · omega
    · have := ih h
      omega

lemma height_le_heightAmong {member : String × Json} (h : member ∈ members) :
    height member.2 ≤ heightAmong members := by
  induction members with
  | nil => cases h
  | cons first rest ih =>
    rw [heightAmong]
    rcases List.mem_cons.1 h with rfl | h
    · omega
    · have := ih h
      omega

/-- Relations do not nest deeper than arrays and objects do. -/
lemma nests_height {document : Json} (h : document.Distinct) : Nests (height document) document := by
  induction h with
  | literal no_object no_list => exact .literal no_object no_list
  | @arr items _ ih =>
    refine .arr fun item hitem => (ih item hitem).mono ?_
    have := height_le_heightIn hitem
    rw [height]
    omega
  | obj nodup _ ih =>
    rw [height]
    exact .relation nodup fun member hmember => (ih member hmember).mono (height_le_heightAmong hmember)

lemma nestsAmong_heightAmong (h : (Json.obj members).Distinct) :
    NestsAmong (heightAmong members) members := by
  cases h with
  | literal no_object => exact absurd rfl (no_object _)
  | obj nodup values =>
    refine ⟨nodup, fun member hmember => ?_⟩
    exact (nests_height (values member hmember)).mono (height_le_heightAmong hmember)

lemma Nests.distinct {document : Json} (h : Nests n document) : document.Distinct := by
  induction h with
  | literal no_object no_list => exact .literal no_object no_list
  | arr _ ih => exact .arr ih
  | envelope _ nodup _ ih => exact .obj nodup ih
  | relation nodup _ ih => exact .obj nodup ih

lemma NestsAmong.distinct (h : NestsAmong n members) : (Json.obj members).Distinct :=
  .obj h.nodup fun member hmember => (h.values member hmember).distinct

/-! ### Joining -/

lemma nests_envelope {name : String} {value : Json} (h : Nests n value) : Nests n (envelope name value) := by
  refine .envelope rfl (by simp [operatorMarker]) ?_
  intro member hmember
  simp only [List.mem_cons, List.not_mem_nil, or_false] at hmember
  rcases hmember with rfl | rfl
  · exact .literal (by simp) (by simp)
  · exact h

lemma Nests.combine {current incoming : Json} (hc : Nests n current) (hi : Nests n incoming) :
    Nests n (combine current incoming) := by
  have hpair : Nests n (FilterLang.envelope "and" (.arr [current, incoming])) :=
    nests_envelope (.arr (by simpa using ⟨hc, hi⟩))
  unfold TypeOrm.combine
  split
  · rename_i members hname
    split
    · -- the new condition goes to the end of the list, and the envelope stays one
      rename_i items hvalue
      obtain ⟨nodup, values⟩ := hc.among
      obtain ⟨op, hop, -⟩ := Option.bind_eq_some_iff.1 hname
      refine .envelope ?_ (nodup_keys_set nodup _ _) fun member hmember => ?_
      · have hlookup : members.lookup operatorMarker = some op := hop
        have hne : operatorMarker ≠ "value" := by decide
        simp only [FilterLang.isRelation, Members.has, lookup_set, if_neg hne, hlookup]
        rfl
      · rcases mem_set hmember with rfl | hmember
        · refine .arr fun item hitem => ?_
          have hitems := values _ (mem_of_lookup hvalue)
          cases hitems with
          | literal _ no_list => exact absurd rfl (no_list _)
          | arr hitems =>
            rcases List.mem_append.1 hitem with hitem | hitem
            · exact hitems item hitem
            · rw [List.mem_singleton.1 hitem]
              exact hi
        · exact values member hmember
    · exact hpair
  · exact hpair

/-- Two objects joined, if the values that meet can be. -/
lemma NestsAmong.mergeObjects_of_values {left right : Members} (hl : NestsAmong n left)
    (hr : ∀ member ∈ right, Nests n member.2)
    (hmerge : ∀ member ∈ right, ∀ current, Nests n current →
      Nests n (mergeValue member.1 current member.2)) : NestsAmong n (mergeObjects left right) := by
  refine mergeObjects_induction hl fun members hmembers member hmember => ?_
  refine ⟨nodup_keys_set hmembers.nodup _ _, fun other hother => ?_⟩
  rcases mem_set hother with rfl | hother
  · rw [mergedValue]
    split
    · exact hr member hmember
    · rename_i current hcurrent
      exact hmerge member hmember current (hmembers.values _ (mem_of_lookup hcurrent))
  · exact hmembers.values other hother

lemma Nests.mergeValue {current incoming : Json} (hi : Nests n incoming) (hc : Nests n current)
    (key : String) : Nests n (mergeValue key current incoming) := by
  -- The induction is on what comes in, as the joining of objects is.
  induction hi generalizing current key with
  | literal no_object no_list =>
    rw [mergeValue_eq_combine (.inr (.inr ?_))]
    · exact hc.combine (.literal no_object no_list)
    · unfold FilterLang.isRelation
      split
      · exact absurd rfl (no_object _)
      · rfl
  | arr values =>
    rw [mergeValue_eq_combine (.inr (.inr rfl))]
    exact hc.combine (.arr values)
  | envelope marked nodup values =>
    rw [mergeValue_eq_combine (.inr (.inr marked))]
    exact hc.combine (.envelope marked nodup values)
  | @relation n incoming nodup values ih =>
    by_cases hjoin : key ≠ notMarker ∧ isRelation current = true ∧ isRelation (.obj incoming) = true
    · obtain ⟨hkey, hcurrent, hincoming⟩ := hjoin
      cases current with
      | obj left =>
        obtain ⟨k, hk, hleft⟩ := hc.inside hcurrent
        obtain rfl : n = k := by omega
        rw [mergeValue_relation hkey hcurrent hincoming]
        obtain ⟨hnodup, hvalues⟩ := (hleft left rfl).mergeObjects_of_values values
          fun member hmember current hcurrent => ih member hmember hcurrent member.1
        exact .relation hnodup hvalues
      | _ => cases hcurrent
    · rw [mergeValue_eq_combine]
      · exact hc.combine (.relation nodup values)
      · simpa only [not_and_or, not_not, Bool.not_eq_true] using hjoin

/-- Joining two objects does not make relations nest deeper. -/
lemma NestsAmong.mergeObjects {left right : Members} (hl : NestsAmong n left)
    (hr : NestsAmong n right) : NestsAmong n (mergeObjects left right) :=
  hl.mergeObjects_of_values hr.values fun member hmember _ hcurrent =>
    (hr.values member hmember).mergeValue hcurrent member.1

/-! ### Moving negations -/

mutual

/-- The relations of the opposite of an object nest no deeper than those of the object. -/
lemma NestsAmong.negate {n : Nat} (payload : Json) {out : Members}
    (h : ∀ members, payload = .obj members → NestsAmong n members)
    (ok : negate payload = .ok out) : NestsAmong n out := by
  match payload with
  | .obj inner =>
    have hinner := h inner rfl
    rw [negate.eq_def] at ok
    simp only at ok
    by_cases hand : envelopeName? (.obj inner) = some "and"
    · rw [if_pos hand] at ok
      exact NestsAmong.negateListed _ inner hinner.values ok
    rw [if_neg hand] at ok
    match inner with
    | [] =>
      cases ok
      exact hinner
    | [(key, value)] =>
      have hvalue : Nests n value := hinner.values _ List.mem_cons_self
      simp only at ok
      split at ok
      · rw [cancel_eq_ok ok] at hvalue
        exact hvalue.among
      · split at ok
        · rename_i hrelation
          obtain ⟨opposite, hopposite, ok⟩ := bind_eq_ok_iff.1 ok
          cases ok
          obtain ⟨k, rfl, hinside⟩ := hvalue.inside hrelation
          have hnegated := NestsAmong.negate value hinside hopposite
          exact .single (.relation hnegated.nodup hnegated.values)
        · cases ok
          exact .single (nests_envelope hvalue)
    | _ :: _ :: _ => cases ok
  | .null | .bool _ | .int _ | .float _ | .str _ | .arr _ =>
    rw [negate.eq_def] at ok
    cases ok
termination_by structural payload

lemma NestsAmong.negateListed {n : Nat} (payload : Json) (listed : Members) {out : Members}
    (h : ∀ member ∈ listed, Nests n member.2) (ok : negateListed payload listed = .ok out) :
    NestsAmong n out := by
  match listed with
  | [] =>
    rw [TypeOrm.negateListed] at ok
    cases ok
  | (key, value) :: rest =>
    rw [List.forall_mem_cons] at h
    rw [negateListed.eq_def] at ok
    simp only at ok
    by_cases hkey : key = "value"
    · rw [if_pos hkey] at ok
      match value with
      | .arr items =>
        have hitems : ∀ item ∈ items, Nests n item := by
          cases h.1 with
          | literal _ no_list => exact absurd rfl (no_list _)
          | arr values => exact values
        exact NestsAmong.negateAll items hitems ⟨by simp, by simp⟩ ok
      | .null | .bool _ | .int _ | .float _ | .str _ | .obj _ => cases ok
    · rw [if_neg hkey] at ok
      exact NestsAmong.negateListed payload rest h.2 ok
termination_by structural listed

lemma NestsAmong.negateAll {n : Nat} (items : List Json) {joined out : Members}
    (h : ∀ item ∈ items, Nests n item) (hjoined : NestsAmong n joined)
    (ok : negateAll joined items = .ok out) : NestsAmong n out := by
  match items with
  | [] =>
    rw [TypeOrm.negateAll] at ok
    cases ok
    exact hjoined
  | item :: rest =>
    rw [List.forall_mem_cons] at h
    rw [TypeOrm.negateAll] at ok
    obtain ⟨opposite, hopposite, ok⟩ := bind_eq_ok_iff.1 ok
    have hitem := NestsAmong.negate item (fun _ heq => (heq ▸ h.1).among) hopposite
    exact NestsAmong.negateAll rest h.2 (hjoined.mergeObjects hitem) ok
termination_by structural items

end

/-- No round makes relations nest deeper. -/
lemma Rounds.nests {rounds : Nat} {lowered : Members} (h : Rounds members rounds (.ok lowered))
    (hmembers : NestsAmong n members) : NestsAmong n lowered := by
  refine h.keeps (fun {members opposite payload} hmembers found apart => ?_) hmembers
  have hperm := swapErase_perm hmembers.nodup found
  have hrest : NestsAmong n (Members.swapErase notMarker members) := by
    refine ⟨nodup_keys_swapErase hmembers.nodup found, fun member hmember => ?_⟩
    exact hmembers.values member (hperm.subset (List.mem_cons_of_mem _ hmember))
  refine hrest.mergeObjects (NestsAmong.negate payload (fun inner heq => ?_) apart)
  exact (heq ▸ hmembers.values _ (mem_of_lookup found)).among

/-! ## Going down into relations -/

/-- When the outer object is opened, the inner one is opened in turn: it is a relation in what the rounds
leave of the outer one. -/
def Nested (inner outer : Members) : Prop :=
  ∃ rounds lowered key, Rounds outer rounds (.ok lowered) ∧ (key, .obj inner) ∈ lowered ∧
    isRelation (.obj inner) = true

lemma Nested.nests {inner outer : Members} (h : Nested inner outer) (houter : NestsAmong n outer) :
    ∃ k, n = k + 1 ∧ NestsAmong k inner := by
  obtain ⟨rounds, lowered, key, hrounds, hmem, hrelation⟩ := h
  obtain ⟨k, hk, hinside⟩ := ((hrounds.nests houter).values _ hmem).inside hrelation
  exact ⟨k, hk, hinside inner rfl⟩

/-- There is no way down into relations without end. -/
lemma NestsAmong.acc (h : NestsAmong n members) : Acc Nested members := by
  induction n generalizing members with
  | zero =>
    refine .intro members fun inner hinner => ?_
    obtain ⟨k, hk, -⟩ := hinner.nests h
    omega
  | succ n ih =>
    refine .intro members fun inner hinner => ?_
    obtain ⟨k, hk, hnests⟩ := hinner.nests h
    obtain rfl : n = k := by omega
    exact ih hnests

/-! ## Opening without a bound on the levels -/

section

variable (table : FunctionTable)

/-- An object with its envelopes opened, with as many levels as it may need. -/
def resolveMembers (members : Members) : Except EnvelopeError Members :=
  resolveObject table (height (.obj members)) members

/-- Only the relations among the members are opened in turn. -/
lemma openMembers_congr {f g : Members → Except EnvelopeError Members}
    (h : ∀ key inner, (key, .obj inner) ∈ members → isRelation (.obj inner) = true → f inner = g inner) :
    openMembers table f members = openMembers table g members := by
  induction members with
  | nil => rfl
  | cons member rest ih =>
    obtain ⟨key, value⟩ := member
    have hrest := ih fun key inner hmem => h key inner (List.mem_cons_of_mem _ hmem)
    by_cases hrelation : isRelation value = true
    · cases value with
      | obj inner =>
        rw [openMembers_cons_relation hrelation, openMembers_cons_relation hrelation, hrest,
          h key inner List.mem_cons_self hrelation]
      | _ => cases hrelation
    · have hcondition : isRelation value = false := by simpa using hrelation
      rw [openMembers_cons_condition hcondition, openMembers_cons_condition hcondition, hrest]

/-- The relations that an object has after its rounds, opened in two ways that agree on them. -/
lemma lower_bind_congr {f g : Members → Except EnvelopeError Members}
    (nodup : (members.map Prod.fst).Nodup) (h : ∀ inner, Nested inner members → f inner = g inner) :
    (lower members >>= openMembers table f) = (lower members >>= openMembers table g) := by
  obtain ⟨rounds, -, hrounds⟩ := exists_rounds nodup
  cases hlower : lower members with
  | error e => rfl
  | ok lowered =>
    rw [hlower] at hrounds
    exact openMembers_congr table fun key inner hmem hrelation =>
      h inner ⟨rounds, lowered, key, hrounds, hmem, hrelation⟩

/-- Levels beyond the depth of the relations make no difference. -/
lemma NestsAmong.resolveObject_eq {levels : Nat} (h : NestsAmong n members) (hlevels : n ≤ levels) :
    resolveObject table levels members = resolveObject table n members := by
  induction n generalizing members levels with
  | zero =>
    have hnone : ∀ inner, ¬ Nested inner members := by
      intro inner hinner
      obtain ⟨k, hk, -⟩ := hinner.nests h
      omega
    cases levels with
    | zero => rfl
    | succ levels => exact lower_bind_congr table h.nodup fun inner hinner => absurd hinner (hnone inner)
  | succ n ih =>
    obtain ⟨levels, rfl⟩ : ∃ j, levels = j + 1 := ⟨levels - 1, by omega⟩
    refine lower_bind_congr table h.nodup fun inner hinner => ?_
    obtain ⟨k, hk, hnests⟩ := hinner.nests h
    obtain rfl : n = k := by omega
    exact ih hnests (by omega)

/-- Opening an object is lowering it and opening what is left, its relations in the same way.  No bound is
left in this equation. -/
lemma resolveMembers_eq (h : (Json.obj members).Distinct) :
    resolveMembers table members = lower members >>= openMembers table (resolveMembers table) := by
  have hmembers := nestsAmong_heightAmong h
  rw [resolveMembers, height]
  refine lower_bind_congr table hmembers.nodup fun inner hinner => ?_
  obtain ⟨k, hk, hnests⟩ := hinner.nests hmembers
  -- the depth of the inner object is at most its own height, and less than that of the outer one
  have hdeep := nestsAmong_heightAmong hnests.distinct
  rw [resolveMembers, height]
  have houter : k ≤ heightAmong members := by omega
  rcases le_total k (heightAmong inner) with hle | hle
  · have hinner : k ≤ heightAmong inner + 1 := by omega
    rw [hnests.resolveObject_eq table houter, hnests.resolveObject_eq table hinner]
  · have hless : heightAmong inner ≤ heightAmong members := by omega
    rw [hdeep.resolveObject_eq table hless, hdeep.resolveObject_eq table (Nat.le_succ _)]

end

/-- Opening comes to an end on every document.  In a document from outside no key comes twice.  For every
object in which none does, the rounds end: there is one way for them to go, it takes at most as many rounds
as there are negations anywhere inside, it ends as `lower` says, and no negation is left unless it ends with
an error.  The relations of what is left can be opened in turn, and those of what is left of them, but not
forever; in them, too, no key comes twice.  What comes out, with every table of functions, is what this
recursion gives, in which nothing bounds the rounds or the levels. -/
theorem resolve_terminates :
    (∀ text filter, Json.ofText? text = some filter → filter.Distinct) ∧
      ∀ members : Members, (Json.obj members).Distinct →
        (∃ rounds ≤ negationsAmong members,
          ∀ n result, Rounds members n result ↔ n = rounds ∧ result = lower members) ∧
        (∀ lowered, lower members = .ok lowered → lowered.lookup notMarker = none) ∧
        Acc Nested members ∧
        (∀ inner, Nested inner members → (Json.obj inner).Distinct) ∧
        ∀ table, resolveMembers table members =
          lower members >>= openMembers table (resolveMembers table) := by
  refine ⟨fun text filter h => Json.distinct_of_ofText? h, fun members h => ?_⟩
  have hnests := nestsAmong_heightAmong h
  obtain ⟨rounds, hle, hrounds⟩ := exists_rounds hnests.nodup
  refine ⟨⟨rounds, hle, fun n result => ⟨fun hother => hother.unique hrounds, ?_⟩⟩, ?_, hnests.acc, ?_,
    fun table => resolveMembers_eq table h⟩
  · rintro ⟨rfl, rfl⟩
    exact hrounds
  · intro lowered hlower
    rw [hlower] at hrounds
    exact hrounds.lookup_eq_none
  · intro inner hinner
    obtain ⟨k, -, hinside⟩ := hinner.nests hnests
    exact hinside.distinct

/-- A filter that was not compiled: two negations around an object with a third one, next to a relation. -/
def broughtOut : Members :=
  [(notMarker, .obj [(notMarker, .obj [(notMarker, .obj [("a", .int 1)]), ("b", .obj [("c", .null)])])]),
    ("b", .obj [("d", .int 2)])]

/-- Its first round brings out a negation, which takes another round, and joins its relations. -/
theorem resolve_terminates_broughtOut :
    (Json.obj broughtOut).Distinct ∧ negationsAmong broughtOut = 3 ∧
      (∃ rounds ≤ 3, ∀ n result, Rounds broughtOut n result ↔ n = rounds ∧ result =
        .ok [("b", .obj [("d", .int 2), ("c", .null)]), ("a", envelope "not" (.int 1))]) ∧
      Acc Nested broughtOut := by
  have hdistinct : (Json.obj broughtOut).Distinct := Json.distinct_merged (.obj broughtOut)
  obtain ⟨hrounds, -, hacc, -⟩ := resolve_terminates.2 broughtOut hdistinct
  exact ⟨hdistinct, rfl, hrounds, hacc⟩

end FilterLang.TypeOrm
