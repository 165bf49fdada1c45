import FilterLang.Proofs.Outcome
import FilterLang.Proofs.TypeOrm.Draft

/-!
# Rounds of moving negations

The negation of an object is taken apart and joined to the other members, round after round, until none is
left.  `Rounds` says what the rounds do, without a bound on their number, and `exists_rounds` that there are
at most as many as there are negations anywhere in the object.

This is a count: joining does not add negations, and taking one apart uses it up.  Neither needs to know
where the document comes from, only that no key of the object comes twice.
-/

namespace FilterLang.TypeOrm

/-! ## Counting negations -/

/-- The negations of one member. -/
def memberNegations (member : String × Json) : Nat :=
  (if member.1 = notMarker then 1 else 0) + negations member.2

@[simp] lemma negationsAmong_nil : negationsAmong [] = 0 := by rw [negationsAmong]

@[simp] lemma negationsAmong_cons (member : String × Json) (rest : Members) :
    negationsAmong (member :: rest) = memberNegations member + negationsAmong rest := by
  rw [negationsAmong, memberNegations]

lemma negationsAmong_eq_sum (members : Members) :
    negationsAmong members = (members.map memberNegations).sum := by
  induction members with
  | nil => rfl
  | cons member rest ih => simp [ih]

lemma negationsAmong_append (left right : Members) :
    negationsAmong (left ++ right) = negationsAmong left + negationsAmong right := by
  induction left with
  | nil => simp
  | cons member rest ih => simp [ih, Nat.add_assoc]

lemma negationsIn_append (left right : List Json) :
    negationsIn (left ++ right) = negationsIn left + negationsIn right := by
  induction left with
  | nil => simp [negationsIn]
  | cons item rest ih => simp [negationsIn, ih, Nat.add_assoc]

lemma memberNegations_le_of_lookup {members : Members} {key : String} {value : Json}
    (h : members.lookup key = some value) :
    memberNegations (key, value) ≤ negationsAmong members := by
  induction members with
  | nil => simp at h
  | cons member rest ih =>
    obtain ⟨k, v⟩ := member
    rw [negationsAmong_cons]
    by_cases hk : key = k
    · subst hk
      obtain rfl : v = value := by simpa using h
      omega
    · rw [lookup_cons_of_ne hk] at h
      have := ih h
      omega

lemma negationsAmong_set {members : Members} {key : String} {value : Json}
    (h : members.lookup key = some value) (value' : Json) :
    negationsAmong (Members.set key value' members) + negations value =
      negationsAmong members + negations value' := by
  induction members with
  | nil => simp at h
  | cons member rest ih =>
    obtain ⟨k, v⟩ := member
    rw [Members.set]
    by_cases hk : key = k
    · subst hk
      obtain rfl : v = value := by simpa using h
      simp only [if_true, negationsAmong_cons, memberNegations]
      omega
    · rw [lookup_cons_of_ne hk] at h
      have := ih h
      rw [if_neg (Ne.symm hk), negationsAmong_cons, negationsAmong_cons]
      omega

lemma negations_envelope (name : String) (value : Json) :
    negations (envelope name value) = negations value := by
  have hmarker : operatorMarker ≠ notMarker := by decide
  have hvalue : "value" ≠ notMarker := by decide
  simp [envelope, negations, memberNegations, hmarker, hvalue]

lemma negations_combine (current incoming : Json) :
    negations (combine current incoming) = negations current + negations incoming := by
  have hpair : negations (envelope "and" (.arr [current, incoming])) =
      negations current + negations incoming := by
    rw [negations_envelope]
    simp [negations, negationsIn]
  unfold combine
  split
  · split
    · rename_i members _ items hvalue
      have hset := negationsAmong_set hvalue (.arr (items ++ [incoming]))
      simp only [negations, negationsIn_append, negationsIn] at hset ⊢
      omega
    · exact hpair
  · exact hpair

mutual

lemma negations_mergeValue_le (key : String) (current incoming : Json) :
    negations (mergeValue key current incoming) ≤ negations current + negations incoming := by
  match incoming with
  | .obj incoming =>
    rw [mergeValue.eq_def]
    cases current with
    | obj members =>
      simp only
      split
      · simp only [negations]
        exact negationsAmong_mergeObjects_le members incoming
      · exact (negations_combine _ _).le
    | _ => exact (negations_combine _ _).le
  | .null | .bool _ | .int _ | .float _ | .str _ | .arr _ =>
    rw [mergeValue.eq_def]
    exact (negations_combine _ _).le
termination_by structural incoming

/-- Joining two objects adds no negation. -/
lemma negationsAmong_mergeObjects_le (left right : Members) :
    negationsAmong (mergeObjects left right) ≤ negationsAmong left + negationsAmong right := by
  match right with
  | [] => rw [mergeObjects]; simp
  | (key, value) :: rest =>
    rw [mergeObjects, negationsAmong_cons]
    split
    · have := negationsAmong_mergeObjects_le (left ++ [(key, value)]) rest
      rw [negationsAmong_append, negationsAmong_cons, negationsAmong_nil] at this
      omega
    · rename_i current hsome
      have hset := negationsAmong_set hsome (mergeValue key current value)
      have hvalue := negations_mergeValue_le key current value
      have := negationsAmong_mergeObjects_le
        (Members.set key (mergeValue key current value) left) rest
      simp only [memberNegations]
      omega
termination_by structural right

end

lemma negate_envelope_and (payloads : List Json) :
    negate (envelope "and" (.arr payloads)) = negateAll [] payloads := rfl

lemma cancel_eq_ok {inner : Json} {members : Members} (h : cancel inner = .ok members) :
    inner = .obj members := by
  unfold cancel at h
  split at h
  · cases h
  · split at h
    · cases h
    · cases h
      rfl
  · cases h

mutual

/-- Taking a negation apart adds none to those below it. -/
lemma negationsAmong_negate_le (payload : Json) (members : Members)
    (h : negate payload = .ok members) : negationsAmong members ≤ negations payload := by
  match payload with
  | .obj inner =>
    rw [negate.eq_def] at h
    simp only at h
    rw [negations]
    by_cases hand : envelopeName? (.obj inner) = some "and"
    · rw [if_pos hand] at h
      exact negationsAmong_negateListed_le _ inner members h
    rw [if_neg hand] at h
    match inner with
    | [] =>
      cases h
      simp
    | [(key, value)] =>
      rw [negationsAmong_cons, negationsAmong_nil, memberNegations]
      simp only at h
      split at h
      · rw [cancel_eq_ok h, negations]
        omega
      · split at h
        · obtain ⟨opposite, hopposite, h⟩ := bind_eq_ok_iff.1 h
          cases h
          have := negationsAmong_negate_le value opposite hopposite
          simp only [negationsAmong_cons, negationsAmong_nil, memberNegations, negations]
          omega
        · cases h
          simp only [negationsAmong_cons, negationsAmong_nil, memberNegations, negations_envelope]
          omega
    | _ :: _ :: _ => cases h
  | .null | .bool _ | .int _ | .float _ | .str _ | .arr _ =>
    rw [negate.eq_def] at h
    cases h
termination_by structural payload

lemma negationsAmong_negateListed_le (payload : Json) (listed members : Members)
    (h : negateListed payload listed = .ok members) :
    negationsAmong members ≤ negationsAmong listed := by
  match listed with
  | [] =>
    rw [negateListed] at h
    cases h
  | (key, value) :: rest =>
    rw [negateListed.eq_def] at h
    simp only at h
    rw [negationsAmong_cons, memberNegations]
    by_cases hkey : key = "value"
    · rw [if_pos hkey] at h
      match value with
      | .arr items =>
        have := negationsAmong_negateAll_le [] items members h
        rw [negationsAmong_nil] at this
        simp only [negations]
        omega
      | .null | .bool _ | .int _ | .float _ | .str _ | .obj _ => cases h
    · rw [if_neg hkey] at h
      have := negationsAmong_negateListed_le payload rest members h
      omega
termination_by structural listed

lemma negationsAmong_negateAll_le (joined : Members) (items : List Json) (members : Members)
    (h : negateAll joined items = .ok members) :
    negationsAmong members ≤ negationsAmong joined + negationsIn items := by
  match items with
  | [] =>
    rw [negateAll] at h
    cases h
    omega
  | item :: rest =>
    rw [negateAll] at h
    obtain ⟨opposite, hopposite, h⟩ := bind_eq_ok_iff.1 h
    have hitem := negationsAmong_negate_le item opposite hopposite
    have hjoin := negationsAmong_mergeObjects_le joined opposite
    have hrest := negationsAmong_negateAll_le (mergeObjects joined opposite) rest members h
    rw [negationsIn]
    omega
termination_by structural items

end

/-! ## Taking a negation out of an object -/

lemma swapErase_concat {init : Members} {key k : String} {v : Json}
    (h : Members.has key (init ++ [(k, v)]) = true) :
    Members.swapErase key (init ++ [(k, v)]) =
      if k = key then init else replaceMember key (k, v) init := by
  simp only [Members.swapErase, List.getLast?_concat, h, List.dropLast_concat, replaceMember]
  simp

/-- Taking a member out of an object leaves the others, in another order. -/
lemma swapErase_perm {members : Members} {key : String} {value : Json}
    (nodup : (members.map Prod.fst).Nodup) (h : members.lookup key = some value) :
    ((key, value) :: Members.swapErase key members).Perm members := by
  obtain rfl | ⟨init, ⟨k, v⟩, rfl⟩ := List.eq_nil_or_concat' members
  · simp at h
  have hhas : Members.has key (init ++ [(k, v)]) = true := by simp [Members.has, h]
  rw [swapErase_concat hhas]
  rw [List.lookup_append] at h
  split
  · rename_i hk
    subst hk
    have hfresh : init.lookup k = none := by
      refine lookup_eq_none_of_notMem fun hmem => ?_
      rw [List.map_append, List.nodup_append] at nodup
      exact nodup.2.2 k hmem k (by simp) rfl
    obtain rfl : v = value := by simpa [hfresh] using h
    exact (List.perm_append_singleton (k, v) init).symm
  · rename_i hk
    -- the last member stands where the one that is taken out has been
    have hinit : init.lookup key = some value := by
      simpa [lookup_cons_of_ne (Ne.symm hk)] using h
    obtain ⟨front, behind, rfl, -⟩ := List.lookup_eq_some_iff.1 hinit
    have hkeys := (List.nodup_append.1 (List.map_append .. ▸ nodup)).1
    rw [List.map_append, List.map_cons, List.nodup_middle, List.nodup_cons, List.mem_append,
      not_or] at hkeys
    have hfront := lookup_eq_none_of_notMem hkeys.1.1
    have hbehind := lookup_eq_none_of_notMem hkeys.1.2
    have hreplace : replaceMember key (k, v) (front ++ (key, value) :: behind) =
        front ++ (k, v) :: behind := by
      rw [replaceMember_append, replaceMember_cons, if_pos rfl,
        replaceMember_of_lookup_eq_none hfront, replaceMember_of_lookup_eq_none hbehind]
    rw [hreplace]
    have hlast : ((k, v) :: behind).Perm (behind ++ [(k, v)]) := (List.perm_append_singleton _ _).symm
    rw [List.append_assoc, List.cons_append]
    exact ((hlast.append_left front).cons _).trans List.perm_middle.symm

/-- A member that is taken out of an object takes its negations with it. -/
lemma negationsAmong_swapErase {members : Members} {key : String} {value : Json}
    (nodup : (members.map Prod.fst).Nodup) (h : members.lookup key = some value) :
    memberNegations (key, value) + negationsAmong (Members.swapErase key members) =
      negationsAmong members := by
  have hperm := (swapErase_perm nodup h).map memberNegations
  rw [negationsAmong_eq_sum, negationsAmong_eq_sum, ← hperm.sum_eq]
  simp

lemma nodup_keys_swapErase {members : Members} {key : String} {value : Json}
    (nodup : (members.map Prod.fst).Nodup) (h : members.lookup key = some value) :
    ((Members.swapErase key members).map Prod.fst).Nodup := by
  have hperm := ((swapErase_perm nodup h).map Prod.fst).nodup_iff.2 nodup
  exact (List.nodup_cons.1 hperm).2

/-- Joining does not make any key come twice. -/
lemma nodup_keys_mergeObjects {left : Members} (nodup : (left.map Prod.fst).Nodup) (right : Members) :
    ((mergeObjects left right).map Prod.fst).Nodup :=
  mergeObjects_induction (P := fun members => (members.map Prod.fst).Nodup) nodup
    fun _ hmembers _ _ => nodup_keys_set hmembers _ _

/-! ## Rounds -/

/-- The rounds in which the negation of an object is moved onto its fields, how many there are, and how
they end: with an object that has no negation, or with the error of one that cannot be taken apart. -/
inductive Rounds : Members → Nat → Except EnvelopeError Members → Prop
  | done {members : Members} (none_left : members.lookup notMarker = none) :
      Rounds members 0 (.ok members)
  | failed {members : Members} {payload : Json} {e : EnvelopeError}
      (found : members.lookup notMarker = some payload) (stuck : negate payload = .error e) :
      Rounds members 1 (.error e)
  | round {members opposite : Members} {payload : Json} {n : Nat} {result : Except EnvelopeError Members}
      (found : members.lookup notMarker = some payload) (apart : negate payload = .ok opposite)
      (more : Rounds (mergeObjects (Members.swapErase notMarker members) opposite) n result) :
      Rounds members (n + 1) result

namespace Rounds

variable {members lowered : Members} {n : Nat} {result : Except EnvelopeError Members}

/-- There is only one way for the rounds to go. -/
lemma unique {k : Nat} {other : Except EnvelopeError Members} (h : Rounds members n result)
    (h' : Rounds members k other) : n = k ∧ result = other := by
  induction h generalizing k with
  | done none_left =>
    cases h' with
    | done => exact ⟨rfl, rfl⟩
    | failed found => simp [none_left] at found
    | round found => simp [none_left] at found
  | failed found stuck =>
    cases h' with
    | done none_left => simp [none_left] at found
    | failed found' stuck' =>
      obtain rfl := Option.some.inj (found.symm.trans found')
      exact ⟨rfl, by rw [← stuck, ← stuck']⟩
    | round found' apart =>
      obtain rfl := Option.some.inj (found.symm.trans found')
      simp [stuck] at apart
  | round found apart _ ih =>
    cases h' with
    | done none_left => simp [none_left] at found
    | failed found' stuck =>
      obtain rfl := Option.some.inj (found.symm.trans found')
      simp [apart] at stuck
    | round found' apart' more =>
      obtain rfl := Option.some.inj (found.symm.trans found')
      obtain rfl := Except.ok.inj (apart.symm.trans apart')
      obtain ⟨rfl, rfl⟩ := ih more
      exact ⟨rfl, rfl⟩

/-- What one round keeps, all rounds keep. -/
lemma keeps {P : Members → Prop} (h : Rounds members n (.ok lowered))
    (hround : ∀ {members opposite : Members} {payload : Json}, P members →
      members.lookup notMarker = some payload → negate payload = .ok opposite →
      P (mergeObjects (Members.swapErase notMarker members) opposite))
    (hmembers : P members) : P lowered := by
  generalize hresult : (Except.ok lowered : Except EnvelopeError Members) = result at h
  induction h with
  | done =>
    cases hresult
    exact hmembers
  | failed => cases hresult
  | round found apart _ ih => exact ih (hround hmembers found apart) hresult

/-- What the rounds leave has no negation. -/
lemma lookup_eq_none (h : Rounds members n (.ok lowered)) : lowered.lookup notMarker = none := by
  generalize hresult : (Except.ok lowered : Except EnvelopeError Members) = result at h
  induction h with
  | done none_left =>
    cases hresult
    exact none_left
  | failed => cases hresult
  | round _ _ _ ih => exact ih hresult

end Rounds

section

variable {members : Members}

/-- A round takes a negation away. -/
lemma negationsAmong_round_lt {payload : Json} {opposite : Members}
    (nodup : (members.map Prod.fst).Nodup) (found : members.lookup notMarker = some payload)
    (apart : negate payload = .ok opposite) :
    negationsAmong (mergeObjects (Members.swapErase notMarker members) opposite) <
      negationsAmong members := by
  have htake := negationsAmong_swapErase nodup found
  have hmerge := negationsAmong_mergeObjects_le (Members.swapErase notMarker members) opposite
  have hnegate := negationsAmong_negate_le payload opposite apart
  simp only [memberNegations, if_true] at htake
  omega

/-- There are at most as many rounds as negations, and a bound of this size on their number does not
stop them. -/
lemma exists_rounds_lowerWithin {bound : Nat} (nodup : (members.map Prod.fst).Nodup)
    (hbound : negationsAmong members ≤ bound) :
    ∃ n ≤ negationsAmong members, Rounds members n (lowerWithin bound members) := by
  induction bound generalizing members with
  | zero =>
    rw [lowerWithin]
    refine ⟨0, Nat.zero_le _, .done ?_⟩
    by_contra hkey
    obtain ⟨payload, hkey⟩ := Option.ne_none_iff_exists'.1 hkey
    have hcount := memberNegations_le_of_lookup hkey
    simp only [memberNegations, if_true] at hcount
    omega
  | succ bound ih =>
    rw [lowerWithin]
    split
    · rename_i hkey
      exact ⟨0, Nat.zero_le _, .done hkey⟩
    · rename_i payload hkey
      cases hnegate : negate payload with
      | error e =>
        have hcount := memberNegations_le_of_lookup hkey
        simp only [memberNegations, if_true] at hcount
        exact ⟨1, by omega, .failed hkey hnegate⟩
      | ok opposite =>
        have hless := negationsAmong_round_lt nodup hkey hnegate
        have hnodup := nodup_keys_mergeObjects (nodup_keys_swapErase nodup hkey) opposite
        obtain ⟨n, hn, hrounds⟩ := ih hnodup (by omega)
        exact ⟨n + 1, by omega, .round hkey hnegate hrounds⟩

/-- Lowering an object goes through all the rounds that it takes. -/
lemma exists_rounds (nodup : (members.map Prod.fst).Nodup) :
    ∃ n ≤ negationsAmong members, Rounds members n (lower members) :=
  exists_rounds_lowerWithin nodup le_rfl

end

end FilterLang.TypeOrm
