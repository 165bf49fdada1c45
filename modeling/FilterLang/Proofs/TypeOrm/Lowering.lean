import FilterLang.Proofs.TypeOrm.Rounds

/-!
# What lowered objects say

Moving the negations of an object onto its fields keeps what the object says (`Object.lower`).  One round
does, because the negation of an object says what its opposite says, and joining two objects is saying both.
-/

namespace FilterLang.TypeOrm

/-! ## Taking a negation out of an object -/

section

variable {IsField : List String → Prop} {record : Record} {n : Nat} {path : List String}
  {members : Members} {m : Option Bool}

lemma Payload.cancel {payload : Json} {out : Members}
    (h : Payload IsField record n path payload m) (ok : cancel payload = .ok out) :
    out ≠ [] ∧ Object IsField record n path out (m.map (! ·)) := by
  have hpayload := cancel_eq_ok ok
  cases h with
  | @object _ _ members m ne_nil means =>
    cases hpayload
    refine ⟨ne_nil, ?_⟩
    have hnot : (m.map (! ·)).map (! ·) = m := by cases m <;> simp
    rwa [hnot]
  | alternatives => cases hpayload
  | and => cases ok

variable (fields : FieldPaths IsField)

include fields

/-- An object says what its negation says and what is left without it. -/
lemma Object.swapErase {payload : Json} (h : Object IsField record n path members m)
    (hkey : members.lookup notMarker = some payload) :
    ∃ a b, Payload IsField record n path payload a ∧
      Object IsField record n path (Members.swapErase notMarker members) b ∧ m = both a b := by
  obtain rfl | ⟨init, ⟨k, v⟩, rfl⟩ := List.eq_nil_or_concat' members
  · simp at hkey
  -- The last member takes the place of the negation, unless it is the negation.
  obtain ⟨c, d, hinit, hlast, hfresh, rfl⟩ := h.of_concat
  have hhas : Members.has notMarker (init ++ [(k, v)]) = true := by simp [Members.has, hkey]
  rw [swapErase_concat hhas]
  rw [List.lookup_append] at hkey
  split
  · rename_i hk
    subst hk
    obtain rfl : v = payload := by simpa [hfresh] using hkey
    exact ⟨d, c, hlast.payload fields, hinit, both_comm c d⟩
  · rename_i hk
    have hinitkey : init.lookup notMarker = some payload := by
      simpa [lookup_cons_of_ne (Ne.symm hk)] using hkey
    obtain ⟨a, b, hpayload, rfl, hreplace⟩ := hinit.replace hinitkey
    refine ⟨a, both d b, hpayload.payload fields, hreplace k v d (.inr hfresh) hlast, ?_⟩
    rw [both_assoc, both_comm b d]

/-! ## Taking a negation apart -/

omit fields in
lemma negate_single {key : String} {value : Json} (h : envelopeName? (.single key value) ≠ some "and") :
    negate (.single key value) =
      if key = notMarker then cancel value
      else if isRelation value then do return [(key, .obj (← negate value))]
      else .ok [(key, envelope "not" value)] := by
  rw [Json.single, negate]
  exact if_neg h

omit fields in
lemma negate_several {first second : String × Json} {rest : Members}
    (h : envelopeName? (.obj (first :: second :: rest)) ≠ some "and") :
    negate (.obj (first :: second :: rest)) = unsupported .overSeveralFields := by
  rw [negate.eq_def]
  exact if_neg h

/-- The opposite of an object says that the object does not hold. -/
lemma Object.negate {n : Nat} {path : List String} {members out : Members} {m : Option Bool}
    (h : Object IsField record n path members m) (ne_nil : members ≠ [])
    (ok : negate (.obj members) = .ok out) :
    out ≠ [] ∧ Object IsField record n path out (m.map (! ·)) := by
  -- An object in a relation lies a level deeper, so that the induction is on the levels.
  induction n using Nat.strong_induction_on generalizing path members out m with
  | h n ih =>
    have hand : FilterLang.envelopeName? (.obj members) ≠ some "and" := by simp [h.envelopeName? fields]
    cases h with
    | nil => exact absurd rfl ne_nil
    | cons fresh head tail =>
      -- Only an object with one member has an opposite, and that member says what the object says.
      cases tail with
      | cons =>
        rw [negate_several hand] at ok
        cases ok
      | nil =>
        rw [both_true]
        rw [← Json.single, negate_single hand] at ok
        cases head with
        | negation means =>
          rw [if_pos rfl] at ok
          exact means.cancel ok
        | field means =>
          rw [if_neg (means.key_ne fields)] at ok
          cases means with
          | condition field means =>
            rw [if_neg (by simp [means.isRelation])] at ok
            cases ok
            exact ⟨by simp, .single (.field (.condition field (.not means)))⟩
          | relation leads inner_ne_nil means =>
            rw [if_pos (means.isRelation fields)] at ok
            obtain ⟨opposite, hopposite, ok⟩ := bind_eq_ok_iff.1 ok
            cases ok
            obtain ⟨hne, hobject⟩ := ih _ (Nat.lt_succ_self _) means inner_ne_nil hopposite
            exact ⟨by simp, .single (.field (.relation leads hne hobject))⟩

mutual

/-- The opposite of a payload says what its negation says. -/
lemma Payload.negate {payload : Json} {m : Option Bool} {out : Members}
    (h : Payload IsField record n path payload m) (ok : negate payload = .ok out) :
    out ≠ [] ∧ Object IsField record n path out m := by
  match h with
  | .object ne_nil means => exact means.negate fields ne_nil ok
  | .alternatives =>
    rw [TypeOrm.negate.eq_def] at ok
    cases ok
  | .and ne_nil means =>
    rw [negate_envelope_and] at ok
    have hobject := means.negateAll .nil (.inr ne_nil) ok
    rwa [true_both] at hobject
termination_by structural h

/-- The opposites of payloads, joined to an object, say what their negations say and what the object
says. -/
lemma Payloads.negateAll {payloads : List Json} {a m : Option Bool} {joined out : Members}
    (h : Payloads IsField record n path payloads m) (hjoined : Object IsField record n path joined a)
    (ne_nil : joined ≠ [] ∨ payloads ≠ []) (ok : negateAll joined payloads = .ok out) :
    out ≠ [] ∧ Object IsField record n path out (both a m) := by
  match h with
  | .nil =>
    rw [TypeOrm.negateAll] at ok
    cases ok
    rw [both_true]
    exact ⟨ne_nil.resolve_right fun hne => hne rfl, hjoined⟩
  | .cons head tail =>
    rw [TypeOrm.negateAll] at ok
    obtain ⟨opposite, hopposite, ok⟩ := bind_eq_ok_iff.1 ok
    obtain ⟨hne, hobject⟩ := head.negate hopposite
    rw [← both_assoc]
    exact tail.negateAll (hjoined.merge fields hobject) (.inl (mergeObjects_ne_nil (.inr hne))) ok
termination_by structural h

end

/-! ## All rounds -/

/-- One round: the negation of an object is moved onto its fields. -/
lemma Object.round {payload : Json} {opposite : Members} (h : Object IsField record n path members m)
    (hkey : members.lookup notMarker = some payload) (ok : TypeOrm.negate payload = .ok opposite) :
    Object IsField record n path (mergeObjects (Members.swapErase notMarker members) opposite) m := by
  obtain ⟨a, b, hpayload, hrest, rfl⟩ := h.swapErase fields hkey
  obtain ⟨-, hopposite⟩ := hpayload.negate fields ok
  exact both_comm b a ▸ hrest.merge fields hopposite

/-- Moving all negations of an object onto its fields keeps what it says and leaves none. -/
theorem Object.lower {out : Members} (h : Object IsField record n path members m)
    (ok : lower members = .ok out) :
    Object IsField record n path out m ∧ out.lookup notMarker = none := by
  obtain ⟨_, -, hrounds⟩ := exists_rounds h.nodup
  rw [ok] at hrounds
  have hmeans := hrounds.keeps (P := fun members => Object IsField record n path members m)
    (fun hmembers hkey apart => hmembers.round fields hkey apart) h
  exact ⟨hmeans, hrounds.lookup_eq_none⟩

end

end FilterLang.TypeOrm
