import FilterLang.Proofs.TypeOrm.Opening

/-!
# Conditions at the end of a path

The condition on a field stands at the end of a path of objects, and it is to be opened where it stands.
This happens exactly if no key on the way has a meaning of its own (`resolve_nest_iff`).  The key of a
negation is gone once the negation has been moved, and an object with the key of an operator is taken for a
condition, so that nothing inside it is opened.
-/

namespace FilterLang.TypeOrm

variable {table : FunctionTable} {key next : String} {value : Json} {n : Nat}

/-! ## Objects with one member -/

lemma isRelation_single (h : operatorMarker ≠ key) (value : Json) :
    isRelation (.single key value) = true := by
  simp [isRelation, Json.single, Members.has, lookup_cons_of_ne h]

lemma envelopeName?_single (h : operatorMarker ≠ key) (value : Json) :
    envelopeName? (.single key value) = none := by
  simp [envelopeName?, Json.single, Json.get?, lookup_cons_of_ne h]

lemma lowerWithin_of_lookup {members : Members} (h : members.lookup notMarker = none) (rounds : Nat) :
    lowerWithin rounds members = .ok members := by
  cases rounds with
  | zero => rfl
  | succ rounds => rw [lowerWithin, h]

lemma lower_single (h : notMarker ≠ key) (value : Json) :
    lower [(key, value)] = .ok [(key, value)] :=
  lowerWithin_of_lookup (lookup_cons_of_ne h) _

lemma resolveObject_condition (hkey : notMarker ≠ key) (h : isRelation value = false) :
    resolveObject table n [(key, value)] =
      openCondition table value >>= fun opened => .ok (opened.elim [] fun out => [(key, out)]) := by
  cases n with
  | zero =>
    rw [resolveObject, lower_single hkey, ok_bind, openMembers_cons_condition h]
    rfl
  | succ n =>
    rw [resolveObject, lower_single hkey, ok_bind, openMembers_cons_condition h]
    rfl

lemma resolveObject_relation (hkey : notMarker ≠ key) (hnext : operatorMarker ≠ next) :
    resolveObject table (n + 1) [(key, .single next value)] =
      resolveObject table n [(next, value)] >>= fun opened => .ok [(key, .obj opened)] := by
  rw [resolveObject, lower_single hkey, ok_bind, Json.single,
    openMembers_cons_relation (isRelation_single hnext value)]
  rfl

/-! ## Conditions that are found -/

/-- No key of the path has a meaning of its own where it stands.  The first key may be that of an operator,
because a filter is never taken for a condition. -/
def Passable (path : List String) : Prop := notMarker ∉ path ∧ operatorMarker ∉ path.tail

instance : DecidablePred Passable := fun _ => inferInstanceAs (Decidable (_ ∧ _))

lemma passable_singleton : Passable [key] ↔ notMarker ≠ key := by simp [Passable]

lemma passable_cons_cons {rest : List String} :
    Passable (key :: next :: rest) ↔
      notMarker ≠ key ∧ operatorMarker ≠ next ∧ Passable (next :: rest) := by
  simp only [Passable, List.mem_cons, not_or, List.tail_cons]
  tauto

lemma resolveObject_nest {rest : List String} {condition out : Json} (h : Passable (key :: rest))
    (hn : rest.length ≤ n) (hcondition : isRelation condition = false)
    (ok : openCondition table condition = .ok (some out)) :
    resolveObject table n [(key, nest rest condition)] = .ok [(key, nest rest out)] := by
  induction rest generalizing key n with
  | nil =>
    rw [nest, List.foldr_nil, resolveObject_condition (passable_singleton.1 h) hcondition, ok]
    rfl
  | cons next rest ih =>
    obtain ⟨hkey, hnext, hrest⟩ := passable_cons_cons.1 h
    cases n with
    | zero => simp at hn
    | succ n =>
      rw [nest_cons, resolveObject_relation hkey hnext, ih hrest (Nat.le_of_succ_le_succ hn)]
      rfl

lemma length_le_height_nest (path : List String) (document : Json) :
    path.length ≤ height (nest path document) := by
  induction path with
  | nil => exact Nat.zero_le _
  | cons key rest ih =>
    rw [nest_cons, Json.single, height, heightAmong, List.length_cons]
    omega

lemma length_le_height_nest_cons (key : String) (rest : List String) (document : Json) :
    rest.length ≤ height (nest (key :: rest) document) :=
  (Nat.le_succ _).trans (length_le_height_nest (key :: rest) document)

lemma resolve_nest_eq_ok {rest : List String} {condition out : Json} :
    resolve table (nest (key :: rest) condition) = .ok (nest (key :: rest) out) ↔
      resolveObject table (height (nest (key :: rest) condition)) [(key, nest rest condition)] =
        .ok [(key, nest rest out)] := by
  have hresolve : resolve table (nest (key :: rest) condition) =
      resolveObject table (height (nest (key :: rest) condition)) [(key, nest rest condition)] >>=
        fun members => .ok (.obj members) := rfl
  rw [hresolve, bind_eq_ok_iff]
  simp [nest_cons, Json.single]

/-- A condition at the end of a path is opened there. -/
lemma resolve_nest {rest : List String} {condition out : Json} (h : Passable (key :: rest))
    (hcondition : isRelation condition = false)
    (ok : openCondition table condition = .ok (some out)) :
    resolve table (nest (key :: rest) condition) = .ok (nest (key :: rest) out) := by
  have hobject := resolveObject_nest h (length_le_height_nest_cons key rest condition) hcondition ok
  exact resolve_nest_eq_ok.2 hobject

/-! ## Conditions that are not found -/

variable {name : String} {payload : Json} {rest : List String} {out : Members}

lemma asStr?_nest (rest : List String) (name : String) (payload : Json) :
    (nest rest (envelope name payload)).asStr? = none := by
  cases rest <;> rfl

lemma envelopeName?_operatorMarker (rest : List String) (name : String) (payload : Json) :
    envelopeName? (.single operatorMarker (nest rest (envelope name payload))) = none :=
  asStr?_nest rest name payload

lemma envelopeName?_nest_ne (hname : name ≠ "and") (rest : List String) (payload : Json) :
    envelopeName? (nest rest (envelope name payload)) ≠ some "and" := by
  cases rest with
  | nil => simpa [nest, envelopeName?, envelope, Json.get?, Json.asStr?] using hname
  | cons key rest =>
    rw [nest_cons]
    by_cases hkey : operatorMarker = key
    · rw [← hkey, envelopeName?_operatorMarker]
      simp
    · rw [envelopeName?_single hkey]
      simp

lemma negate_envelope (hname : name ≠ "and") (payload : Json) :
    negate (envelope name payload) = unsupported .overSeveralFields := by
  have hand : envelopeName? (envelope name payload) ≠ some "and" := envelopeName?_nest_ne hname [] payload
  exact negate_several hand

/-- A negation moved over a path leaves the condition alone, or one key.  The key is that of another negation
only where two of them cancel in front of it. -/
lemma negate_nest (hname : name ≠ "and") (ok : negate (nest rest (envelope name payload)) = .ok out) :
    out = [(operatorMarker, .str name), ("value", payload)] ∨
      ∃ key value, out = [(key, value)] ∧
        (key = notMarker → ∃ rest', value = nest rest' (envelope name payload)) := by
  cases rest with
  | nil =>
    rw [nest, List.foldr_nil, negate_envelope hname] at ok
    cases ok
  | cons key rest =>
    have hand : envelopeName? (.single key (nest rest (envelope name payload))) ≠ some "and" :=
      envelopeName?_nest_ne hname (key :: rest) payload
    rw [nest_cons, negate_single hand] at ok
    by_cases hkey : key = notMarker
    · rw [if_pos hkey] at ok
      have hinner := cancel_eq_ok ok
      cases rest with
      | nil => exact .inl (Json.obj.inj hinner).symm
      | cons next rest => exact .inr ⟨next, _, (Json.obj.inj hinner).symm, fun _ => ⟨rest, rfl⟩⟩
    · right
      rw [if_neg hkey] at ok
      split at ok
      · obtain ⟨opposite, -, ok⟩ := bind_eq_ok_iff.1 ok
        cases ok
        exact ⟨key, _, rfl, fun h => absurd h hkey⟩
      · cases ok
        exact ⟨key, _, rfl, fun h => absurd h hkey⟩

lemma lookup_openMembers_eq_none {nested : Members → Except EnvelopeError Members} {members : Members}
    (h : members.lookup key = none) (ok : openMembers table nested members = .ok out) :
    out.lookup key = none := by
  induction members generalizing out with
  | nil =>
    cases ok
    rfl
  | cons member members ih =>
    obtain ⟨k, value⟩ := member
    obtain ⟨hk, hmembers⟩ := lookup_cons_eq_none_iff.1 h
    by_cases hrelation : isRelation value = true
    · cases value with
      | obj inner =>
        rw [openMembers_cons_relation hrelation] at ok
        obtain ⟨opened, -, ok⟩ := bind_eq_ok_iff.1 ok
        obtain ⟨more, hmore, ok⟩ := bind_eq_ok_iff.1 ok
        cases ok
        exact lookup_cons_eq_none_iff.2 ⟨hk, ih hmembers hmore⟩
      | _ => cases hrelation
    · rw [openMembers_cons_condition (by simpa using hrelation)] at ok
      obtain ⟨opened, -, ok⟩ := bind_eq_ok_iff.1 ok
      obtain ⟨more, hmore, ok⟩ := bind_eq_ok_iff.1 ok
      cases ok
      cases opened with
      | none => exact ih hmembers hmore
      | some value => exact lookup_cons_eq_none_iff.2 ⟨hk, ih hmembers hmore⟩

/-- No negation is left on the path once all of them have been moved. -/
lemma lookup_lowerWithin_notMarker {rounds : Nat} (hname : name ≠ "and")
    (hrounds : negationsAmong [(notMarker, nest rest (envelope name payload))] ≤ rounds)
    (ok : lowerWithin rounds [(notMarker, nest rest (envelope name payload))] = .ok out) :
    out.lookup notMarker = none := by
  -- Every round takes away the negation in front; if a new one comes there, fewer are left in all.
  induction rounds generalizing rest with
  | zero => simp [memberNegations] at hrounds
  | succ rounds ih =>
    have hround : lowerWithin (rounds + 1) [(notMarker, nest rest (envelope name payload))] =
        negate (nest rest (envelope name payload)) >>=
          fun opposite => lowerWithin rounds (mergeObjects [] opposite) := rfl
    rw [hround] at ok
    obtain ⟨opposite, hopposite, ok⟩ := bind_eq_ok_iff.1 ok
    have hcount := negationsAmong_negate_le _ _ hopposite
    rcases negate_nest hname hopposite with rfl | ⟨key, value, rfl, hkey⟩
    · rw [lowerWithin_of_lookup rfl] at ok
      cases ok
      rfl
    · by_cases hnot : key = notMarker
      · obtain ⟨rest', rfl⟩ := hkey hnot
        subst hnot
        refine ih (hcount.trans ?_) ok
        simp only [negationsAmong_cons, negationsAmong_nil, memberNegations, if_true] at hrounds
        omega
      · have hlookup : List.lookup notMarker [(key, value)] = none := lookup_cons_of_ne (Ne.symm hnot)
        rw [mergeObjects, List.lookup_nil, mergeObjects, List.nil_append,
          lowerWithin_of_lookup hlookup] at ok
        cases ok
        exact hlookup

/-- The key of a negation is not kept. -/
lemma lookup_resolveObject_notMarker (hname : name ≠ "and")
    (ok : resolveObject table n [(notMarker, nest rest (envelope name payload))] = .ok out) :
    out.lookup notMarker = none := by
  cases n with
  | zero =>
    obtain ⟨lowered, hlowered, ok⟩ := bind_eq_ok_iff.1 ok
    exact lookup_openMembers_eq_none (lookup_lowerWithin_notMarker hname le_rfl hlowered) ok
  | succ n =>
    obtain ⟨lowered, hlowered, ok⟩ := bind_eq_ok_iff.1 ok
    exact lookup_openMembers_eq_none (lookup_lowerWithin_notMarker hname le_rfl hlowered) ok

/-- An object with the key of an operator is taken for a condition that needs no opening. -/
lemma resolveObject_operatorMarker (hkey : notMarker ≠ key) :
    resolveObject table n [(key, .single operatorMarker (nest rest (envelope name payload)))] =
      .ok [(key, .single operatorMarker (nest rest (envelope name payload)))] := by
  have hname := envelopeName?_operatorMarker rest name payload
  have hopen : openCondition table (.single operatorMarker (nest rest (envelope name payload))) =
      .ok (some (.single operatorMarker (nest rest (envelope name payload)))) := by
    rw [Json.single] at hname ⊢
    rw [openCondition, hname]
  rw [resolveObject_condition hkey rfl, hopen]
  rfl

lemma notMarker_ne_of_resolveObject {call : Json} (hname : name ≠ "and")
    (ok : resolveObject table n [(key, nest rest (envelope name payload))] = .ok [(key, call)]) :
    notMarker ≠ key := by
  rintro rfl
  have hlookup := lookup_resolveObject_notMarker hname ok
  simp at hlookup

/-- A condition that is opened at the end of its path has been found there. -/
lemma passable_of_resolveObject {call : Json} (hname : name ≠ "and") (hn : rest.length ≤ n)
    (hcall : call ≠ envelope name payload)
    (ok : resolveObject table n [(key, nest rest (envelope name payload))] =
      .ok [(key, nest rest call)]) : Passable (key :: rest) := by
  have hkey := notMarker_ne_of_resolveObject hname ok
  induction rest generalizing key n with
  | nil => exact passable_singleton.2 hkey
  | cons next rest ih =>
    have hnext : operatorMarker ≠ next := by
      rintro rfl
      rw [nest_cons, resolveObject_operatorMarker hkey, ← nest_cons, Except.ok.injEq] at ok
      have hsame : nest (key :: operatorMarker :: rest) (envelope name payload) =
          nest (key :: operatorMarker :: rest) call := congrArg Json.obj ok
      exact hcall (nest_injective hsame).symm
    cases n with
    | zero => simp at hn
    | succ n =>
      rw [nest_cons, resolveObject_relation hkey hnext] at ok
      obtain ⟨opened, hopened, ok⟩ := bind_eq_ok_iff.1 ok
      obtain rfl : opened = [(next, nest rest call)] := by
        simpa [nest_cons, Json.single] using ok
      have hrest := ih (Nat.le_of_succ_le_succ hn) hopened
        (notMarker_ne_of_resolveObject hname hopened)
      exact passable_cons_cons.2 ⟨hkey, hnext, hrest⟩

/-- **Which paths are passed.**  A condition in an envelope is opened at the end of its path exactly if no
key of the path has a meaning of its own. -/
theorem resolve_nest_iff {call opened : Json} (hname : name ≠ "and")
    (hopened : opened ≠ envelope name payload)
    (ok : openCondition table (envelope name payload) = .ok (some call)) :
    resolve table (nest (key :: rest) (envelope name payload)) = .ok (nest (key :: rest) opened) ↔
      Passable (key :: rest) ∧ opened = call := by
  constructor
  · intro h
    have hpassable := passable_of_resolveObject hname (length_le_height_nest_cons ..) hopened
      (resolve_nest_eq_ok.1 h)
    rw [resolve_nest hpassable rfl ok] at h
    exact ⟨hpassable, (nest_injective (Except.ok.inj h)).symm⟩
  · rintro ⟨hpassable, rfl⟩
    exact resolve_nest hpassable rfl ok

end FilterLang.TypeOrm
