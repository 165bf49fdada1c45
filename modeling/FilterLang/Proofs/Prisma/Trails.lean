import FilterLang.Proofs.Json.Alike
import FilterLang.Proofs.Json.Values
import FilterLang.Proofs.Prisma.Faithful

/-!
# The fields of a Prisma filter

A condition in a Prisma filter stands at the end of a trail of keys, and some keys lead through the items of
a list.  The trail begins with the connectives around the condition and goes on with the path of its field.
If no path begins with `NOT` or `AND`, the connectives can be told from the path, and what is left of the
trails without them are the paths of the fields, no more and no less (`leads_compile_iff`).

Nothing has to be known about `OR`, or about these keys further inside a path: a disjunction is a list, and
paths are never joined inside.
-/

namespace FilterLang.Prisma

/-! ## Trails -/

/-- A step of a trail. -/
inductive Step where
  /-- To the object under a key. -/
  | into (key : String)
  /-- To an object in the list under a key. -/
  | among (key : String)
deriving DecidableEq

/-- The object has no object inside: it is the condition at the end of a path. -/
def Flat (members : Members) : Prop :=
  ∀ key value, members.lookup key = some value →
    (∀ inner, value ≠ .obj inner) ∧ ∀ items, value = .arr items → ∀ inner, .obj inner ∉ items

/-- The trails from an object to the conditions inside. -/
inductive Trail : Members → List Step → Prop
  | here {members : Members} (flat : Flat members) : Trail members []
  | into {members inner : Members} {key : String} {steps : List Step}
      (under : members.lookup key = some (.obj inner)) (rest : Trail inner steps) :
      Trail members (.into key :: steps)
  | among {members inner : Members} {key : String} {items : List Json} {steps : List Step}
      (under : members.lookup key = some (.arr items)) (mem : .obj inner ∈ items)
      (rest : Trail inner steps) : Trail members (.among key :: steps)

lemma Flat.alike {xs ys : Members} (h : Flat xs) (halike : Json.Alike (.obj xs) (.obj ys)) :
    Flat ys := by
  obtain ⟨xs', hxs, -, hvalues⟩ := halike.symm.of_obj
  obtain rfl := Json.obj.inj hxs
  intro key y hy
  obtain ⟨x, hx, hyx⟩ := hvalues key y hy
  obtain ⟨hobj, harr⟩ := h key x hx
  constructor
  · rintro inner rfl
    obtain ⟨inner', rfl, -⟩ := hyx.of_obj
    exact hobj inner' rfl
  · rintro items rfl inner hinner
    obtain ⟨items', rfl, -, hitems⟩ := hyx.of_arr
    obtain ⟨x', hx', hinnerx⟩ := hitems _ hinner
    obtain ⟨inner', rfl, -⟩ := hinnerx.of_obj
    exact harr items' rfl inner' hx'

/-- Equal objects have the same trails. -/
lemma Trail.alike {xs ys : Members} {steps : List Step} (h : Trail xs steps)
    (halike : Json.Alike (.obj xs) (.obj ys)) : Trail ys steps := by
  induction h generalizing ys with
  | here flat => exact .here (flat.alike halike)
  | into under rest ih =>
    obtain ⟨ys', hys, -, hvalues⟩ := halike.of_obj
    obtain rfl := Json.obj.inj hys
    obtain ⟨y, hy, hinner⟩ := hvalues _ _ under
    obtain ⟨inner', rfl, -⟩ := hinner.of_obj
    exact .into hy (ih hinner)
  | among under mem rest ih =>
    obtain ⟨ys', hys, -, hvalues⟩ := halike.of_obj
    obtain rfl := Json.obj.inj hys
    obtain ⟨y, hy, hlist⟩ := hvalues _ _ under
    obtain ⟨items', rfl, -, hitems⟩ := hlist.of_arr
    obtain ⟨y', hy', hinner⟩ := hitems _ mem
    obtain ⟨inner', rfl, -⟩ := hinner.of_obj
    exact .among hy hy' (ih hinner)

/-! ## Trails without connectives -/

/-- The step leads through a connective. -/
def isConnective : Step → Bool
  | .into key => key = "NOT"
  | .among key => key = "OR" ∨ key = "AND"

/-- A trail of the object ends like this, behind its connectives. -/
def Ends (members : Members) (steps : List Step) : Prop :=
  ∃ trail, Trail members trail ∧ trail.dropWhile isConnective = steps

/-- A trail that starts at a member ends like this, behind its connectives. -/
def MemberEnds (key : String) (steps : List Step) : Json → Prop
  | .obj inner => ∃ trail, Trail inner trail ∧ (Step.into key :: trail).dropWhile isConnective = steps
  | .arr items => ∃ inner trail, .obj inner ∈ items ∧ Trail inner trail ∧
      (Step.among key :: trail).dropWhile isConnective = steps
  | _ => False

variable {members left right : Members} {key : String} {value : Json} {steps : List Step}

/-- The trails of an object start at its members. -/
lemma ends_iff (h : steps ≠ []) :
    Ends members steps ↔
      ∃ key value, members.lookup key = some value ∧ MemberEnds key steps value := by
  constructor
  · rintro ⟨trail, htrail, hdrop⟩
    cases htrail with
    | here => exact absurd hdrop.symm h
    | into under rest => exact ⟨_, _, under, _, rest, hdrop⟩
    | among under mem rest => exact ⟨_, _, under, _, _, mem, rest, hdrop⟩
  · rintro ⟨key, value, under, hends⟩
    cases value with
    | obj inner =>
      obtain ⟨trail, rest, hdrop⟩ := hends
      exact ⟨_, .into under rest, hdrop⟩
    | arr items =>
      obtain ⟨inner, trail, mem, rest, hdrop⟩ := hends
      exact ⟨_, .among under mem rest, hdrop⟩
    | _ => exact hends.elim

lemma not_ends_nil (h : steps ≠ []) : ¬ Ends [] steps := by
  simp [ends_iff h]

lemma ends_cons (hsteps : steps ≠ []) (h : members.lookup key = none) :
    Ends ((key, value) :: members) steps ↔ MemberEnds key steps value ∨ Ends members steps := by
  rw [ends_iff hsteps, ends_iff hsteps]
  constructor
  · rintro ⟨k, v, hlookup, hends⟩
    by_cases hk : k = key
    · subst hk
      obtain rfl : value = v := by simpa using hlookup
      exact .inl hends
    · rw [lookup_cons_of_ne hk] at hlookup
      exact .inr ⟨k, v, hlookup, hends⟩
  · rintro (hends | ⟨k, v, hlookup, hends⟩)
    · exact ⟨key, value, by simp, hends⟩
    · have hk : k ≠ key := by
        rintro rfl
        simp [h] at hlookup
      exact ⟨k, v, by rw [lookup_cons_of_ne hk, hlookup], hends⟩

lemma ends_single (h : steps ≠ []) : Ends [(key, value)] steps ↔ MemberEnds key steps value := by
  rw [ends_cons h rfl, or_iff_left (not_ends_nil h)]

/-- A key that is not yet there adds the trails of its value. -/
lemma ends_append_single (hsteps : steps ≠ []) (h : members.lookup key = none) :
    Ends (members ++ [(key, value)]) steps ↔ Ends members steps ∨ MemberEnds key steps value := by
  rw [← ends_single hsteps, ends_iff hsteps, ends_iff hsteps, ends_iff hsteps]
  simp only [List.lookup_append, Option.or_eq_some_iff]
  constructor
  · rintro ⟨k, v, hlookup | ⟨-, hlookup⟩, hends⟩
    · exact .inl ⟨k, v, hlookup, hends⟩
    · exact .inr ⟨k, v, hlookup, hends⟩
  · rintro (⟨k, v, hlookup, hends⟩ | ⟨k, v, hlookup, hends⟩)
    · exact ⟨k, v, .inl hlookup, hends⟩
    · refine ⟨k, v, .inr ⟨?_, hlookup⟩, hends⟩
      by_cases hk : k = key
      · exact hk ▸ h
      · simp [lookup_cons_of_ne hk] at hlookup

/-! ## Connectives -/

lemma memberEnds_append {left right : List Json} :
    MemberEnds key steps (.arr (left ++ right)) ↔
      MemberEnds key steps (.arr left) ∨ MemberEnds key steps (.arr right) := by
  constructor
  · rintro ⟨inner, trail, mem, rest, hdrop⟩
    rcases List.mem_append.1 mem with mem | mem
    · exact .inl ⟨inner, trail, mem, rest, hdrop⟩
    · exact .inr ⟨inner, trail, mem, rest, hdrop⟩
  · rintro (⟨inner, trail, mem, rest, hdrop⟩ | ⟨inner, trail, mem, rest, hdrop⟩)
    · exact ⟨inner, trail, List.mem_append_left _ mem, rest, hdrop⟩
    · exact ⟨inner, trail, List.mem_append_right _ mem, rest, hdrop⟩

/-- An object in the list of a connective. -/
lemma memberEnds_singleton (h : key = "OR" ∨ key = "AND") :
    MemberEnds key steps (.arr [.obj members]) ↔ Ends members steps := by
  have hkey : isConnective (.among key) = true := by simpa [isConnective] using h
  constructor
  · rintro ⟨inner, trail, mem, rest, hdrop⟩
    obtain rfl : inner = members := by simpa using mem
    rw [List.dropWhile_cons_of_pos hkey] at hdrop
    exact ⟨trail, rest, hdrop⟩
  · rintro ⟨trail, rest, hdrop⟩
    exact ⟨members, trail, by simp, rest, by rw [List.dropWhile_cons_of_pos hkey, hdrop]⟩

lemma memberEnds_not : MemberEnds "NOT" steps (.obj members) ↔ Ends members steps := Iff.rfl

lemma memberEnds_alternatives (h : steps ≠ []) :
    MemberEnds "OR" steps (.arr (alternatives members)) ↔ Ends members steps := by
  unfold alternatives
  split
  · exact (ends_single h).symm
  · exact memberEnds_singleton (.inl rfl)

/-- A list under `AND` that grows adds the trails of what is appended. -/
lemma ends_appendConjuncts (hsteps : steps ≠ []) (h : ListsConjuncts members) (incoming : List Json) :
    Ends (appendConjuncts members incoming) steps ↔
      Ends members steps ∨ MemberEnds "AND" steps (.arr incoming) := by
  cases hand : members.lookup "AND" with
  | none =>
    rw [appendConjuncts, hand, set_eq_append hand, ends_append_single hsteps hand]
  | some value =>
    obtain ⟨items, rfl⟩ := h value (mem_of_lookup hand)
    rw [appendConjuncts, hand, ends_iff hsteps, ends_iff hsteps]
    simp only [lookup_set]
    constructor
    · rintro ⟨k, v, hlookup, hends⟩
      by_cases hk : k = "AND"
      · subst hk
        rw [if_pos rfl] at hlookup
        obtain rfl := Option.some.inj hlookup
        rcases memberEnds_append.1 hends with hends | hends
        · exact .inl ⟨"AND", _, hand, hends⟩
        · exact .inr hends
      · rw [if_neg hk] at hlookup
        exact .inl ⟨k, v, hlookup, hends⟩
    · rintro (⟨k, v, hlookup, hends⟩ | hends)
      · by_cases hk : k = "AND"
        · subst hk
          rw [hand] at hlookup
          obtain rfl := Option.some.inj hlookup
          exact ⟨"AND", _, if_pos rfl, memberEnds_append.2 (.inl hends)⟩
        · exact ⟨k, v, by rw [if_neg hk, hlookup], hends⟩
      · exact ⟨"AND", _, if_pos rfl, memberEnds_append.2 (.inr hends)⟩

/-- A member joined to an object adds its trails. -/
lemma ends_mergeMember (hsteps : steps ≠ []) (h : ListsConjuncts left)
    (hvalue : key = "AND" → ∃ items, value = .arr items) :
    Ends (mergeMember left key value) steps ↔ Ends left steps ∨ MemberEnds key steps value := by
  unfold mergeMember
  split
  · -- the key is new
    rename_i hnew
    have hnone : left.lookup key = none := by simpa [Members.has] using hnew
    rw [set_eq_append hnone, ends_append_single hsteps hnone]
  · split
    · -- both sides have a list of conjuncts
      rename_i hand
      subst hand
      obtain ⟨items, rfl⟩ := hvalue rfl
      exact ends_appendConjuncts hsteps h items
    · -- the member becomes a conjunct of its own
      rw [ends_appendConjuncts hsteps h, Json.single, memberEnds_singleton (.inr rfl),
        ends_single hsteps]

/-! ## Filters -/

/-- What is kept of the objects of a filter: the lists under `AND`, and that no key comes twice. -/
structure Tended (members : Members) : Prop where
  lists : ListsConjuncts members
  nodup : (members.map Prod.fst).Nodup

lemma Tended.mergeMember (h : Tended left) (hvalue : key = "AND" → ∃ items, value = .arr items) :
    Tended (mergeMember left key value) := by
  refine ⟨h.lists.mergeMember hvalue, ?_⟩
  unfold Prisma.mergeMember
  split
  · exact nodup_keys_set h.nodup key value
  · split
    · split <;> exact nodup_keys_set h.nodup "AND" _
    · exact nodup_keys_set h.nodup "AND" _

/-- The trails of joined objects are those of both. -/
lemma mergeAnd_trails (hl : Tended left) (hr : Tended right) :
    Tended (mergeAnd left right) ∧ ∀ steps, steps ≠ [] →
      (Ends (mergeAnd left right) steps ↔ Ends left steps ∨ Ends right steps) := by
  -- The members of the right object go into the left one by one.
  unfold mergeAnd
  induction right generalizing left with
  | nil =>
    refine ⟨hl, fun steps hsteps => ?_⟩
    rw [List.foldl_nil, or_iff_left (not_ends_nil hsteps)]
  | cons member rest ih =>
    obtain ⟨key, value⟩ := member
    have hvalue : key = "AND" → ∃ items, value = .arr items := by
      rintro rfl
      exact hr.lists value List.mem_cons_self
    obtain ⟨hkey, hnodup⟩ := List.nodup_cons.1 hr.nodup
    have hrest : Tended rest := ⟨fun v hv => hr.lists v (List.mem_cons_of_mem _ hv), hnodup⟩
    obtain ⟨htended, htrails⟩ := ih (hl.mergeMember hvalue) hrest
    refine ⟨htended, fun steps hsteps => ?_⟩
    rw [List.foldl_cons, htrails steps hsteps, ends_mergeMember hsteps hl.lists hvalue,
      ends_cons hsteps (lookup_eq_none_of_notMem hkey), or_assoc]

/-! ### Comparisons -/

lemma trail_flat (h : Flat members) : Trail members steps ↔ steps = [] := by
  constructor
  · intro htrail
    cases htrail with
    | here => rfl
    | into under => exact absurd rfl ((h _ _ under).1 _)
    | among under mem => exact absurd mem ((h _ _ under).2 _ rfl _)
  · rintro rfl
    exact .here h

lemma trail_single_obj {inner : Members} :
    Trail [(key, .obj inner)] steps ↔ ∃ rest, steps = .into key :: rest ∧ Trail inner rest := by
  have hlookup : ∀ {k v}, List.lookup k [(key, Json.obj inner)] = some v → k = key ∧ v = .obj inner := by
    intro k v h
    by_cases hk : k = key
    · subst hk
      exact ⟨rfl, by simpa using h.symm⟩
    · simp [lookup_cons_of_ne hk] at h
  constructor
  · intro htrail
    cases htrail with
    | here flat => exact absurd rfl ((flat key (.obj inner) (by simp)).1 inner)
    | into under rest =>
      obtain ⟨rfl, hinner⟩ := hlookup under
      obtain rfl := Json.obj.inj hinner
      exact ⟨_, rfl, rest⟩
    | among under => exact absurd (hlookup under).2 (by simp)
  · rintro ⟨rest, rfl, htrail⟩
    exact .into (by simp) htrail

/-- The one trail to the condition at the end of a path. -/
lemma trail_nest {condition : Members} (h : Flat condition) (rest : List String) :
    Trail [(key, nest rest (.obj condition))] steps ↔ steps = (key :: rest).map .into := by
  induction rest generalizing key steps with
  | nil =>
    have hnil : nest [] (.obj condition) = .obj condition := rfl
    rw [hnil, trail_single_obj]
    simp [trail_flat h]
  | cons next rest ih =>
    rw [nest_cons, Json.single, trail_single_obj]
    simp [ih]

lemma toJson_no_object (value : Value) :
    (∀ inner, value.toJson ≠ .obj inner) ∧
      ∀ items, value.toJson = .arr items → ∀ inner, .obj inner ∉ items := by
  refine ⟨toJson_ne_obj value, fun items hitems inner hmem => ?_⟩
  have hscalar : ∀ literal : Scalar, .obj inner ≠ literal.toJson := fun literal =>
    Ne.symm (toJson_ne_obj (.scalar literal) inner)
  cases value with
  | scalar literal => exact absurd hitems (scalarToJson_ne_arr literal items)
  | list literals =>
    obtain rfl := Json.arr.inj hitems
    obtain ⟨literal, -, hliteral⟩ := List.mem_map.1 hmem
    exact hscalar literal hliteral.symm
  | range lower upper =>
    obtain rfl := Json.arr.inj hitems
    simp [hscalar] at hmem

lemma flat_single (key : String) (value : Value) : Flat [(key, value.toJson)] := by
  intro k v h
  have hmem := mem_of_lookup h
  obtain ⟨rfl, rfl⟩ : k = key ∧ v = value.toJson := by simpa using hmem
  exact toJson_no_object value

lemma flat_bounds (lower upper : Scalar) : Flat (boundMembers "gte" "lte" lower upper) := by
  intro k v h
  have hmem := mem_of_lookup h
  have hliteral : ∃ literal : Scalar, v = literal.toJson := by
    simp only [boundMembers, List.mem_append, Option.mem_toList,
      Option.map_eq_some_iff, Prod.mk.injEq] at hmem
    rcases hmem with ⟨literal, -, -, rfl⟩ | ⟨literal, -, -, rfl⟩
    · exact ⟨literal, rfl⟩
    · exact ⟨literal, rfl⟩
  obtain ⟨literal, rfl⟩ := hliteral
  exact toJson_no_object (.scalar literal)

lemma flat_condition {field : String} {op : Operator} {value : Value} {document : Json}
    (ok : condition field op value = .ok document) : ∃ members, document = .obj members ∧ Flat members := by
  obtain ⟨_, -, ok⟩ := bind_eq_ok_iff.1 ok
  split at ok
  · cases ok
    exact ⟨_, rfl, flat_bounds _ _⟩
  · cases ok
    exact ⟨_, rfl, flat_single _ _⟩
  · cases ok
    exact ⟨_, rfl, flat_single _ _⟩
  · cases ok
    exact ⟨_, rfl, flat_single _ _⟩

/-- The path of a field without connectives in front. -/
lemma ends_nestPath {field : String} {condition : Members} (h : Flat condition)
    (hhead : (fieldPath field).head? ≠ some "NOT") :
    Ends (nestPath field (.obj condition)) steps ↔ steps = (fieldPath field).map .into := by
  have hne := fieldPath_ne_nil field
  rw [nestPath]
  revert hhead hne
  cases fieldPath field with
  | nil => exact fun _ hne => absurd rfl hne
  | cons key rest =>
    intro hhead _
    have hkey : isConnective (.into key) = false := by simpa [isConnective] using hhead
    have hdrop : (((key :: rest).map Step.into).dropWhile isConnective) = (key :: rest).map Step.into := by
      rw [List.map_cons, List.dropWhile_cons_of_neg (by simp [hkey])]
    constructor
    · rintro ⟨trail, htrail, rfl⟩
      rw [(trail_nest h rest).1 htrail, hdrop]
    · rintro rfl
      exact ⟨_, (trail_nest h rest).2 rfl, hdrop⟩

/-- No path of the filter begins with a key that could be taken for a connective. -/
def OpenlyNamed (t : Filter) : Prop :=
  ∀ c ∈ t.comparisons, (fieldPath c.1).head? ≠ some "NOT" ∧ (fieldPath c.1).head? ≠ some "AND"

lemma tended_single (h : key ≠ "AND") (value : Json) : Tended [(key, value)] :=
  ⟨listsConjuncts_single h value, by simp⟩

lemma tended_nestPath {field : String} (h : (fieldPath field).head? ≠ some "AND") (document : Json) :
    Tended (nestPath field document) := by
  refine ⟨listsConjuncts_nestPath h document, ?_⟩
  rw [nestPath]
  split <;> simp

/-- The trails of a filter, without the connectives in front, are the paths of its fields. -/
theorem ends_members_iff {t : Filter} {m : Members} (named : OpenlyNamed t)
    (ok : Prisma.members t = .ok m) :
    Tended m ∧ ∀ steps, steps ≠ [] →
      (Ends m steps ↔ ∃ c ∈ t.comparisons, steps = (fieldPath c.1).map .into) := by
  induction t generalizing m with
  | comparison field op value =>
    obtain ⟨document, hdocument, ok⟩ := bind_eq_ok_iff.1 ok
    cases ok
    obtain ⟨condition, rfl, hflat⟩ := flat_condition hdocument
    have hnamed := named (field, op, value) (by simp [Filter.comparisons])
    refine ⟨tended_nestPath hnamed.2 _, fun steps _ => ?_⟩
    rw [ends_nestPath hflat hnamed.1]
    simp [Filter.comparisons]
  | logical kind left right ihleft ihright =>
    have hleft : OpenlyNamed left := fun c hc => named c (by simp [Filter.comparisons, hc])
    have hright : OpenlyNamed right := fun c hc => named c (by simp [Filter.comparisons, hc])
    have hcomparisons : ∀ steps,
        (∃ c ∈ (Filter.logical kind left right).comparisons, steps = (fieldPath c.1).map Step.into) ↔
          (∃ c ∈ left.comparisons, steps = (fieldPath c.1).map Step.into) ∨
            ∃ c ∈ right.comparisons, steps = (fieldPath c.1).map Step.into := by
      intro steps
      simp only [Filter.comparisons, List.mem_append, or_and_right, exists_or]
    cases kind with
    | and =>
      obtain ⟨l, hl, ok⟩ := bind_eq_ok_iff.1 ok
      obtain ⟨r, hr, ok⟩ := bind_eq_ok_iff.1 ok
      cases ok
      obtain ⟨htendedl, hendsl⟩ := ihleft hleft hl
      obtain ⟨htendedr, hendsr⟩ := ihright hright hr
      obtain ⟨htended, hends⟩ := mergeAnd_trails htendedl htendedr
      refine ⟨htended, fun steps hsteps => ?_⟩
      rw [hends steps hsteps, hendsl steps hsteps, hendsr steps hsteps, hcomparisons]
    | or =>
      obtain ⟨l, hl, ok⟩ := bind_eq_ok_iff.1 ok
      obtain ⟨r, hr, ok⟩ := bind_eq_ok_iff.1 ok
      cases ok
      obtain ⟨-, hendsl⟩ := ihleft hleft hl
      obtain ⟨-, hendsr⟩ := ihright hright hr
      refine ⟨tended_single (by decide) _, fun steps hsteps => ?_⟩
      rw [ends_single hsteps, memberEnds_append, memberEnds_alternatives hsteps,
        memberEnds_alternatives hsteps, hendsl steps hsteps, hendsr steps hsteps, hcomparisons]
  | not child ih =>
    obtain ⟨inner, hinner, ok⟩ := bind_eq_ok_iff.1 ok
    cases ok
    obtain ⟨-, hends⟩ := ih named hinner
    refine ⟨tended_single (by decide) _, fun steps hsteps => ?_⟩
    rw [ends_single hsteps, memberEnds_not, hends steps hsteps]
    rfl

/-- A path that the document leads along behind its connectives. -/
def Leads (document : Json) (path : List String) : Prop :=
  ∃ outer members, document = .obj outer ∧ outer.lookup "where" = some (.obj members) ∧
    Ends members (path.map .into)

lemma Leads.alike {document other : Json} {path : List String} (h : Leads document path)
    (alike : document.Alike other) : Leads other path := by
  obtain ⟨outer, members, rfl, hmembers, trail, htrail, hends⟩ := h
  obtain ⟨outer', rfl, -, hvalues⟩ := alike.of_obj
  obtain ⟨value, hvalue, hsame⟩ := hvalues _ _ hmembers
  obtain ⟨members', rfl, -⟩ := hsame.of_obj
  exact ⟨outer', members', rfl, hvalue, trail, htrail.alike hsame, hends⟩

theorem leads_compile_iff {t : Filter} {d : Json} (named : OpenlyNamed t) (ok : compile t = .ok d)
    {path : List String} (h : path ≠ []) :
    Leads d path ↔ ∃ c ∈ t.comparisons, path = fieldPath c.1 := by
  obtain ⟨members, hmembers, ok⟩ := bind_eq_ok_iff.1 ok
  cases ok
  have hinto : Function.Injective Step.into := fun _ _ => Step.into.inj
  have hends := (ends_members_iff named hmembers).2 (path.map .into) (by simpa using h)
  simp only [List.map_inj_right hinto] at hends
  rw [← hends]
  constructor
  · rintro ⟨_, _, houter, hlookup, hends⟩
    obtain rfl := Json.obj.inj houter
    obtain rfl : members = _ := by simpa using hlookup
    exact hends
  · exact fun hends => ⟨_, members, rfl, by simp, hends⟩

end FilterLang.Prisma
