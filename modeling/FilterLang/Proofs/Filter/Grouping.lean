import FilterLang.Filter.Basic
import FilterLang.Proofs.Outcome

/-!
# Filters up to grouping

A chain `x₀ and x₁ and x₂` can be grouped in several ways, and each of them is another filter.
`Filter.Regrouped` relates the filters that differ in nothing else, wherever in the filter the chains stand;
it may also let values differ in what a relation on values does not see.

There are two ways to use it.  What a function makes of a filter does not depend on the grouping if the
function joins what it makes of the parts by an operation that is associative (`Respects.of_join`).  And
filters are regroupings of each other if the operands of their chains are, one by one
(`Regrouped.of_operands`).
-/

namespace FilterLang

/-! ## Outcomes that agree -/

section

variable {ε α β : Type} {r : α → α → Prop} {s : β → β → Prop}

/-- Both outcomes are the same error, or results that are related. -/
inductive Agrees (r : α → α → Prop) : Except ε α → Except ε α → Prop
  | ok {a b : α} (related : r a b) : Agrees r (.ok a) (.ok b)
  | error (e : ε) : Agrees r (.error e) (.error e)

namespace Agrees

lemma equivalence (hr : Equivalence r) : Equivalence (Agrees (ε := ε) r) where
  refl x := by
    cases x with
    | ok a => exact .ok (hr.refl a)
    | error e => exact .error e
  symm h := by
    cases h with
    | ok related => exact .ok (hr.symm related)
    | error e => exact .error e
  trans h h' := by
    cases h with
    | ok related =>
      cases h' with
      | ok related' => exact .ok (hr.trans related related')
    | error e => exact h'

lemma bind {x y : Except ε α} {f g : α → Except ε β} (h : Agrees r x y)
    (hf : ∀ a b, r a b → Agrees s (f a) (g b)) : Agrees s (x >>= f) (y >>= g) := by
  cases h with
  | ok related => exact hf _ _ related
  | error e => exact .error e

lemma eq {x y : Except ε α} (h : Agrees Eq x y) : x = y := by
  cases h with
  | ok related => rw [related]
  | error e => rfl

end Agrees

end

namespace Filter

/-! ## The relation -/

variable {R : Value → Value → Prop}

/-- The filters differ in the grouping of chains of one connective, and in values that `R` relates. -/
inductive Regrouped (R : Value → Value → Prop) : Filter → Filter → Prop
  | refl (t : Filter) : Regrouped R t t
  | symm {a b : Filter} : Regrouped R a b → Regrouped R b a
  | trans {a b c : Filter} : Regrouped R a b → Regrouped R b c → Regrouped R a c
  | comparison (field : String) (op : Operator) {v w : Value} (values : R v w) :
      Regrouped R (.comparison field op v) (.comparison field op w)
  | not {a b : Filter} : Regrouped R a b → Regrouped R (.not a) (.not b)
  | logical (kind : Connective) {a a' b b' : Filter} :
      Regrouped R a a' → Regrouped R b b' → Regrouped R (.logical kind a b) (.logical kind a' b')
  | assoc (kind : Connective) (a b c : Filter) :
      Regrouped R (.logical kind (.logical kind a b) c) (.logical kind a (.logical kind b c))

lemma Regrouped.mono {R' : Value → Value → Prop} {a b : Filter} (hR : ∀ v w, R v w → R' v w)
    (h : Regrouped R a b) : Regrouped R' a b := by
  induction h with
  | refl t => exact .refl t
  | symm _ ih => exact .symm ih
  | trans _ _ ih ih' => exact .trans ih ih'
  | comparison field op values => exact .comparison field op (hR _ _ values)
  | not _ ih => exact .not ih
  | logical kind _ _ ihleft ihright => exact .logical kind ihleft ihright
  | assoc kind a b c => exact .assoc kind a b c

/-! ## Functions that do not see the grouping -/

/-- What a function makes of filters is related wherever `R` relates their values, joining and negating
keep it so, and both groupings of three operands are related. -/
structure Respects {α : Type} (R : Value → Value → Prop) (r : α → α → Prop) (f : Filter → α) : Prop where
  equivalence : Equivalence r
  comparison : ∀ field op v w, R v w → r (f (.comparison field op v)) (f (.comparison field op w))
  not : ∀ a b, r (f a) (f b) → r (f (.not a)) (f (.not b))
  logical : ∀ kind a a' b b', r (f a) (f a') → r (f b) (f b') →
    r (f (.logical kind a b)) (f (.logical kind a' b'))
  assoc : ∀ kind a b c,
    r (f (.logical kind (.logical kind a b) c)) (f (.logical kind a (.logical kind b c)))

namespace Respects

/-- The function does not see the grouping. -/
lemma of_regrouped {α : Type} {r : α → α → Prop} {f : Filter → α} (hf : Respects R r f) {a b : Filter}
    (h : Regrouped R a b) : r (f a) (f b) := by
  induction h with
  | refl t => exact hf.equivalence.refl _
  | symm _ ih => exact hf.equivalence.symm ih
  | trans _ _ ih ih' => exact hf.equivalence.trans ih ih'
  | comparison field op values => exact hf.comparison field op _ _ values
  | not _ ih => exact hf.not _ _ ih
  | logical kind _ _ ihleft ihright => exact hf.logical kind _ _ _ _ ihleft ihright
  | assoc kind a b c => exact hf.assoc kind a b c

/-- A function that may fail goes from left to right and joins what it makes of the operands.  It does not
see the grouping if joining is associative. -/
lemma of_join {ε α : Type} {r : α → α → Prop} {f : Filter → Except ε α}
    (join : Connective → α → α → α) (negate : α → α) (hr : Equivalence r)
    (hcomparison : ∀ field op v w, R v w →
      Agrees r (f (.comparison field op v)) (f (.comparison field op w)))
    (hlogical : ∀ kind a b, f (.logical kind a b) = do return join kind (← f a) (← f b))
    (hnot : ∀ a, f (.not a) = do return negate (← f a))
    (join_congr : ∀ kind x x' y y', r x x' → r y y' → r (join kind x y) (join kind x' y'))
    (join_assoc : ∀ kind x y z, r (join kind (join kind x y) z) (join kind x (join kind y z)))
    (negate_congr : ∀ x x', r x x' → r (negate x) (negate x')) : Respects R (Agrees r) f where
  equivalence := Agrees.equivalence hr
  comparison := hcomparison
  not a b h := by
    rw [hnot, hnot]
    exact h.bind fun x y hxy => .ok (negate_congr x y hxy)
  logical kind a a' b b' ha hb := by
    rw [hlogical, hlogical]
    exact ha.bind fun x x' hx => hb.bind fun y y' hy => .ok (join_congr kind x x' y y' hx hy)
  assoc kind a b c := by
    rw [hlogical, hlogical, hlogical, hlogical]
    cases f a with
    | error e => exact .error e
    | ok x =>
      cases f b with
      | error e => exact .error e
      | ok y =>
        cases f c with
        | error e => exact .error e
        | ok z => exact .ok (join_assoc kind x y z)

/-- The same where nothing but the grouping differs. -/
lemma eq_of_join {ε α : Type} {f : Filter → Except ε α} (join : Connective → α → α → α)
    {negate : α → α}
    (hlogical : ∀ kind a b, f (.logical kind a b) = do return join kind (← f a) (← f b))
    (hnot : ∀ a, f (.not a) = do return negate (← f a))
    (join_assoc : ∀ kind x y z, join kind (join kind x y) z = join kind x (join kind y z)) {a b : Filter}
    (h : Regrouped Eq a b) : f a = f b := by
  have hf : Respects Eq (Agrees Eq) f := by
    refine .of_join join negate eq_equivalence ?_ hlogical hnot ?_ join_assoc ?_
    · rintro field op v _ rfl
      exact (Agrees.equivalence eq_equivalence).refl _
    · rintro kind x _ y _ rfl rfl
      rfl
    · rintro x _ rfl
      rfl
  exact (hf.of_regrouped h).eq

end Respects

/-! ## Chains -/

/-- The operands of the chain of a connective that a filter is. -/
def operands (kind : Connective) : Filter → List Filter
  | logical k left right =>
    if k = kind then left.operands kind ++ right.operands kind else [logical k left right]
  | t => [t]

lemma operands_self (kind : Connective) (left right : Filter) :
    (logical kind left right).operands kind = left.operands kind ++ right.operands kind := if_pos rfl

lemma operands_of_ne {kind other : Connective} (h : other ≠ kind) (left right : Filter) :
    (logical other left right).operands kind = [logical other left right] := if_neg h

/-- The chain of some operands, grouped to the right. -/
def chain (kind : Connective) (first : Filter) : List Filter → Filter
  | [] => first
  | next :: rest => logical kind first (chain kind next rest)

lemma Regrouped.chain_append (kind : Connective) (first next : Filter) (front rest : List Filter) :
    Regrouped R (.logical kind (chain kind first front) (chain kind next rest))
      (chain kind first (front ++ next :: rest)) := by
  induction front generalizing first with
  | nil => exact .refl _
  | cons second front ih => exact .trans (.assoc kind _ _ _) (.logical kind (.refl _) (ih second))

lemma Regrouped.chain_congr (kind : Connective) {first first' : Filter} {rest rest' : List Filter}
    (hfirst : Regrouped R first first') (hrest : List.Forall₂ (Regrouped R) rest rest') :
    Regrouped R (chain kind first rest) (chain kind first' rest') := by
  induction hrest generalizing first first' with
  | nil => exact hfirst
  | cons hnext _ ih => exact .logical kind hfirst (ih hnext)

/-- A filter is the chain of its operands. -/
lemma exists_chain (R : Value → Value → Prop) (kind : Connective) (t : Filter) :
    ∃ first rest, t.operands kind = first :: rest ∧ Regrouped R t (chain kind first rest) := by
  induction t with
  | comparison field op value => exact ⟨_, [], rfl, .refl _⟩
  | not child => exact ⟨_, [], rfl, .refl _⟩
  | logical k left right ihleft ihright =>
    by_cases hkind : k = kind
    · subst hkind
      obtain ⟨first, front, hleft, hl⟩ := ihleft
      obtain ⟨next, rest, hright, hr⟩ := ihright
      refine ⟨first, front ++ next :: rest, ?_, ?_⟩
      · rw [operands_self, hleft, hright, List.cons_append]
      · exact .trans (.logical k hl hr) (.chain_append k first next front rest)
    · exact ⟨_, [], operands_of_ne hkind left right, .refl _⟩

/-- Filters are regroupings of each other if the operands of their chains are. -/
lemma Regrouped.of_operands (kind : Connective) {a b : Filter}
    (h : List.Forall₂ (Regrouped R) (a.operands kind) (b.operands kind)) : Regrouped R a b := by
  obtain ⟨first, rest, ha, hchain⟩ := exists_chain R kind a
  obtain ⟨first', rest', hb, hchain'⟩ := exists_chain R kind b
  rw [ha, hb] at h
  obtain ⟨hfirst, hrest⟩ := List.forall₂_cons.1 h
  exact .trans hchain (.trans (.chain_congr kind hfirst hrest) (.symm hchain'))

end Filter

end FilterLang
