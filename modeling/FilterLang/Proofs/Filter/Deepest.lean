import FilterLang.Proofs.Filter.Depth
import FilterLang.Proofs.Query.Spelling
import Mathlib.Order.Bounds.Defs

/-!
# The deepest filter under a limit on nesting

The bound of `Phrase.depth_le` is reached.  A level that the first operand of a chain has given back can be
taken again by a further operand, so with `n` levels an operand of need `n` can be followed by `n` further
operands of a conjunction, and that conjunction by `n` further alternatives: this is `Phrase.heap`, and it is
`2 * n` parts higher than the operand.  In parentheses it is an operand of need `n + 1`, and the next round
goes on from there (`Phrase.deepest`).  Only the first level is spent better on a `not`, since parentheses
around a single comparison add nothing.
-/

namespace FilterLang

open Grammar (Category Joins operandDepth)

lemma Filter.one_le_depth (t : Filter) : 1 ≤ t.complexity.depth := by
  cases t with
  | comparison => exact le_rfl
  | logical kind left right => exact Nat.le_add_left 1 _
  | not child => exact Nat.le_add_left 1 _

namespace Phrase

/-! ### Chains of one further part -/

/-- A phrase with a number of further parts joined to it, all of them the same. -/
def repeated {chain part : Category} (join : Phrase chain → Phrase part → Phrase chain)
    (first : Phrase chain) (further : Phrase part) : Nat → Phrase chain
  | 0 => first
  | n + 1 => join (repeated join first further n) further

section

variable {chain part : Category} {u : Token} {join : Phrase chain → Phrase part → Phrase chain}
  {first : Phrase chain} {further : Phrase part}

lemma folds_repeated (hjoin : Joins u join) (hfirst : first.folds = 0) (n : Nat) :
    (repeated join first further n).folds = n := by
  induction n with
  | zero => exact hfirst
  | succ n ih => rw [repeated, hjoin.folds, ih]

/-- The last of the further parts is read with the most levels taken. -/
lemma need_repeated (hjoin : Joins u join) (hfirst : first.folds = 0) (hfurther : further.need = 0)
    (n : Nat) : (repeated join first further n).need = max first.need n := by
  induction n with
  | zero => simp [repeated]
  | succ n ih =>
    rw [repeated, hjoin.need, ih, folds_repeated hjoin hfirst, hfurther]
    omega

/-- Every further part is put on top of what is there. -/
lemma depth_repeated
    (hjoin : ∀ left right, (join left right).toFilter.complexity.depth =
      max left.toFilter.complexity.depth right.toFilter.complexity.depth + 1)
    (hfurther : further.toFilter.complexity.depth = 1) (n : Nat) :
    (repeated join first further n).toFilter.complexity.depth =
      first.toFilter.complexity.depth + n := by
  have hpos := first.toFilter.one_le_depth
  induction n with
  | zero => rfl
  | succ n ih =>
    rw [repeated, hjoin, ih, hfurther]
    omega

lemma spellable_repeated (hjoin : Joins u join) (hu : u.Spellable)
    (hfirst : ∀ v ∈ first.tokens, v.Spellable) (hfurther : ∀ v ∈ further.tokens, v.Spellable) (n : Nat) :
    ∀ v ∈ (repeated join first further n).tokens, v.Spellable := by
  induction n with
  | zero => exact hfirst
  | succ n ih =>
    intro v hv
    rw [repeated, hjoin.tokens, List.mem_append, List.mem_cons] at hv
    rcases hv with hv | rfl | hv
    · exact ih v hv
    · exact hu
    · exact hfurther v hv

end

/-! ### The deepest operand -/

/-- An operand under as many conjuncts and alternatives as a number of levels allows. -/
def heap (levels : Nat) (first : Phrase .operand) : Phrase .filter :=
  repeated .or (.conjunction (repeated .and (.operand first) leaf levels)) (.operand leaf) levels

/-- The deepest operand for a number of levels. -/
def deepest : Nat → Phrase .operand
  | 0 => leaf
  | 1 => .not leaf
  | n + 2 => .group (heap (n + 1) (deepest (n + 1)))

lemma need_heap (levels : Nat) (first : Phrase .operand) :
    (heap levels first).need = max first.need levels := by
  have hconjuncts : (repeated .and (.operand first) leaf levels).need = max first.need levels :=
    need_repeated Grammar.joins_and rfl rfl levels
  rw [heap, need_repeated Grammar.joins_or rfl rfl, need, hconjuncts]
  omega

lemma need_deepest (n : Nat) : (deepest n).need = n := by
  induction n using deepest.induct with
  | case1 => rfl
  | case2 => rfl
  | case3 n ih =>
    rw [deepest, need, need_heap, ih]
    omega

lemma depth_heap (levels : Nat) (first : Phrase .operand) :
    (heap levels first).toFilter.complexity.depth = first.toFilter.complexity.depth + 2 * levels := by
  have hconjuncts : (repeated .and (.operand first) leaf levels).toFilter.complexity.depth =
      first.toFilter.complexity.depth + levels := depth_repeated (fun _ _ => rfl) rfl levels
  rw [heap, depth_repeated (fun _ _ => rfl) rfl, toFilter, hconjuncts]
  omega

/-- The deepest operand is as deep as an operand can be. -/
lemma depth_deepest (n : Nat) : (deepest n).toFilter.complexity.depth = operandDepth n := by
  induction n using deepest.induct with
  | case1 => rfl
  | case2 => rfl
  | case3 n ih =>
    rw [deepest, toFilter, depth_heap, ih, operandDepth, operandDepth]
    ring

lemma spellable_heap (levels : Nat) {first : Phrase .operand} (h : ∀ u ∈ first.tokens, u.Spellable) :
    ∀ u ∈ (heap levels first).tokens, u.Spellable := by
  have hconjuncts : ∀ u ∈ (repeated .and (.operand first) leaf levels).tokens, u.Spellable :=
    spellable_repeated Grammar.joins_and (Token.spellable_connective .and) h spellable_leaf levels
  exact spellable_repeated Grammar.joins_or (Token.spellable_connective .or) hconjuncts spellable_leaf
    levels

lemma spellable_deepest (n : Nat) : ∀ u ∈ (deepest n).tokens, u.Spellable := by
  induction n using deepest.induct with
  | case1 => exact spellable_leaf
  | case2 =>
    intro u hu
    rcases List.mem_cons.1 hu with rfl | hu
    · exact Token.spellable_not
    · exact spellable_leaf u hu
  | case3 n ih =>
    intro u hu
    rw [deepest, tokens, List.mem_cons, List.mem_append, List.mem_singleton] at hu
    rcases hu with rfl | hu | rfl
    · exact Token.spellable_lparen
    · exact spellable_heap (n + 1) ih u hu
    · exact Token.spellable_rparen

end Phrase

namespace Filter

/-- How deep a filter can get under a limit on nesting. -/
lemma exists_parseWithin_depth (maxNesting : Nat) :
    ∃ text t, parseWithin maxNesting text = .ok t ∧
      t.complexity.depth = operandDepth maxNesting + 2 * maxNesting := by
  set phrase := Phrase.heap maxNesting (Phrase.deepest maxNesting) with hphrase
  have hneed : phrase.need ≤ maxNesting := by
    rw [hphrase, Phrase.need_heap, Phrase.need_deepest, max_self]
  obtain ⟨text, hspans⟩ := phrase.exists_spans
    (Phrase.spellable_heap maxNesting (Phrase.spellable_deepest maxNesting))
  refine ⟨text, phrase.toFilter, (readsWith_of_spans hspans).reads maxNesting hneed, ?_⟩
  rw [hphrase, Phrase.depth_heap, Phrase.depth_deepest]

lemma operandDepth_add (maxNesting : Nat) : operandDepth maxNesting + 2 * maxNesting =
    if maxNesting = 0 then 1 else maxNesting * maxNesting + maxNesting + 2 := by
  cases maxNesting with
  | zero => rfl
  | succ n =>
    rw [if_neg (Nat.succ_ne_zero n), operandDepth]
    ring

lemma eq_comparison_of_depth {t : Filter} (h : t.complexity.depth ≤ 1) :
    ∃ field op value, t = comparison field op value := by
  cases t with
  | comparison field op value => exact ⟨field, op, value, rfl⟩
  | logical kind left right =>
    have hpos := left.one_le_depth
    rw [depth_logical] at h
    omega
  | not child =>
    have hpos := child.one_le_depth
    rw [depth_not] at h
    omega

/-- **How deep a query can get.**  With `maxNesting` levels the deepest filters that are read have the depth
`maxNesting * maxNesting + maxNesting + 2`, if there is any level at all.  With none they have the depth `1`,
because only a comparison on its own is read. -/
theorem isGreatest_depth (maxNesting : Nat) :
    IsGreatest {depth | ∃ text t, parseWithin maxNesting text = .ok t ∧ t.complexity.depth = depth}
      (if maxNesting = 0 then 1 else maxNesting * maxNesting + maxNesting + 2) ∧
    ∀ text t, parseWithin 0 text = .ok t → ∃ field op value, t = comparison field op value := by
  refine ⟨⟨?_, ?_⟩, fun text t h => ?_⟩
  · rw [← operandDepth_add]
    exact exists_parseWithin_depth maxNesting
  · rintro depth ⟨text, t, h, rfl⟩
    rw [← operandDepth_add]
    exact depth_le_operandDepth h
  · exact eq_comparison_of_depth (depth_le_operandDepth h)

end Filter

end FilterLang
