import FilterLang.Proofs.Filter.RoundTrip

/-!
# How deep a filter can get

The limit on nesting counts the levels that are open while a query is read.  A level is given back at
the end of a parenthesis, of a `not` or of a chain, but the filter that was read there stays, as the
first operand of whatever follows.  So the depth of a filter is not bounded by the levels alone: a
chain puts one part above its first operand for each further one, a disjunction does so on top of its
first conjunction, and a parenthesis starts again with one level less.

`Phrase.depth_le` adds this up: with `n` levels a filter is at most `n * n + n + 2` deep.
-/

namespace FilterLang

namespace Grammar

/-- How deep an operand can get that needs a number of levels. -/
def operandDepth : Nat → Nat
  | 0 => 1
  | n + 1 => n * n + n + 2

lemma operandDepth_le_succ (n : Nat) : operandDepth n + 2 * n ≤ operandDepth (n + 1) := by
  cases n with
  | zero => decide
  | succ n =>
    simp only [operandDepth]
    nlinarith

lemma operandDepth_lt_succ (n : Nat) : operandDepth n + 1 ≤ operandDepth (n + 1) := by
  cases n with
  | zero => decide
  | succ n =>
    simp only [operandDepth]
    nlinarith

lemma operandDepth_mono {m n : Nat} (h : m ≤ n) : operandDepth m ≤ operandDepth n :=
  monotone_nat_of_le_succ (fun k => Nat.le_of_succ_le (operandDepth_lt_succ k)) h

/-- How deep a phrase can get that needs a number of levels and joins a number of operands. -/
def depthBound : Category → Nat → Nat → Nat
  | .operand, need, _ => operandDepth need
  | .conjunction, need, folds => operandDepth need + folds
  | .filter, need, folds => operandDepth need + need + folds

end Grammar

open Grammar (operandDepth depthBound)
open Lexer (Lexable)

lemma Filter.depth_logical (kind : Connective) (left right : Filter) :
    (logical kind left right).complexity.depth =
      max left.complexity.depth right.complexity.depth + 1 := rfl

lemma Filter.depth_not (child : Filter) : (not child).complexity.depth = child.complexity.depth + 1 :=
  rfl

/-- The depth of a phrase is bounded by the levels that it needs. -/
lemma Phrase.depth_le {category : Grammar.Category} (phrase : Phrase category) :
    phrase.toFilter.complexity.depth ≤ depthBound category phrase.need phrase.folds := by
  induction phrase with
  | comparison => exact le_refl 1
  | group inner ih =>
    have hfolds := inner.folds_le_need
    have hstep := Grammar.operandDepth_le_succ inner.need
    simp only [toFilter, need, depthBound] at ih ⊢
    omega
  | not child ih =>
    have hstep := Grammar.operandDepth_lt_succ child.need
    simp only [toFilter, need, depthBound, Filter.depth_not] at ih ⊢
    omega
  | operand first ih => exact ih
  | and left right ihleft ihright =>
    simp only [toFilter, need, folds, depthBound, Filter.depth_logical] at ihleft ihright ⊢
    set n := max left.need (left.folds + 1 + right.need) with hn
    have hleft : operandDepth left.need ≤ operandDepth n := Grammar.operandDepth_mono (by omega)
    have hright : operandDepth right.need ≤ operandDepth n := Grammar.operandDepth_mono (by omega)
    omega
  | conjunction first ih =>
    have hfolds := first.folds_le_need
    simp only [toFilter, need, folds, depthBound] at ih ⊢
    omega
  | or left right ihleft ihright =>
    -- the last conjunction may be as deep as the first: its own operands took levels of their own
    have hfolds := right.folds_le_need
    simp only [toFilter, need, folds, depthBound, Filter.depth_logical] at ihleft ihright ⊢
    set n := max left.need (left.folds + 1 + right.need) with hn
    have hleft : operandDepth left.need ≤ operandDepth n := Grammar.operandDepth_mono (by omega)
    have hright : operandDepth right.need ≤ operandDepth n := Grammar.operandDepth_mono (by omega)
    omega

namespace Filter

/-- The depth that a limit on nesting allows. -/
lemma depth_le_operandDepth {maxNesting : Nat} {text : String} {t : Filter}
    (h : parseWithin maxNesting text = .ok t) :
    t.complexity.depth ≤ operandDepth maxNesting + 2 * maxNesting := by
  obtain ⟨phrase, rfl, hneed, -⟩ := parseWithin_eq_ok_iff_lexes.mp h
  have hdepth := phrase.depth_le
  have hfolds := phrase.folds_le_need
  have hmono := Grammar.operandDepth_mono hneed
  simp only [depthBound] at hdepth
  omega

/-! ### A filter deeper than the levels it takes -/

/-- A number of negations in front of a filter. -/
def negations : Nat → Filter → Filter
  | 0, t => t
  | n + 1, t => not (negations n t)

lemma comparisons_negations (n : Nat) (t : Filter) : (negations n t).comparisons = t.comparisons := by
  induction n with
  | zero => rfl
  | succ n ih => exact ih

lemma depth_negations (n : Nat) (t : Filter) :
    (negations n t).complexity.depth = t.complexity.depth + n := by
  induction n with
  | zero => rfl
  | succ n ih =>
    rw [negations, depth_not, ih]
    omega

/-- Negations take one level each. -/
lemma operandNeed_negations (n : Nat) (t : Filter) :
    operandNeed (negations n t) (negations n t).printNeed = operandNeed t t.printNeed + n := by
  induction n with
  | zero => rfl
  | succ n ih =>
    change 1 + operandNeed (negations n t) (negations n t).printNeed = _
    rw [ih]
    omega

/-- A comparison that can be written. -/
def leaf : Filter := .comparison "a" .eq (.scalar .null)

/-- A conjunction whose first operand takes a number of levels.  It gives them back before the second
operand takes one. -/
def overhang (levels : Nat) : Filter := .and (negations levels leaf) leaf

lemma overhang_comparisons (levels : Nat) :
    (overhang levels).comparisons = leaf.comparisons ++ leaf.comparisons := by
  rw [overhang, comparisons, comparisons_negations]

lemma overhang_writable (levels : Nat) : (overhang levels).Writable := by
  have hfield : Lexable "a" := by decide +kernel
  constructor
  · rw [overhang_comparisons]
    simpa [leaf, comparisons] using hfield
  · rw [overhang_comparisons]
    decide

lemma overhang_isFinite (levels : Nat) : (overhang levels).isFinite = true := by
  rw [isFinite, overhang_comparisons]
  decide

lemma overhang_printNeed (levels : Nat) : (overhang levels).printNeed = max levels 1 := by
  change max (operandNeed (negations levels leaf) (negations levels leaf).printNeed) 1 = _
  rw [operandNeed_negations]
  change max (0 + levels) 1 = _
  rw [Nat.zero_add]

lemma overhang_depth (levels : Nat) : (overhang levels).complexity.depth = levels + 2 := by
  rw [overhang, depth_logical, depth_negations]
  change max (1 + levels) 1 + 1 = _
  omega

/-- **What the limit on nesting says about depth.**  A filter that is read with `maxNesting` levels is
at most `maxNesting * maxNesting + maxNesting + 2` deep.  It need not be within `maxNesting` parts above
a comparison: that holds of every query only if no level is allowed at all. -/
theorem depth_le_of_maxNesting (maxNesting : Nat) :
    (∀ text t, parseWithin maxNesting text = .ok t →
      t.complexity.depth ≤ maxNesting * maxNesting + maxNesting + 2) ∧
    ((∀ text t, parseWithin maxNesting text = .ok t → t.complexity.depth ≤ maxNesting + 1) ↔
      maxNesting = 0) := by
  refine ⟨fun text t h => ?_, fun hall => ?_, ?_⟩
  · have hdepth := depth_le_operandDepth h
    cases maxNesting with
    | zero => exact le_trans hdepth (by decide)
    | succ n =>
      simp only [operandDepth] at hdepth
      nlinarith
  · by_contra hpos
    -- the negations take every level, and the conjunction above them takes one of these again
    have hneed : (overhang maxNesting).printNeed ≤ maxNesting := by
      rw [overhang_printNeed]
      omega
    have hdepth := hall _ _ (parseWithin_print_eq_ok (overhang_writable maxNesting)
      (overhang_isFinite maxNesting) hneed)
    rw [overhang_depth] at hdepth
    omega
  · rintro rfl text t h
    exact depth_le_operandDepth h

end Filter

end FilterLang
