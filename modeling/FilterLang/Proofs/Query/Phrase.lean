import FilterLang.Query.Parser
import Mathlib.Tactic

/-!
# The grammar of queries

A `Phrase` is a derivation in the grammar

    filter      := conjunction ("or" conjunction)*
    conjunction := operand ("and" operand)*
    operand     := "not" operand | "(" filter ")" | comparison
    comparison  := name operator literal

It has the tokens that it derives, the filter that they stand for, and the nesting that they need.
A chain is built from the left, as its filter is: `x₀ and x₁ and x₂` is the chain `x₀ and x₁`, joined
with the operand `x₂`.

The need of a phrase is the least limit on nesting under which it can be read.  A parenthesis and a
`not` take one level each, and the `i`-th further operand of a chain is read with `i` levels taken:
the need of `x₀ and x₁ and … and xₖ` is the largest of the need of `x₀` and of `i` plus the need of
`xᵢ`.
-/

namespace FilterLang

/-- The literal behind an operator stands for this value of the comparison.  A list operator takes a
list and nothing else, `between` takes a list of two ends and nothing else, and any other operator
takes the literal as it is. -/
inductive Operator.Reads : Operator → Value → Value → Prop
  | list {op : Operator} (items : List Scalar) (takes : op.takesList = true) :
      Reads op (.list items) (.list items)
  | range (lower upper : Scalar) : Reads .between (.list [lower, upper]) (.range lower upper)
  | plain {op : Operator} (value : Value) (notList : op.takesList = false)
      (notRange : op ≠ .between) : Reads op value value

/-- The parser pairs an operator with a literal just as the grammar does. -/
lemma Grammar.pairValue_eq_ok_iff {op : Operator} {literal value : Value} :
    pairValue op literal = .ok value ↔ op.Reads literal value := by
  constructor
  · intro h
    unfold pairValue at h
    split at h
    · obtain rfl := Except.ok.inj h
      exact .list _ rfl
    · obtain rfl := Except.ok.inj h
      exact .list _ rfl
    · exact absurd h (by simp)
    · exact absurd h (by simp)
    · obtain rfl := Except.ok.inj h
      exact .range _ _
    · exact absurd h (by simp)
    · exact absurd h (by simp)
    · rename_i hin hnotIn hbetween _
      obtain rfl := Except.ok.inj h
      refine .plain _ ?_ ?_
      · cases op <;> simp_all [Operator.takesList]
      · simp_all
  · rintro (⟨items, htakes⟩ | ⟨lower, upper⟩ | ⟨_, hlist, hrange⟩)
    · cases op <;> first | rfl | exact absurd htakes (by decide)
    · rfl
    · cases op <;> first | rfl | exact absurd hlist (by decide) | exact absurd rfl hrange

namespace Grammar

/-- The parts of speech of the grammar. -/
inductive Category where
  | operand
  | conjunction
  | filter

end Grammar

open Grammar (Category)

/-- A derivation in the grammar of queries. -/
inductive Phrase : Category → Type
  | comparison (field : String) (op : Operator) (literal value : Value)
      (reads : op.Reads literal value) : Phrase .operand
  | group (inner : Phrase .filter) : Phrase .operand
  | not (child : Phrase .operand) : Phrase .operand
  /-- A conjunction of one operand. -/
  | operand (first : Phrase .operand) : Phrase .conjunction
  | and (left : Phrase .conjunction) (right : Phrase .operand) : Phrase .conjunction
  /-- A filter of one conjunction. -/
  | conjunction (first : Phrase .conjunction) : Phrase .filter
  | or (left : Phrase .filter) (right : Phrase .conjunction) : Phrase .filter

namespace Phrase

variable {category : Category}

/-- The tokens of a phrase. -/
def tokens : {category : Category} → Phrase category → List Token
  | _, comparison field op literal _ _ => [.identifier field, .operator op, .literal literal]
  | _, group inner => .lparen :: (inner.tokens ++ [.rparen])
  | _, not child => .not :: child.tokens
  | _, operand first => first.tokens
  | _, and left right => left.tokens ++ .and :: right.tokens
  | _, conjunction first => first.tokens
  | _, or left right => left.tokens ++ .or :: right.tokens

/-- The filter that a phrase stands for. -/
def toFilter : {category : Category} → Phrase category → Filter
  | _, comparison field op _ value _ => .comparison field op value
  | _, group inner => inner.toFilter
  | _, not child => .not child.toFilter
  | _, operand first => first.toFilter
  | _, and left right => .and left.toFilter right.toFilter
  | _, conjunction first => first.toFilter
  | _, or left right => .or left.toFilter right.toFilter

/-- The number of further operands in the chain that a phrase is. -/
def folds : {category : Category} → Phrase category → Nat
  | _, and left _ => left.folds + 1
  | _, or left _ => left.folds + 1
  | _, _ => 0

/-- The levels of nesting that a phrase needs. -/
def need : {category : Category} → Phrase category → Nat
  | _, comparison _ _ _ _ _ => 0
  | _, group inner => inner.need + 1
  | _, not child => child.need + 1
  | _, operand first => first.need
  | _, and left right => max left.need (left.folds + 1 + right.need)
  | _, conjunction first => first.need
  | _, or left right => max left.need (left.folds + 1 + right.need)

/-- Every further operand of a chain needs a level. -/
lemma folds_le_need (phrase : Phrase category) : phrase.folds ≤ phrase.need := by
  cases phrase <;> simp only [folds, need] <;> omega

/-- The end of the text is no part of a phrase. -/
lemma eof_notMem_tokens (phrase : Phrase category) : .eof ∉ phrase.tokens := by
  induction phrase <;> simp_all [tokens]

/-- A phrase has a token. -/
lemma tokens_ne_nil (phrase : Phrase category) : phrase.tokens ≠ [] := by
  induction phrase <;> simp_all [tokens]

end Phrase

end FilterLang
