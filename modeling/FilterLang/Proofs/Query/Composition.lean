import FilterLang.Proofs.Filter.RoundTrip
import FilterLang.Proofs.Query.Extension

/-!
# Queries built from the texts of other queries

Whoever has the texts `p` and `q` of two queries may write `(p) and (q)` and expects the conjunction of what
the two stand for.  Around a text in parentheses and in front of a blank every token ends where it did
(`Lexer.Lexes.followed`), so the tokens of the new text are those of a phrase that is built from the phrases
of the parts: `Phrase.Spans` carries a text to its phrase, and there is one lemma for each way of building.

Without parentheses the parts may come apart.  Behind the chain `a or b` a further `and c` joins `b` alone,
which `Phrase.attach` does.  The tree then has another shape, but its size is that of the parts.
-/

namespace FilterLang

open Lexer (Lexes Parts)

/-! ### The phrase of a text -/

namespace Phrase

variable {category : Grammar.Category} {text behind : String}

/-- The tokens of the text are those of the phrase. -/
def Spans (phrase : Phrase category) (text : String) : Prop :=
  Lexes text.toList (phrase.tokens ++ [.eof]) []

/-- Behind the text of a phrase, another text is cut into the tokens that it has on its own. -/
lemma Spans.followed {phrase : Phrase category} (h : phrase.Spans text) {more rest : List Char}
    {vs : List Token} (hmore : Parts more) (hvs : vs ≠ []) (h' : Lexes more vs rest) :
    Lexes (text.toList ++ more) (phrase.tokens ++ vs) rest :=
  Lexes.followed hmore h phrase.eof_notMem_tokens hvs h'

lemma Spans.group {phrase : Phrase .filter} (h : phrase.Spans text) :
    (Phrase.group phrase).Spans s!"({text})" := by
  have hclose : Lexes [')'] [.rparen, .eof] [] := .cons rfl (.single rfl)
  have hinner := h.followed (Lexer.parts_cons rfl []) (by simp) hclose
  have hopen := (Lexer.lexes_open _).append hinner
  simpa [Spans, tokens, toString] using hopen

lemma Spans.not {phrase : Phrase .operand} (h : phrase.Spans text) :
    (Phrase.not phrase).Spans s!"not {text}" := by
  have hnot := (Lexer.lexes_not text.toList).append (Lexes.blank (by simp) h)
  simpa [Spans, tokens, toString] using hnot

/-- A connective between the texts of two phrases. -/
lemma Spans.lexes_logical {category' : Grammar.Category} {left : Phrase category}
    {right : Phrase category'} (hleft : left.Spans text) (hright : right.Spans behind)
    (kind : Connective) :
    Lexes s!"{text} {kind} {behind}".toList (left.tokens ++ kind.token :: (right.tokens ++ [.eof])) [] := by
  have hmore := (Lexer.lexes_connective kind behind.toList).append (Lexes.blank (by simp) hright)
  have hall := hleft.followed (Lexer.parts_cons rfl _) (by simp) (Lexes.blank (by simp) hmore)
  simpa [toString] using hall

lemma Spans.join {left right : Phrase .operand} (hleft : left.Spans text) (hright : right.Spans behind)
    (kind : Connective) : (Phrase.join left right kind).Spans s!"{text} {kind} {behind}" := by
  rw [Spans, tokens_join, List.append_assoc]
  exact hleft.lexes_logical hright kind

/-! ### One more conjunct -/

/-- A further operand behind `and`.  The last conjunction of the filter takes it. -/
def attach : Phrase .filter → Phrase .operand → Phrase .filter
  | conjunction first, further => .conjunction (.and first further)
  | or left right, further => .or left (.and right further)

lemma tokens_attach (phrase : Phrase .filter) (further : Phrase .operand) :
    (phrase.attach further).tokens = phrase.tokens ++ .and :: further.tokens := by
  cases phrase with
  | conjunction first => rfl
  | or left right => simp [attach, tokens]

/-- A further conjunct needs its own level and otherwise only what it needs itself. -/
lemma need_attach (phrase : Phrase .filter) (further : Phrase .operand) :
    phrase.need ≤ (phrase.attach further).need ∧
      (phrase.attach further).need ≤ phrase.need + further.need + 1 := by
  cases phrase with
  | conjunction first =>
    have hfolds := first.folds_le_need
    simp only [attach, need]
    omega
  | or left right =>
    have hfolds := right.folds_le_need
    simp only [attach, need]
    omega

lemma Spans.attach {phrase : Phrase .filter} {further : Phrase .operand} (h : phrase.Spans text)
    (hfurther : further.Spans behind) : (phrase.attach further).Spans s!"{text} and {behind}" := by
  have hlexes := h.lexes_logical hfurther .and
  rw [Spans, tokens_attach, List.append_assoc]
  simpa [toString, Connective.name, Connective.token] using hlexes

/-- A phrase that stands for a comparison is no chain. -/
lemma exists_operand {phrase : Phrase .filter} {field : String} {op : Operator} {value : Value}
    (h : phrase.toFilter = .comparison field op value) :
    ∃ single : Phrase .operand, phrase = .conjunction (.operand single) := by
  cases phrase with
  | conjunction first =>
    cases first with
    | operand single => exact ⟨single, rfl⟩
    | and left right => exact absurd h (by simp [toFilter])
  | or left right => exact absurd h (by simp [toFilter])

end Phrase

namespace Filter

/-- The filter `t'` is `t` with the further conjunct `c`: for the whole of `t`, or for the last of the
alternatives of which `t` consists. -/
inductive Conjoins : Filter → Filter → Filter → Prop
  | whole (t c : Filter) : Conjoins t c (.and t c)
  | last (left right c : Filter) : Conjoins (.or left right) c (.or left (.and right c))

lemma conjoins_attach (phrase : Phrase .filter) (further : Phrase .operand) :
    Conjoins phrase.toFilter further.toFilter (phrase.attach further).toFilter := by
  cases phrase with
  | conjunction first => exact .whole _ _
  | or left right => exact .last _ _ _

lemma Conjoins.nodes {t c t' : Filter} (h : Conjoins t c t') :
    t'.complexity.nodes = t.complexity.nodes + c.complexity.nodes + 1 := by
  cases h with
  | whole => rfl
  | last left right =>
    simp only [complexity]
    omega

lemma Conjoins.clauses {t c t' : Filter} (h : Conjoins t c t') :
    t'.complexity.clauses = t.complexity.clauses + c.complexity.clauses := by
  cases h with
  | whole => rfl
  | last left right => exact (Nat.add_assoc _ _ _).symm

/-! ### Texts of queries -/

/-- The text is the filter `t` under every limit on nesting from `need` on, and under a lower limit the
limit is what is wrong with it. -/
structure ReadsWith (need : Nat) (text : String) (t : Filter) : Prop where
  reads : ∀ maxNesting, need ≤ maxNesting → parseWithin maxNesting text = .ok t
  tooDeep : ∀ maxNesting, maxNesting < need →
    ∃ position, parseWithin maxNesting text = .error (.nestingTooDeep maxNesting position)

lemma readsWith_of_spans {phrase : Phrase .filter} {text : String} (h : phrase.Spans text) :
    ReadsWith phrase.need text phrase.toFilter where
  reads _ hneed := parseWithin_eq_ok_iff_lexes.2 ⟨phrase, rfl, hneed, h⟩
  tooDeep _ hneed := parseWithin_tooDeep phrase hneed h

lemma exists_spans {maxNesting : Nat} {text : String} {t : Filter}
    (h : parseWithin maxNesting text = .ok t) :
    ∃ phrase : Phrase .filter, phrase.Spans text ∧ phrase.toFilter = t ∧ phrase.need ≤ maxNesting := by
  obtain ⟨phrase, htree, hneed, hspans⟩ := parseWithin_eq_ok_iff_lexes.1 h
  exact ⟨phrase, hspans, htree, hneed⟩

/-- The text of a query and the text of a comparison with `and` between them. -/
lemma readsWith_attach {maxNesting : Nat} {phrase : Phrase .filter} {text c : String} {field : String}
    {op : Operator} {value : Value} (h : phrase.Spans text)
    (hc : parseWithin maxNesting c = .ok (.comparison field op value)) :
    ∃ j k t, j ≤ maxNesting ∧ ReadsWith j c (.comparison field op value) ∧ phrase.need ≤ k ∧
      k ≤ phrase.need + j + 1 ∧ ReadsWith k s!"{text} and {c}" t ∧
      Conjoins phrase.toFilter (.comparison field op value) t := by
  obtain ⟨whole, hwhole, htree, hle⟩ := exists_spans hc
  obtain ⟨single, rfl⟩ := Phrase.exists_operand htree
  have hneed := phrase.need_attach single
  have hconjoins := conjoins_attach phrase single
  rw [show single.toFilter = .comparison field op value from htree] at hconjoins
  exact ⟨_, _, _, hle, htree ▸ readsWith_of_spans hwhole, hneed.1, hneed.2,
    readsWith_of_spans (h.attach hwhole), hconjoins⟩

/-- **Texts of queries compose.**  Let `p` and `q` be the texts of the filters `tp` and `tq`.  Then `(q)`,
`not (q)`, `(p) and (q)` and `(p) or (q)` are the texts of `tq`, of its negation and of the two joined:
the only thing that can be wrong with them is the nesting, and they need at most two levels more than their
parts.  Also, if `c` is the text of a comparison, then `q and c` is the text of a filter with two nodes and
one clause more than `tq`, unless it nests too deep: the comparison is a further conjunct, of `tq` or, where
`q` is a chain of alternatives, of the last of them. -/
theorem readsWith_composed {maxNesting : Nat} {p q : String} {tp tq : Filter}
    (hp : parseWithin maxNesting p = .ok tp) (hq : parseWithin maxNesting q = .ok tq) :
    ∃ m n, m ≤ maxNesting ∧ n ≤ maxNesting ∧ ReadsWith m p tp ∧ ReadsWith n q tq ∧
      ReadsWith (n + 1) s!"({q})" tq ∧
      ReadsWith (n + 2) s!"not ({q})" (.not tq) ∧
      (∀ kind : Connective,
        ReadsWith (max (m + 1) (n + 2)) s!"({p}) {kind} ({q})" (.logical kind tp tq)) ∧
      ∀ c field op value, parseWithin maxNesting c = .ok (.comparison field op value) →
        ∃ j k t, j ≤ maxNesting ∧ ReadsWith j c (.comparison field op value) ∧ n ≤ k ∧ k ≤ n + j + 1 ∧
          ReadsWith k s!"{q} and {c}" t ∧ Conjoins tq (.comparison field op value) t ∧
          t.complexity.nodes = tq.complexity.nodes + 2 ∧
          t.complexity.clauses = tq.complexity.clauses + 1 := by
  obtain ⟨l, hl, rfl, hm⟩ := exists_spans hp
  obtain ⟨r, hr, rfl, hn⟩ := exists_spans hq
  refine ⟨l.need, r.need, hm, hn, readsWith_of_spans hl, readsWith_of_spans hr, ?_, ?_, ?_, ?_⟩
  · have hgroup : (Phrase.conjunction (.operand (.group r))).Spans s!"({q})" := hr.group
    exact readsWith_of_spans hgroup
  · have hnot : (Phrase.conjunction (.operand (.not (.group r)))).Spans s!"not ({q})" := hr.group.not
    exact readsWith_of_spans hnot
  · intro kind
    have hjoin : (Phrase.join (.group l) (.group r) kind).Spans s!"({p}) {kind} ({q})" := by
      simpa [Phrase.Spans, toString] using hl.group.join hr.group kind
    have hreads := readsWith_of_spans hjoin
    rwa [Phrase.need_join, Phrase.toFilter_join] at hreads
  · intro c field op value hc
    obtain ⟨j, k, t, hle, hj, hfrom, hto, hk, ht⟩ := readsWith_attach hr hc
    exact ⟨j, k, t, hle, hj, hfrom, hto, hk, ht, ht.nodes, ht.clauses⟩

theorem readsWith_composed_alternatives :
    let one (field : String) (n : Int64) : Filter := .comparison field .eq (.scalar (.int n))
    parse "( a eq 1) and (b eq 2 or c eq 3 )" =
      .ok (.and (one "a" 1) (.or (one "b" 2) (one "c" 3))) ∧
    ∃ t, parse "b eq 2 or c eq 3  and (d eq 4)" = .ok t ∧ t.complexity.nodes = 5 ∧
      t.complexity.clauses = 3 := by
  intro one
  have hp : parseWithin 1 " a eq 1" = .ok (one "a" 1) := by rfl
  have hq : parseWithin 1 "b eq 2 or c eq 3 " = .ok (.or (one "b" 2) (one "c" 3)) := by rfl
  have hc : parseWithin 1 "(d eq 4)" = .ok (one "d" 4) := by rfl
  obtain ⟨m, n, hm, hn, -, -, -, -, hjoin, hattach⟩ := readsWith_composed hp hq
  obtain ⟨j, k, t, hj, -, -, hk, hreads, -, hnodes, hclauses⟩ := hattach _ _ _ _ hc
  constructor
  · rw [← parseWithin_defaultMaxNesting]
    exact (hjoin .and).reads defaultMaxNesting (show _ ≤ 256 by omega)
  · refine ⟨t, ?_, hnodes, hclauses⟩
    rw [← parseWithin_defaultMaxNesting]
    exact hreads.reads defaultMaxNesting (show _ ≤ 256 by omega)

end Filter

end FilterLang
