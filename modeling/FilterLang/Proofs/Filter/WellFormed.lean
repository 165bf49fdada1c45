import FilterLang.Proofs.Query.Composition
import FilterLang.Proofs.Query.Numerals
import FilterLang.Proofs.Target.Fields

/-!
# The filters that queries are

A filter that was read off a text is well formed: its names can be written, its operators have values of
their kind, and no number of it is the missing result.  Nothing else is true of all of them, since every
well-formed filter is read off some text (`Filter.exists_spans_of_wellFormed`).  The text is not the printed
one: an infinite number has to be written as a numeral that is too large (`Lexer.spelled_infinite`).
-/

namespace FilterLang

/-! ### Literals as a query may write them -/

namespace Lexer

/-- A numeral that is not finite is infinite. -/
lemma numberValue_of_not_isFinite {negative : Bool} {run : List Char}
    (h : (numberValue negative run).isFinite = false) :
    numberValue negative run = .float (.infinite negative) := by
  have hsigned {magnitude : Option Magnitude}
      (h : (Scalar.float (.signed negative magnitude)).isFinite = false) :
      Scalar.float (.signed negative magnitude) = .float (.infinite negative) := by
    rw [isFinite_signed_eq_false_iff.1 h, Binary64.signed]
  unfold numberValue at h ⊢
  split at h
  · rename_i hpoint
    rw [if_pos hpoint]
    exact hsigned h
  · rename_i hpoint
    rw [if_neg hpoint]
    dsimp only at h ⊢
    split at h
    · rename_i literal hliteral
      rw [(lt_overflow_of_ofInt? hliteral).1] at h
      cases h
    · exact hsigned h

/-- A literal as a query may write it, on its own and in a list. -/
structure Spelled (text : List Char) (literal : Scalar) : Prop extends IsElement text literal where
  token : ∀ rest, Ends rest → token (text ++ rest) = .ok (.literal (.scalar literal), rest)

lemma spelled_print {literal : Scalar} (h : literal.isFinite = true) :
    Spelled literal.print.toList literal where
  head := print_head literal
  reads _ := element_print (printedForm h)
  token _ := token_print_scalar (printedForm h)

/-- The digits of a number that is too large for the format. -/
def tooManyDigits : List Char := '1' :: List.replicate 309 '0'

lemma numberValue_tooManyDigits (negative : Bool) :
    numberValue negative tooManyDigits = .float (.infinite negative) := by
  refine numberValue_of_not_isFinite (isFinite_numberValue.2 ?_)
  unfold Overflows
  decide +kernel

/-- An infinite number is written with its sign and too many digits. -/
lemma spelled_infinite (negative : Bool) :
    Spelled (signText negative ++ tooManyDigits) (.float (.infinite negative)) := by
  have hrun : ∀ c ∈ tooManyDigits, isNumberChar c = true := by
    have hall : tooManyDigits.all isNumberChar = true := by decide +kernel
    exact List.all_eq_true.1 hall
  have hform : wellFormedNumber tooManyDigits = true := wellFormedNumber_of_notMem (by decide +kernel)
  have hstarts (rest : List Char) : startsNumber (signText negative ++ (tooManyDigits ++ rest)) = true :=
    startsNumber_signText negative rfl _
  have hnumber {rest : List Char} (hrest : Ends rest) :
      number (signText negative ++ (tooManyDigits ++ rest)) = .ok (.float (.infinite negative), rest) := by
    rw [number_run hrun hform hrest, numberValue_tooManyDigits]
  refine ⟨⟨?_, ?_⟩, ?_⟩
  · cases negative <;> exact ⟨_, _, rfl, by decide, by decide⟩
  · intro rest hrest
    rw [List.append_assoc, element_number (hstarts rest), hnumber hrest]
  · intro rest hrest
    rw [List.append_assoc, token_number (hstarts rest), hnumber hrest, literalToken]

/-- Every literal but the missing result can be written. -/
lemma exists_spelled {literal : Scalar} (h : literal ≠ .float .nan) : ∃ text, Spelled text literal := by
  cases hfinite : literal.isFinite with
  | true => exact ⟨_, spelled_print hfinite⟩
  | false =>
    cases literal with
    | float value =>
      cases value with
      | nan => exact absurd rfl h
      | infinite negative => exact ⟨_, spelled_infinite negative⟩
      | finite negative x => cases hfinite
    | _ => cases hfinite

lemma exists_listed {items : List Scalar} (hnil : items ≠ []) (h : ∀ s ∈ items, s ≠ .float .nan) :
    ∃ text, Listed text items := by
  induction items with
  | nil => exact absurd rfl hnil
  | cons literal items ih =>
    obtain ⟨text, htext⟩ := exists_spelled (h literal (by simp))
    by_cases hitems : items = []
    · subst hitems
      exact ⟨text, .single htext.toIsElement⟩
    · obtain ⟨more, hmore⟩ := ih hitems fun s hs => h s (List.mem_cons_of_mem _ hs)
      exact ⟨_, .cons htext.toIsElement hmore⟩

/-- The literals of a list can be written between brackets. -/
lemma exists_lexes_list {items : List Scalar} (h : ∀ s ∈ items, s ≠ .float .nan) :
    ∃ text, ∀ rest, Lexes (text ++ rest) [.literal (.list items)] rest := by
  have hread {text : List Char} (hlist : ∀ rest, list ('[' :: (text ++ ']' :: rest)) = .ok (items, rest)) :
      ∃ text, ∀ rest, Lexes (text ++ rest) [.literal (.list items)] rest := by
    refine ⟨'[' :: (text ++ [']']), fun rest => .single ?_⟩
    have htoken : token ('[' :: (text ++ ']' :: rest)) = .ok (.literal (.list items), rest) := by
      simp only [token, hlist rest]
      rfl
    rwa [List.cons_append, List.append_assoc, Text.skipBlanks_of_not_blank (by decide)]
  by_cases hnil : items = []
  · subst hnil
    exact @hread [] fun rest => rfl
  · obtain ⟨text, htext⟩ := exists_listed hnil h
    exact hread htext.list

/-- Every value without the missing result can be written. -/
lemma exists_lexes_value {value : Value} (h : ∀ s ∈ value.literals, s ≠ .float .nan) :
    ∃ text, ∀ rest, Ends rest → Lexes (text ++ rest) [.literal value.written] rest := by
  cases value with
  | scalar literal =>
    obtain ⟨text, htext⟩ := exists_spelled (h literal (by simp [Value.literals]))
    refine ⟨text, fun rest hrest => .single ?_⟩
    obtain ⟨c, cs, hhead, hblank, -⟩ := htext.head
    rw [hhead, List.cons_append, Text.skipBlanks_of_not_blank hblank, ← List.cons_append, ← hhead]
    exact htext.token rest hrest
  | list items =>
    obtain ⟨text, htext⟩ := exists_lexes_list h
    exact ⟨text, fun rest _ => htext rest⟩
  | range lower upper =>
    obtain ⟨text, htext⟩ := exists_lexes_list h
    exact ⟨text, fun rest _ => htext rest⟩

end Lexer

/-! ### Well-formed filters -/

namespace Filter

open Lexer (Lexable Lexes)

/-- Every name of the filter can be written, every operator has a value of its kind, and no number is the
missing result. -/
structure WellFormed (t : Filter) : Prop extends Writable t where
  number : ∀ s ∈ t.literals, s ≠ .float .nan

lemma wellFormed_of_parseWithin {maxNesting : Nat} {text : String} {t : Filter}
    (h : parseWithin maxNesting text = .ok t) : t.WellFormed where
  toWritable := writable_of_parseWithin h
  number s hs := by
    -- only numerals are not finite, and they are infinite then
    rintro rfl
    obtain ⟨negative, run, -, hvalue⟩ := exists_numeral h hs rfl
    have hinfinite : (Lexer.numberValue negative run).isFinite = false := by rw [← hvalue]; rfl
    rw [Lexer.numberValue_of_not_isFinite hinfinite] at hvalue
    cases hvalue

lemma WellFormed.child {child : Filter} (h : (Filter.not child).WellFormed) : child.WellFormed :=
  ⟨h.toWritable.child, h.number⟩

lemma mem_literals_logical {kind : Connective} {left right : Filter} {s : Scalar} :
    s ∈ (logical kind left right).literals ↔ s ∈ left.literals ∨ s ∈ right.literals := by
  simp only [literals, comparisons, List.flatMap_append, List.mem_append]

lemma WellFormed.left {kind : Connective} {left right : Filter}
    (h : (logical kind left right).WellFormed) : left.WellFormed :=
  ⟨h.toWritable.left, fun s hs => h.number s (mem_literals_logical.2 (Or.inl hs))⟩

lemma WellFormed.right {kind : Connective} {left right : Filter}
    (h : (logical kind left right).WellFormed) : right.WellFormed :=
  ⟨h.toWritable.right, fun s hs => h.number s (mem_literals_logical.2 (Or.inr hs))⟩

lemma exists_spans_comparison {field : String} {op : Operator} {value : Value}
    (h : (comparison field op value).WellFormed) :
    ∃ (text : String) (phrase : Phrase .filter), phrase.Spans text ∧
      phrase.toFilter = comparison field op value ∧ phrase.need = 0 := by
  have hmem : (field, op, value) ∈ (comparison field op value).comparisons := by simp [comparisons]
  have hvalue : ∀ s ∈ value.literals, s ≠ .float .nan :=
    fun s hs => h.number s (List.mem_flatMap.2 ⟨_, hmem, hs⟩)
  obtain ⟨text, htext⟩ := Lexer.exists_lexes_value hvalue
  have hend : Lexes (text ++ []) [.literal value.written, .eof] [] :=
    (htext [] (by simp [Lexer.Ends])).append (.single rfl)
  have hlexes := Lexer.lexes_clause (h.fields _ hmem) op (by simp) hend
  refine ⟨s!"{field} {op.name} " ++ String.ofList text,
    .conjunction (.operand (.comparison field op value.written value
      (Operator.reads_written (h.shapes _ hmem)))), ?_, rfl, rfl⟩
  simpa [Phrase.Spans, Phrase.tokens, toString] using hlexes

/-- Every well-formed filter is read off a text. -/
lemma exists_spans_of_wellFormed (t : Filter) (h : t.WellFormed) :
    ∃ (text : String) (phrase : Phrase .filter), phrase.Spans text ∧ phrase.toFilter = t := by
  induction t with
  | comparison field op value =>
    obtain ⟨text, phrase, hspans, htree, -⟩ := exists_spans_comparison h
    exact ⟨text, phrase, hspans, htree⟩
  | not child ih =>
    obtain ⟨text, phrase, hspans, rfl⟩ := ih h.child
    exact ⟨_, .conjunction (.operand (.not (.group phrase))), hspans.group.not, rfl⟩
  | logical kind left right ihleft ihright =>
    obtain ⟨text, l, hl, rfl⟩ := ihleft h.left
    obtain ⟨behind, r, hr, rfl⟩ := ihright h.right
    exact ⟨_, .join (.group l) (.group r) kind, hl.group.join hr.group kind, Phrase.toFilter_join _ _ kind⟩

/-- **The filters that queries are.**  A filter is read off some text, under some limit on nesting, if and
only if its names can be written, its operators have values of their kind and no number of it is the missing
result.  And a name can be written if and only if it is a field of some query that is accepted under the usual
limit. -/
theorem wellFormed_iff_exists_parseWithin :
    (∀ t : Filter, t.WellFormed ↔ ∃ maxNesting text, parseWithin maxNesting text = .ok t) ∧
      ∀ field, Lexable field ↔ ∃ text t, parse text = .ok t ∧ field ∈ t.fields := by
  refine ⟨fun t => ⟨fun h => ?_, ?_⟩, fun field => ⟨fun h => ?_, ?_⟩⟩
  · obtain ⟨text, phrase, hspans, rfl⟩ := exists_spans_of_wellFormed t h
    exact ⟨phrase.need, text, (readsWith_of_spans hspans).reads _ le_rfl⟩
  · rintro ⟨maxNesting, text, h⟩
    exact wellFormed_of_parseWithin h
  · have hnull : (comparison field .eq (.scalar .null)).WellFormed := by
      refine ⟨⟨?_, ?_⟩, ?_⟩
      · simpa [comparisons] using h
      · simp [comparisons, Operator.accepts]
      · simp [literals, comparisons, Value.literals]
    obtain ⟨text, phrase, hspans, htree, hneed⟩ := exists_spans_comparison hnull
    have hreads := (readsWith_of_spans hspans).reads defaultMaxNesting (by omega)
    rw [htree, parseWithin_defaultMaxNesting] at hreads
    exact ⟨text, _, hreads, by simp [fields, firsts, comparisons]⟩
  · rintro ⟨text, t, h, hfield⟩
    obtain ⟨c, hc, rfl⟩ := mem_fields.1 hfield
    rw [← parseWithin_defaultMaxNesting] at h
    exact (writable_of_parseWithin h).fields c hc

end Filter

end FilterLang
