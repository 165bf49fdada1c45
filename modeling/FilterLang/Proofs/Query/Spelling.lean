import FilterLang.Proofs.Filter.WellFormed

/-!
# Tokens that are queries

A sequence of tokens is a query if some text is cut into these tokens and read under some limit on nesting.
`isQuery_iff` says which sequences these are: the tokens of a phrase, each of which can be written.  The text
is found token by token, with a blank behind each, so nothing has to be known about how tokens touch.
-/

namespace FilterLang

open Lexer (Lexes Lexable)

namespace Token

/-- The token can be written: some text in front of a blank is read as it. -/
def Spellable (u : Token) : Prop :=
  ∃ text : List Char, ∀ rest, Lexes (text ++ ' ' :: rest) [u] (' ' :: rest)

lemma spellable_identifier {field : String} (h : Lexable field) : Spellable (.identifier field) :=
  ⟨field.toList, Lexer.lexes_name h⟩

lemma spellable_operator (op : Operator) : Spellable (.operator op) :=
  ⟨op.name.toList, Lexer.lexes_operator op⟩

lemma spellable_connective (kind : Connective) : Spellable kind.token :=
  ⟨kind.name.toList, Lexer.lexes_connective kind⟩

lemma spellable_not : Spellable .not := ⟨"not".toList, Lexer.lexes_not⟩

lemma spellable_lparen : Spellable .lparen := ⟨['('], fun _ => .single rfl⟩

lemma spellable_rparen : Spellable .rparen := ⟨[')'], fun _ => .single rfl⟩

lemma spellable_comma : Spellable .comma := ⟨[','], fun _ => .single rfl⟩

/-- A literal that is not a range can be written, unless it holds the missing result. -/
lemma spellable_literal {value : Value} (hwritten : value.written = value)
    (h : ∀ s ∈ value.literals, s ≠ .float .nan) : Spellable (.literal value) := by
  obtain ⟨text, htext⟩ := Lexer.exists_lexes_value h
  rw [hwritten] at htext
  exact ⟨text, fun rest => htext _ (Lexer.ends_cons (Or.inl rfl) rest)⟩

/-- No literal that is read holds the missing result. -/
lemma ne_nan_of_token {cs rest : List Char} {value : Value}
    (h : Lexer.token cs = .ok (.literal value, rest)) : ∀ s ∈ value.literals, s ≠ .float .nan := by
  rintro s hs rfl
  obtain ⟨cs', rest', -, hnumber⟩ := Lexer.exists_number_of_token h hs rfl
  obtain ⟨negative, run, -, hvalue⟩ := Lexer.number_eq_ok hnumber
  have hinfinite : (Lexer.numberValue negative run).isFinite = false := by rw [← hvalue]; rfl
  rw [Lexer.numberValue_of_not_isFinite hinfinite] at hvalue
  cases hvalue

/-- Every token that was read can be written, and the end of the text is no token to write. -/
lemma spellable_of_token {cs rest : List Char} {u : Token} (h : Lexer.token cs = .ok (u, rest))
    (hu : u ≠ .eof) : Spellable u := by
  cases u with
  | identifier field => exact spellable_identifier (Lexer.lexable_of_token h)
  | operator op => exact spellable_operator op
  | literal value =>
    refine spellable_literal ?_ (ne_nan_of_token h)
    cases value with
    | scalar literal => rfl
    | list items => rfl
    | range lower upper => exact absurd h Lexer.token_ne_range
  | and => exact spellable_connective .and
  | or => exact spellable_connective .or
  | not => exact spellable_not
  | lparen => exact spellable_lparen
  | rparen => exact spellable_rparen
  | comma => exact spellable_comma
  | eof => exact absurd rfl hu

end Token

namespace Lexer

/-- Tokens that can be written make a text. -/
lemma exists_lexes {us : List Token} (h : ∀ u ∈ us, u.Spellable) :
    ∃ text, Lexes text (us ++ [.eof]) [] := by
  induction us with
  | nil => exact ⟨[], .single rfl⟩
  | cons u us ih =>
    obtain ⟨text, htext⟩ := h u (by simp)
    obtain ⟨more, hmore⟩ := ih fun v hv => h v (List.mem_cons_of_mem u hv)
    exact ⟨text ++ ' ' :: more, (htext more).append (hmore.blank (by simp))⟩

lemma Lexes.spellable {cs rest : List Char} {us : List Token} (h : Lexes cs us rest)
    (hus : .eof ∉ us) : ∀ u ∈ us, u.Spellable := by
  intro u hu
  obtain ⟨cs', rest', -, htoken⟩ := h.exists_token hu
  exact Token.spellable_of_token htoken fun heof => hus (heof ▸ hu)

end Lexer

namespace Phrase

/-- A phrase whose tokens can be written has a text. -/
lemma exists_spans {category : Grammar.Category} (phrase : Phrase category)
    (h : ∀ u ∈ phrase.tokens, u.Spellable) : ∃ text, phrase.Spans text := by
  obtain ⟨text, htext⟩ := Lexer.exists_lexes h
  exact ⟨String.ofList text, by rwa [Spans, String.toList_ofList]⟩

/-- A comparison that can be written. -/
def leaf : Phrase .operand :=
  .comparison "a" .eq (.scalar .null) (.scalar .null) (.plain _ rfl (by decide))

lemma spellable_leaf : ∀ u ∈ leaf.tokens, u.Spellable := by
  intro u hu
  simp only [leaf, tokens, List.mem_cons, List.not_mem_nil, or_false] at hu
  rcases hu with rfl | rfl | rfl
  · exact Token.spellable_identifier (by decide +kernel)
  · exact Token.spellable_operator .eq
  · exact Token.spellable_literal rfl (by simp [Value.literals])

end Phrase

/-- The tokens are those of a text that is read as a filter, under a limit on nesting that is large
enough. -/
def IsQuery (us : List Token) : Prop :=
  ∃ (text : String) (spanned : List SpannedToken) (maxNesting : Nat) (t : Filter),
    (Lexer.ofText text).tokens = .ok spanned ∧ spanned.map (·.token) = us ++ [.eof] ∧
      Filter.parseWithin maxNesting text = .ok t

/-- The tokens are the beginning of a query. -/
def StartsQuery (us : List Token) : Prop := ∃ more, IsQuery (us ++ more)

/-- The queries are the phrases that can be written. -/
lemma isQuery_iff {us : List Token} :
    IsQuery us ↔ (∃ phrase : Phrase .filter, phrase.tokens = us) ∧ ∀ u ∈ us, u.Spellable := by
  constructor
  · rintro ⟨text, spanned, maxNesting, t, htokens, hmap, hparse⟩
    obtain ⟨hus, hlexes⟩ := Lexer.tokens_eq_ok_iff.1 ⟨spanned, htokens, hmap⟩
    obtain ⟨phrase, -, -, hphrase⟩ := Filter.parseWithin_eq_ok_iff_lexes.1 hparse
    refine ⟨⟨phrase, ?_⟩, ?_⟩
    · -- both are the tokens of the text up to its end
      obtain ⟨spanned', htokens', hmap'⟩ := (@Lexer.tokens_eq_ok_iff (Lexer.ofText text) _).2
        ⟨phrase.eof_notMem_tokens, hphrase⟩
      obtain rfl : spanned = spanned' := Except.ok.inj (htokens.symm.trans htokens')
      exact List.append_cancel_right (hmap'.symm.trans hmap)
    · obtain ⟨mid, hfront, -⟩ := Lexer.lexes_append_iff.1 hlexes
      exact hfront.spellable hus
  · rintro ⟨⟨phrase, rfl⟩, hspellable⟩
    obtain ⟨text, hspans⟩ := phrase.exists_spans hspellable
    obtain ⟨spanned, htokens, hmap⟩ := (@Lexer.tokens_eq_ok_iff (Lexer.ofText text) _).2
      ⟨phrase.eof_notMem_tokens, hspans⟩
    exact ⟨text, spanned, phrase.need, phrase.toFilter, htokens, hmap,
      (Filter.readsWith_of_spans hspans).reads _ le_rfl⟩

end FilterLang
