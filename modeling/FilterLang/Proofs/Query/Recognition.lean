import FilterLang.Proofs.Query.Soundness

/-!
# The parser accepts exactly its grammar

`Grammar.read_phrase` is the converse of soundness: in front of the tokens of a phrase, and with the
levels that the phrase needs, the reader takes these tokens.  With fewer levels it stops for want of a
level and for no other reason (`Grammar.tooDeep_of_need`).

Both are inductions over the phrase.  A chain is read from the left, so behind a part of it the reader
is not done: `Grammar.resume` is what it still has to do, with the levels of the operands so far taken.
-/

namespace FilterLang

namespace Grammar

variable {ceiling : Nat} {s : TokenStream}

/-! ### What follows the grammar is read -/

/-- The reader of each part of speech. -/
def read (ceiling : Nat) : Category → Nat → TokenStream → Outcome
  | .operand => operand ceiling
  | .conjunction => conjunction ceiling
  | .filter => filter ceiling

/-- How a reader goes on behind a phrase: an operand is complete, a chain may grow. -/
def resume (ceiling : Nat) : Category → Nat → Filter → TokenStream → Outcome
  | .operand, _, t, s => .ok (t, s)
  | .conjunction, room, t, s => andChain ceiling room t s
  | .filter, room, t, s => orChain ceiling room t s

/-- With the levels that a phrase needs, its reader takes its tokens and goes on behind them.  Behind
a filter no `and` may follow, since the last conjunction would take it. -/
lemma read_phrase {category : Category} (phrase : Phrase category) {room : Nat}
    {s s' : TokenStream} (hneed : phrase.need ≤ room) (h : s.Passes phrase.tokens s')
    (hend : category = .filter → s'.current.token ≠ .and) :
    read ceiling category room s =
      resume ceiling category (room - phrase.folds) phrase.toFilter s' := by
  induction phrase generalizing room s s' with
  | comparison field op literal value reads =>
    obtain ⟨hfield, -⟩ := TokenStream.passes_cons_iff.mp h
    have hoperand : operand ceiling room s = comparison room s :=
      operand_comparison (by simp [hfield]) (by simp [hfield])
    exact hoperand.trans (comparison_of_passes reads h)
  | group inner ih =>
    cases room with
    | zero => exact absurd hneed (Nat.not_succ_le_zero _)
    | succ r =>
      obtain ⟨hopen, s₁, hnext, h⟩ := TokenStream.passes_cons_iff.mp h
      obtain ⟨s₂, hinner, h⟩ := TokenStream.passes_append_iff.mp h
      obtain ⟨hclose, s₃, hnext₂, h⟩ := TokenStream.passes_cons_iff.mp h
      cases h
      have hread : filter ceiling r s₁ = .ok (inner.toFilter, s₂) :=
        (ih (Nat.le_of_succ_le_succ hneed) hinner (by simp [hclose])).trans
          (orChain_stop (by simp [hclose]))
      change operand ceiling (r + 1) s = .ok (inner.toFilter, s')
      rw [operand_group hopen, advance_eq_ok_iff.mpr hnext, ok_bind, hread, ok_bind]
      simp only [close, hclose]
      rw [advance_eq_ok_iff.mpr hnext₂]
      rfl
  | not child ih =>
    cases room with
    | zero => exact absurd hneed (Nat.not_succ_le_zero _)
    | succ r =>
      obtain ⟨hnot, s₁, hnext, h⟩ := TokenStream.passes_cons_iff.mp h
      have hread : operand ceiling r s₁ = .ok (child.toFilter, s') :=
        ih (Nat.le_of_succ_le_succ hneed) h (by simp)
      change operand ceiling (r + 1) s = .ok (.not child.toFilter, s')
      rw [operand_not hnot, advance_eq_ok_iff.mpr hnext, ok_bind, hread]
      rfl
  | operand first ih =>
    have hread : operand ceiling room s = .ok (first.toFilter, s') := ih hneed h (by simp)
    change conjunction ceiling room s = andChain ceiling room first.toFilter s'
    rw [conjunction, hread, ok_bind]
  | and left right ihleft ihright =>
    simp only [Phrase.need, max_le_iff] at hneed
    obtain ⟨s₁, hleft, h⟩ := TokenStream.passes_append_iff.mp h
    obtain ⟨hand, s₂, hnext, hright⟩ := TokenStream.passes_cons_iff.mp h
    -- the loop stands at the `and` with the levels of the operands before it taken
    have hread : conjunction ceiling room s =
        andChain ceiling (room - (left.folds + 1) + 1) left.toFilter s₁ := by
      rw [show room - (left.folds + 1) + 1 = room - left.folds by omega]
      exact ihleft hneed.1 hleft (by simp)
    have hread' : operand ceiling (room - (left.folds + 1)) s₂ = .ok (right.toFilter, s') :=
      ihright (by omega) hright (by simp)
    change conjunction ceiling room s = andChain ceiling (room - (left.folds + 1))
      (.and left.toFilter right.toFilter) s'
    rw [hread, andChain_and hand, advance_eq_ok_iff.mpr hnext, ok_bind, hread', ok_bind]
  | conjunction first ih =>
    have hread : conjunction ceiling room s = .ok (first.toFilter, s') :=
      (ih hneed h (by simp)).trans (andChain_stop (hend rfl))
    change filter ceiling room s = orChain ceiling room first.toFilter s'
    rw [filter, hread, ok_bind]
  | or left right ihleft ihright =>
    simp only [Phrase.need, max_le_iff] at hneed
    obtain ⟨s₁, hleft, h⟩ := TokenStream.passes_append_iff.mp h
    obtain ⟨hor, s₂, hnext, hright⟩ := TokenStream.passes_cons_iff.mp h
    have hread : filter ceiling room s =
        orChain ceiling (room - (left.folds + 1) + 1) left.toFilter s₁ := by
      rw [show room - (left.folds + 1) + 1 = room - left.folds by omega]
      exact ihleft hneed.1 hleft (by simp [hor])
    have hread' : conjunction ceiling (room - (left.folds + 1)) s₂ = .ok (right.toFilter, s') :=
      (ihright (by omega) hright (by simp)).trans (andChain_stop (hend rfl))
    change filter ceiling room s = orChain ceiling (room - (left.folds + 1))
      (.or left.toFilter right.toFilter) s'
    rw [hread, orChain_or hor, advance_eq_ok_iff.mpr hnext, ok_bind, hread', ok_bind]

/-- The reading stopped because no level was left. -/
def TooDeep (ceiling : Nat) (outcome : Outcome) : Prop :=
  ∃ stop position, outcome = .error stop ∧ stop.error = .nestingTooDeep ceiling position

lemma tooDeep_tooDeep : TooDeep ceiling (tooDeep ceiling s) := ⟨_, _, rfl, rfl⟩

lemma TooDeep.bind {outcome : Outcome} (h : TooDeep ceiling outcome)
    (f : Filter × TokenStream → Outcome) : TooDeep ceiling (outcome >>= f) := by
  obtain ⟨stop, position, rfl, hstop⟩ := h
  exact ⟨stop, position, rfl, hstop⟩

/-- Without the levels that a phrase needs, its reader stops for want of a level. -/
lemma tooDeep_of_need {category : Category} (phrase : Phrase category) {room : Nat}
    {s s' : TokenStream} (hneed : room < phrase.need) (h : s.Passes phrase.tokens s') :
    TooDeep ceiling (read ceiling category room s) := by
  induction phrase generalizing room s s' with
  | comparison => exact absurd hneed (by simp [Phrase.need])
  | group inner ih =>
    obtain ⟨hopen, s₁, hnext, h⟩ := TokenStream.passes_cons_iff.mp h
    obtain ⟨s₂, hinner, -⟩ := TokenStream.passes_append_iff.mp h
    change TooDeep ceiling (operand ceiling room s)
    cases room with
    | zero =>
      rw [operand_zero (Or.inr hopen)]
      exact tooDeep_tooDeep
    | succ r =>
      rw [operand_group hopen, advance_eq_ok_iff.mpr hnext, ok_bind]
      exact (ih (Nat.lt_of_succ_lt_succ hneed) hinner).bind _
  | not child ih =>
    obtain ⟨hnot, s₁, hnext, h⟩ := TokenStream.passes_cons_iff.mp h
    change TooDeep ceiling (operand ceiling room s)
    cases room with
    | zero =>
      rw [operand_zero (Or.inl hnot)]
      exact tooDeep_tooDeep
    | succ r =>
      rw [operand_not hnot, advance_eq_ok_iff.mpr hnext, ok_bind]
      exact (ih (Nat.lt_of_succ_lt_succ hneed) h).bind _
  | operand first ih => exact (ih hneed h).bind _
  | and left right ihleft ihright =>
    obtain ⟨s₁, hleft, h⟩ := TokenStream.passes_append_iff.mp h
    obtain ⟨hand, s₂, hnext, hright⟩ := TokenStream.passes_cons_iff.mp h
    by_cases hfits : left.need ≤ room
    · -- the levels run out at the `and` or in the operand behind it
      rw [read_phrase left hfits hleft (by simp)]
      change TooDeep ceiling (andChain ceiling (room - left.folds) left.toFilter s₁)
      cases hroom : room - left.folds with
      | zero =>
        rw [andChain_zero hand]
        exact tooDeep_tooDeep
      | succ r =>
        rw [andChain_and hand, advance_eq_ok_iff.mpr hnext, ok_bind]
        refine (ihright ?_ hright).bind _
        simp only [Phrase.need] at hneed
        omega
    · exact ihleft (by omega) hleft
  | conjunction first ih => exact (ih hneed h).bind _
  | or left right ihleft ihright =>
    obtain ⟨s₁, hleft, h⟩ := TokenStream.passes_append_iff.mp h
    obtain ⟨hor, s₂, hnext, hright⟩ := TokenStream.passes_cons_iff.mp h
    by_cases hfits : left.need ≤ room
    · rw [read_phrase left hfits hleft (by simp [hor])]
      change TooDeep ceiling (orChain ceiling (room - left.folds) left.toFilter s₁)
      cases hroom : room - left.folds with
      | zero =>
        rw [orChain_zero hor]
        exact tooDeep_tooDeep
      | succ r =>
        rw [orChain_or hor, advance_eq_ok_iff.mpr hnext, ok_bind]
        refine (ihright ?_ hright).bind _
        simp only [Phrase.need] at hneed
        omega
    · exact ihleft (by omega) hleft

end Grammar

/-! ### Whole queries -/

lemma Phrase.current_ne_eof {category : Grammar.Category} (phrase : Phrase category)
    {s s' : TokenStream} (h : s.Passes phrase.tokens s') : s.current.token ≠ .eof := by
  cases htokens : phrase.tokens with
  | nil => exact absurd htokens phrase.tokens_ne_nil
  | cons u us =>
    rw [htokens] at h
    obtain ⟨rfl, -⟩ := TokenStream.passes_cons_iff.mp h
    intro heof
    exact phrase.eof_notMem_tokens (by simp [htokens, heof])

namespace Filter

variable {maxNesting : Nat} {text : String} {t : Filter}

open Lexer (Lexes)

lemma parseWithin_of_next {s : TokenStream}
    (hfirst : (Lexer.ofText text).next = (.ok s.current, s.lexer)) :
    parseWithin maxNesting text = (Parser.mk s 0 maxNesting).parse.1 := by
  simp only [parseWithin, Parser.ofText, hfirst]
  rfl

lemma exists_passes_of_lexes {phrase : Phrase .filter}
    (h : Lexes text.toList (phrase.tokens ++ [.eof]) []) :
    ∃ s s' : TokenStream, (Lexer.ofText text).next = (.ok s.current, s.lexer) ∧
      s.Passes phrase.tokens s' ∧ s'.current.token = .eof :=
  @Lexer.exists_passes (Lexer.ofText text) _ _ _ h

/-- A query is accepted if a filter takes all of its tokens up to the end of the text. -/
lemma parse_eq_ok_iff {s : TokenStream} :
    (Parser.mk s 0 maxNesting).parse.1 = .ok t ↔ s.current.token ≠ .eof ∧
      ∃ s', Grammar.filter maxNesting maxNesting s = .ok (t, s') ∧ s'.current.token = .eof := by
  simp only [Parser.parse, Parser.expression, Parser.room, Nat.sub_zero]
  by_cases hempty : s.current.token = .eof
  · simp [hempty]
  · rw [if_neg hempty]
    rcases Grammar.filter maxNesting maxNesting s with stop | ⟨t', s'⟩
    · simp
    · by_cases hend : s'.current.token = .eof
      · simp [hend, hempty]
      · simp [hend]

/-- A text is accepted if its tokens up to the end are those of a phrase that fits the limit. -/
lemma parseWithin_eq_ok_iff_lexes :
    parseWithin maxNesting text = .ok t ↔ ∃ phrase : Phrase .filter, phrase.toFilter = t ∧
      phrase.need ≤ maxNesting ∧ Lexes text.toList (phrase.tokens ++ [.eof]) [] := by
  constructor
  · intro h
    simp only [parseWithin] at h
    obtain ⟨parser, hparser, h⟩ := bind_eq_ok_iff.mp h
    rw [Parser.ofText] at hparser
    split at hparser
    · rename_i spanned lexer hfirst
      obtain rfl := Except.ok.inj hparser
      obtain ⟨-, s', hfilter, hend⟩ := parse_eq_ok_iff.mp h
      obtain ⟨phrase, htree, hneed, hpasses⟩ := (Grammar.sound _ _).filter hfilter
      have hlexes := hpasses.lexes hfirst
      rw [hend] at hlexes
      obtain hrest := hlexes.eq_nil_of_eof
      rw [hrest] at hlexes
      exact ⟨phrase, htree, hneed, hlexes⟩
    · exact absurd hparser (by simp)
  · rintro ⟨phrase, rfl, hneed, hlexes⟩
    obtain ⟨s, s', hfirst, hpasses, hend⟩ := exists_passes_of_lexes hlexes
    rw [parseWithin_of_next hfirst, parse_eq_ok_iff]
    refine ⟨phrase.current_ne_eof hpasses, s', ?_, hend⟩
    exact (Grammar.read_phrase phrase hneed hpasses (by simp [hend])).trans
      (Grammar.orChain_stop (by simp [hend]))

/-- A text whose tokens are those of a phrase is refused under every lower limit, and the limit is the
reason. -/
lemma parseWithin_tooDeep (phrase : Phrase .filter) (hneed : maxNesting < phrase.need)
    (hlexes : Lexes text.toList (phrase.tokens ++ [.eof]) []) :
    ∃ position, parseWithin maxNesting text = .error (.nestingTooDeep maxNesting position) := by
  obtain ⟨s, s', hfirst, hpasses, -⟩ := exists_passes_of_lexes hlexes
  obtain ⟨stop, position, hread, hstop⟩ := Grammar.tooDeep_of_need phrase hneed hpasses
  refine ⟨position, ?_⟩
  rw [parseWithin_of_next hfirst, ← hstop]
  have hfilter : Grammar.filter maxNesting maxNesting s = .error stop := hread
  simp [Parser.parse, Parser.expression, Parser.room, phrase.current_ne_eof hpasses, hfilter]

/-- **The parser accepts exactly its grammar.**  A text is read as the filter `t` if it can be cut into
tokens and these, up to the end of the text, are the tokens of a phrase that stands for `t` and needs no
more nesting than is allowed. -/
theorem parseWithin_eq_ok_iff (maxNesting : Nat) (text : String) (t : Filter) :
    parseWithin maxNesting text = .ok t ↔
      ∃ spanned, (Lexer.ofText text).tokens = .ok spanned ∧
        ∃ phrase : Phrase .filter, spanned.map (·.token) = phrase.tokens ++ [.eof] ∧
          phrase.toFilter = t ∧ phrase.need ≤ maxNesting := by
  rw [parseWithin_eq_ok_iff_lexes]
  constructor
  · rintro ⟨phrase, htree, hneed, hlexes⟩
    obtain ⟨spanned, htokens, hmap⟩ := (@Lexer.tokens_eq_ok_iff (Lexer.ofText text) _).mpr
      ⟨phrase.eof_notMem_tokens, hlexes⟩
    exact ⟨spanned, htokens, phrase, hmap, htree, hneed⟩
  · rintro ⟨spanned, htokens, phrase, hmap, htree, hneed⟩
    obtain ⟨-, hlexes⟩ := Lexer.tokens_eq_ok_iff.mp ⟨spanned, htokens, hmap⟩
    exact ⟨phrase, htree, hneed, hlexes⟩

end Filter

end FilterLang
