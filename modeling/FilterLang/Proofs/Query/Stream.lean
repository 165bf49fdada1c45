import FilterLang.Proofs.Query.Progress
import FilterLang.Query.Parser

/-!
# The tokens of a text, one by one and all at once

The parser pulls its tokens one at a time, and `Lexer.tokens` cuts a text into all of them.  Both are
compared here with one relation on texts: `Lexer.Lexes cs us rest` says that the tokens `us` stand at
the front of `cs` and that `rest` is what they leave.

* `Lexer.tokens_eq_ok_iff`: a text has the tokens `us` if they end with the end of the text, hold it
  nowhere else, and are read off the text in this order;
* `TokenStream.Passes s us s'`: a parser that stands at `s` and takes the tokens `us` then stands at
  `s'`;
* `Lexer.exists_passes` and `TokenStream.Passes.lexes`: the tokens a parser takes are the tokens of the
  text.
-/

namespace FilterLang

namespace Lexer

/-- The tokens `us` stand at the front of a text, and `rest` is left behind them. -/
inductive Lexes : List Char → List Token → List Char → Prop
  | nil (cs : List Char) : Lexes cs [] cs
  | cons {cs mid rest : List Char} {u : Token} {us : List Token} :
      token (Text.skipBlanks cs) = .ok (u, mid) → Lexes mid us rest → Lexes cs (u :: us) rest

lemma Lexes.single {cs rest : List Char} {u : Token}
    (h : token (Text.skipBlanks cs) = .ok (u, rest)) : Lexes cs [u] rest :=
  .cons h (.nil rest)

lemma Lexes.append {cs mid rest : List Char} {us vs : List Token} (h : Lexes cs us mid)
    (h' : Lexes mid vs rest) : Lexes cs (us ++ vs) rest := by
  induction h with
  | nil => exact h'
  | cons hu _ ih => exact .cons hu (ih h')

lemma lexes_append_iff {cs rest : List Char} {us vs : List Token} :
    Lexes cs (us ++ vs) rest ↔ ∃ mid, Lexes cs us mid ∧ Lexes mid vs rest := by
  constructor
  · intro h
    induction us generalizing cs with
    | nil => exact ⟨cs, .nil cs, h⟩
    | cons u us ih =>
      cases h with
      | cons hu hrest =>
        obtain ⟨mid, hus, hvs⟩ := ih hrest
        exact ⟨mid, .cons hu hus, hvs⟩
  · rintro ⟨mid, hus, hvs⟩
    exact hus.append hvs

/-- Of two ways to read a text, one goes on where the other stops. -/
lemma Lexes.prefix_or_prefix {cs rest rest' : List Char} {us vs : List Token}
    (h : Lexes cs us rest) (h' : Lexes cs vs rest') :
    (∃ ws, vs = us ++ ws ∧ Lexes rest ws rest') ∨ ∃ ws, us = vs ++ ws ∧ Lexes rest' ws rest := by
  induction h generalizing vs with
  | nil cs => exact Or.inl ⟨vs, rfl, h'⟩
  | @cons cs mid rest u us hu hus ih =>
    cases h' with
    | nil => exact Or.inr ⟨u :: us, rfl, .cons hu hus⟩
    | @cons _ mid' _ v vs hv hvs =>
      obtain ⟨rfl, rfl⟩ : u = v ∧ mid = mid' := by simpa using hu.symm.trans hv
      rcases ih hvs with ⟨ws, rfl, hws⟩ | ⟨ws, rfl, hws⟩
      · exact Or.inl ⟨ws, rfl, hws⟩
      · exact Or.inr ⟨ws, rfl, hws⟩

/-- The end of the text leaves nothing. -/
lemma Lexes.eq_nil_of_eof {cs rest : List Char} {us : List Token}
    (h : Lexes cs (us ++ [.eof]) rest) : rest = [] := by
  obtain ⟨mid, -, hmid⟩ := lexes_append_iff.mp h
  cases hmid with
  | cons hu hnil =>
    cases hnil
    exact (token_eq_eof_iff.mp hu).2

/-- A token that is not the end of the text takes a character. -/
lemma length_rest_lt {cs rest : List Char} {u : Token} (h : token cs = .ok (u, rest)) (hu : u ≠ .eof) :
    rest.length < cs.length := by
  have hne : cs ≠ [] := by
    intro hnil
    rw [hnil] at h
    obtain ⟨rfl, -⟩ := Prod.mk.inj (Except.ok.inj h)
    exact hu rfl
  have hrest : rest.length ≤ cs.tail.length := (token_suffix h).length_le
  have hpos : 0 < cs.length := List.length_pos_iff.mpr hne
  rw [List.length_tail] at hrest
  omega

/-- A token that is not the end of the text makes what is left shorter. -/
lemma length_lt_of_token {cs rest : List Char} {u : Token}
    (h : token (Text.skipBlanks cs) = .ok (u, rest)) (hu : u ≠ .eof) :
    rest.length < cs.length :=
  (length_rest_lt h hu).trans_le (skipBlanks_suffix cs).length_le

lemma Lexes.length_le {cs rest : List Char} {us : List Token} (h : Lexes cs us rest)
    (hus : .eof ∉ us) : us.length + rest.length ≤ cs.length := by
  induction h with
  | nil => simp
  | cons hu _ ih =>
    simp only [List.mem_cons, not_or] at hus
    have hlt := length_lt_of_token hu (Ne.symm hus.1)
    have hle := ih hus.2
    simp only [List.length_cons]
    omega

lemma next_eq_ok_iff {lexer lexer' : Lexer} {spanned : SpannedToken} :
    lexer.next = (.ok spanned, lexer') ↔
      token (Text.skipBlanks lexer.rest) = .ok (spanned.token, lexer'.rest) ∧
        spanned.position = lexer.offset (Text.skipBlanks lexer.rest) ∧
        lexer'.text = lexer.text := by
  obtain ⟨text', rest'⟩ := lexer'
  obtain ⟨u, position⟩ := spanned
  rw [next]
  split
  · rename_i v rest hv
    simp only [hv, Prod.mk.injEq, Except.ok.injEq, SpannedToken.mk.injEq, Lexer.mk.injEq]
    constructor
    · rintro ⟨⟨rfl, rfl⟩, rfl, rfl⟩
      exact ⟨⟨rfl, rfl⟩, rfl, rfl⟩
    · rintro ⟨⟨rfl, rfl⟩, rfl, rfl⟩
      exact ⟨⟨rfl, rfl⟩, rfl, rfl⟩
  · rename_i fault hfault
    simp [hfault]

/-- Where a token stands at the front, the lexer reads it. -/
lemma exists_next {lexer : Lexer} {u : Token} {rest : List Char}
    (h : token (Text.skipBlanks lexer.rest) = .ok (u, rest)) :
    ∃ spanned, lexer.next = (.ok spanned, { lexer with rest }) ∧ spanned.token = u :=
  ⟨⟨u, lexer.offset (Text.skipBlanks lexer.rest)⟩, next_eq_ok_iff.mpr ⟨h, rfl, rfl⟩, rfl⟩

/-! ### All the tokens of a text -/

lemma lexes_of_tokensWithin {bound : Nat} {lexer : Lexer} {spanned : List SpannedToken}
    (hbound : lexer.rest.length < bound) (h : lexer.tokensWithin bound = .ok spanned) :
    ∃ us, spanned.map (·.token) = us ++ [.eof] ∧ .eof ∉ us ∧ Lexes lexer.rest (us ++ [.eof]) [] := by
  induction bound generalizing lexer spanned with
  | zero => exact absurd hbound (by simp)
  | succ bound ih =>
    rw [tokensWithin] at h
    split at h
    · exact absurd h (by simp)
    · rename_i first lexer' hnext
      obtain ⟨hfirst, -, -⟩ := next_eq_ok_iff.mp hnext
      split at h
      · rename_i heof
        obtain rfl := Except.ok.inj h
        rw [heof] at hfirst
        have hrest := (token_eq_eof_iff.mp hfirst).2
        exact ⟨[], by simp [heof], by simp, .single (hrest ▸ hfirst)⟩
      · rename_i hne
        -- a token that is not the end takes a character, so the bound is large enough for the rest
        have hlt := length_lt_of_token hfirst hne
        split at h
        · rename_i more hmore
          obtain rfl := Except.ok.inj h
          obtain ⟨us, hmap, hus, hlexes⟩ := ih (by omega) hmore
          refine ⟨first.token :: us, by simp [hmap], ?_, .cons hfirst hlexes⟩
          simp only [List.mem_cons, not_or]
          exact ⟨Ne.symm hne, hus⟩
        · exact absurd h (by simp)

lemma tokensWithin_of_lexes {bound : Nat} {lexer : Lexer} {us : List Token}
    (hbound : us.length < bound) (hus : .eof ∉ us) (h : Lexes lexer.rest (us ++ [.eof]) []) :
    ∃ spanned, lexer.tokensWithin bound = .ok spanned ∧
      spanned.map (·.token) = us ++ [.eof] := by
  induction us generalizing bound lexer with
  | nil =>
    match bound, hbound with
    | bound + 1, _ =>
      cases h with
      | cons hu _ =>
        obtain ⟨first, hnext, htoken⟩ := exists_next hu
        exact ⟨[first], by simp [tokensWithin, hnext, htoken], by simp [htoken]⟩
  | cons u us ih =>
    simp only [List.mem_cons, not_or] at hus
    match bound, hbound with
    | bound + 1, hbound =>
      cases h with
      | @cons _ mid _ _ _ hu hmore =>
        obtain ⟨first, hnext, htoken⟩ := exists_next hu
        have hshort : us.length < bound := by simpa using hbound
        obtain ⟨more, hwithin, hmap⟩ := @ih bound { lexer with rest := mid } hshort hus.2 hmore
        have hne : first.token ≠ .eof := by rw [htoken]; exact Ne.symm hus.1
        exact ⟨first :: more, by simp [tokensWithin, hnext, hne, hwithin], by simp [htoken, hmap]⟩

/-- The tokens of a text are those that are read off it one after the other up to its end. -/
lemma tokens_eq_ok_iff {lexer : Lexer} {us : List Token} :
    (∃ spanned, lexer.tokens = .ok spanned ∧ spanned.map (·.token) = us ++ [.eof]) ↔
      .eof ∉ us ∧ Lexes lexer.rest (us ++ [.eof]) [] := by
  constructor
  · rintro ⟨spanned, htokens, hmap⟩
    obtain ⟨us', hmap', hus, hlexes⟩ := lexes_of_tokensWithin (Nat.lt_succ_self _) htokens
    obtain rfl : us = us' := List.append_cancel_right (hmap.symm.trans hmap')
    exact ⟨hus, hlexes⟩
  · rintro ⟨hus, hlexes⟩
    obtain ⟨mid, hmid, -⟩ := lexes_append_iff.mp hlexes
    have hlength := hmid.length_le hus
    exact tokensWithin_of_lexes (by omega) hus hlexes

end Lexer

/-! ### The tokens a parser takes -/

namespace TokenStream

/-- A parser at `s` takes the tokens `us` and then stands at `s'`. -/
inductive Passes : TokenStream → List Token → TokenStream → Prop
  | refl (s : TokenStream) : Passes s [] s
  | cons {s s₁ s' : TokenStream} {us : List Token} :
      s.lexer.next = (.ok s₁.current, s₁.lexer) → Passes s₁ us s' →
      Passes s (s.current.token :: us) s'

lemma Passes.append {s mid s' : TokenStream} {us vs : List Token} (h : Passes s us mid)
    (h' : Passes mid vs s') : Passes s (us ++ vs) s' := by
  induction h with
  | refl => exact h'
  | cons hnext _ ih => exact .cons hnext (ih h')

lemma passes_append_iff {s s' : TokenStream} {us vs : List Token} :
    Passes s (us ++ vs) s' ↔ ∃ mid, Passes s us mid ∧ Passes mid vs s' := by
  constructor
  · intro h
    induction us generalizing s with
    | nil => exact ⟨s, .refl s, h⟩
    | cons u us ih =>
      cases h with
      | cons hnext hrest =>
        obtain ⟨mid, hus, hvs⟩ := ih hrest
        exact ⟨mid, .cons hnext hus, hvs⟩
  · rintro ⟨mid, hus, hvs⟩
    exact hus.append hvs

lemma passes_cons_iff {s s' : TokenStream} {u : Token} {us : List Token} :
    Passes s (u :: us) s' ↔
      s.current.token = u ∧ ∃ s₁, s.lexer.next = (.ok s₁.current, s₁.lexer) ∧ Passes s₁ us s' := by
  constructor
  · intro h
    cases h with
    | cons hnext hrest => exact ⟨rfl, _, hnext, hrest⟩
  · rintro ⟨rfl, s₁, hnext, hrest⟩
    exact .cons hnext hrest

lemma Passes.single {s s' : TokenStream} (h : s.lexer.next = (.ok s'.current, s'.lexer)) :
    Passes s [s.current.token] s' :=
  .cons h (.refl s')

/-- The tokens that a parser takes, and the one it then stands at, are tokens of the text. -/
lemma Passes.lexes {lexer : Lexer} {s s' : TokenStream} {us : List Token}
    (hfirst : lexer.next = (.ok s.current, s.lexer)) (h : Passes s us s') :
    Lexer.Lexes lexer.rest (us ++ [s'.current.token]) s'.lexer.rest := by
  induction h generalizing lexer with
  | refl => exact .single (Lexer.next_eq_ok_iff.mp hfirst).1
  | cons hnext _ ih => exact .cons (Lexer.next_eq_ok_iff.mp hfirst).1 (ih hnext)

end TokenStream

/-- A parser takes the tokens of the text in their order. -/
lemma Lexer.exists_passes {lexer : Lexer} {us : List Token} {u : Token} {rest : List Char}
    (h : Lexes lexer.rest (us ++ [u]) rest) :
    ∃ s s' : TokenStream, lexer.next = (.ok s.current, s.lexer) ∧ s.Passes us s' ∧
      s'.current.token = u := by
  induction us generalizing lexer with
  | nil =>
    cases h with
    | @cons _ mid _ _ _ hu _ =>
      obtain ⟨first, hnext, htoken⟩ := exists_next hu
      exact ⟨⟨first, { lexer with rest := mid }⟩, _, hnext, .refl _, htoken⟩
  | cons v us ih =>
    cases h with
    | @cons _ mid _ _ _ hv hmore =>
      obtain ⟨first, hnext, htoken⟩ := exists_next hv
      obtain ⟨s, s', hsecond, hpasses, hend⟩ := @ih { lexer with rest := mid } hmore
      refine ⟨⟨first, { lexer with rest := mid }⟩, s', hnext, ?_, hend⟩
      rw [← htoken]
      exact .cons hsecond hpasses

end FilterLang
