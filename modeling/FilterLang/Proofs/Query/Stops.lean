import FilterLang.Proofs.Query.Places
import FilterLang.Proofs.Query.Soundness

/-!
# What an attempt to read leaves behind

A reader that succeeds has taken tokens and stands behind them; one that stops stands at a token at or behind
the first one, and it has taken some of the levels that it was given and never more.  `Grammar.Keeps` says so
of an outcome.

How far there is still to go is counted by `TokenStream.ahead`, the number of tokens that can still be taken.
-/

namespace FilterLang

namespace TokenStream

/-! ### The tokens ahead -/

/-- How many tokens can be taken from here: those up to the end of the text, or up to the first fault. -/
def ahead (s : TokenStream) : Nat :=
  if s.current.token = .eof then 0 else s.lexer.readable.length

/-- A token that is taken is no longer ahead. -/
lemma ahead_lt_of_next {s s' : TokenStream} (h : s.lexer.next = (.ok s'.current, s'.lexer))
    (hs : s.current.token ≠ .eof) : s'.ahead < s.ahead := by
  rw [ahead, ahead, if_neg hs, Lexer.readable_of_next h]
  split
  · exact Nat.zero_lt_one
  · exact Nat.lt_succ_self _

lemma Passes.ahead_le {s s' : TokenStream} {us : List Token} (h : s.Passes us s') (hus : .eof ∉ us) :
    s'.ahead + us.length ≤ s.ahead := by
  induction h with
  | refl s => exact le_rfl
  | @cons s s₁ s' us hnext _ ih =>
    simp only [List.mem_cons, not_or] at hus
    have hlt := ahead_lt_of_next hnext (Ne.symm hus.1)
    have hle := ih hus.2
    rw [List.length_cons]
    omega

end TokenStream

lemma Phrase.ahead_lt {category : Grammar.Category} (phrase : Phrase category) {s s' : TokenStream}
    (h : s.Passes phrase.tokens s') : s'.ahead < s.ahead := by
  have hle := h.ahead_le phrase.eof_notMem_tokens
  have hpos : 0 < phrase.tokens.length := List.length_pos_iff.2 phrase.tokens_ne_nil
  omega

namespace Grammar

/-! ### Places and levels -/

/-- The outcome of reading from `s` leads forward, and an attempt that stops leaves a number of levels with some
property. -/
def Keeps {α : Type} (levels : Nat → Prop) (s : TokenStream) (stream : α → TokenStream)
    (outcome : Except ParseStop α) : Prop :=
  Meets (fun a => s.Precedes (stream a)) (fun stop => s.Precedes stop.stream ∧ levels stop.room) outcome

variable {α β : Type} {ceiling room : Nat} {levels : Nat → Prop} {s s' : TokenStream} {left : Filter}

/-- What comes behind a step starts where the step ended. -/
lemma Keeps.bind {at₁ : α → TokenStream} {at₂ : β → TokenStream} {x : Except ParseStop α}
    {f : α → Except ParseStop β} (h : Keeps levels s at₁ x)
    (hf : ∀ a, Keeps levels (at₁ a) at₂ (f a)) : Keeps levels s at₂ (x >>= f) := by
  refine Meets.bind h fun a ha => ?_
  have hnext := hf a
  cases hfa : f a with
  | ok b =>
    rw [hfa] at hnext
    exact ha.trans hnext
  | error stop =>
    rw [hfa] at hnext
    exact ⟨ha.trans hnext.1, hnext.2⟩

lemma Keeps.mono {more : Nat → Prop} {stream : α → TokenStream} {x : Except ParseStop α}
    (h : Keeps levels s stream x) (himp : ∀ n, levels n → more n) : Keeps more s stream x := by
  cases x with
  | ok a => exact h
  | error stop => exact ⟨h.1, himp _ h.2⟩

/-- A step that takes no level leaves no more than there are. -/
lemma Keeps.le {stream : α → TokenStream} {x : Except ParseStop α} (h : Keeps (· = room) s stream x) :
    Keeps (· ≤ room) s stream x :=
  h.mono fun _ => le_of_eq

lemma Keeps.succ {stream : α → TokenStream} {x : Except ParseStop α} (h : Keeps (· ≤ room) s stream x) :
    Keeps (· ≤ room + 1) s stream x :=
  h.mono fun _ => Nat.le_succ_of_le

lemma advance_keeps (room : Nat) (s : TokenStream) : Keeps (· = room) s id (advance room s) := by
  have hforward := s.precedes_advance
  rcases hnext : s.lexer.next with ⟨e | spanned, lexer⟩
  · simp only [advance, TokenStream.advance, hnext] at hforward ⊢
    exact ⟨hforward, rfl⟩
  · simp only [advance, TokenStream.advance, hnext] at hforward ⊢
    exact hforward

/-- A token that has been taken out still counts as the place from which the step is made. -/
lemma advance_blank_keeps (room : Nat) (s : TokenStream) :
    Keeps (· = room) s id (advance room s.blank) := by
  have hblank : Keeps (· = room) s TokenStream.blank (.ok s) := s.precedes_blank
  exact hblank.bind fun s => advance_keeps room s.blank

lemma refuse_keeps (cause : SyntaxCause) (stream : α → TokenStream) :
    Keeps (· = room) s stream (refuse room s cause) :=
  ⟨.refl s, rfl⟩

lemma tooDeep_keeps (stream : α → TokenStream) : Keeps (· ≤ room) s stream (tooDeep ceiling s) :=
  ⟨.refl s, Nat.zero_le room⟩

lemma comparison_keeps (room : Nat) (s : TokenStream) :
    Keeps (· = room) s Prod.snd (comparison room s) := by
  unfold comparison
  split
  · refine (advance_blank_keeps room s).bind fun s₁ => ?_
    split
    · refine (advance_keeps room s₁).bind fun s₂ => ?_
      split
      · refine (advance_blank_keeps room s₂).bind fun s₃ => ?_
        split
        · exact TokenStream.Precedes.refl s₃
        · exact ⟨.refl s₃, rfl⟩
      · exact refuse_keeps _ _
    · exact refuse_keeps _ _
  · exact refuse_keeps _ _

lemma close_rparen {inner : Filter} (h : s.current.token = .rparen) :
    close room inner s = (do
      let s ← advance room s
      return (inner, s)) := by
  simp only [close, h]

lemma close_other {inner : Filter} (h : s.current.token ≠ .rparen) :
    close room inner s = refuse room s .expectedClose := by
  unfold close
  split
  · contradiction
  · rfl

lemma close_keeps (inner : Filter) (s : TokenStream) :
    Keeps (· = room) s Prod.snd (close room inner s) := by
  by_cases hclose : s.current.token = .rparen
  · rw [close_rparen hclose]
    exact (advance_keeps room s).bind fun s₁ => TokenStream.Precedes.refl s₁
  · rw [close_other hclose]
    exact refuse_keeps _ _

/-- What the three readers leave behind with `room` levels left. -/
structure Steady (ceiling room : Nat) : Prop where
  operand : ∀ s, Keeps (· ≤ room) s Prod.snd (operand ceiling room s)
  andChain : ∀ left s, Keeps (· ≤ room) s Prod.snd (andChain ceiling room left s)
  orChain : ∀ left s, Keeps (· ≤ room) s Prod.snd (orChain ceiling room left s)

lemma Steady.conjunction (steady : Steady ceiling room) (s : TokenStream) :
    Keeps (· ≤ room) s Prod.snd (conjunction ceiling room s) :=
  (steady.operand s).bind fun read => steady.andChain read.1 read.2

lemma Steady.filter (steady : Steady ceiling room) (s : TokenStream) :
    Keeps (· ≤ room) s Prod.snd (filter ceiling room s) :=
  (steady.conjunction s).bind fun read => steady.orChain read.1 read.2

section

variable (ih : ∀ r, room = r + 1 → Steady ceiling r)

include ih

lemma operand_keeps (s : TokenStream) : Keeps (· ≤ room) s Prod.snd (operand ceiling room s) := by
  by_cases hnot : s.current.token = .not
  · match room with
    | 0 =>
      rw [operand_zero (Or.inl hnot)]
      exact tooDeep_keeps _
    | r + 1 =>
      rw [operand_not hnot]
      refine Keeps.succ ((advance_keeps r s).le.bind fun s₁ => ?_)
      refine ((ih r rfl).operand s₁).bind fun read => ?_
      exact TokenStream.Precedes.refl read.2
  by_cases hgroup : s.current.token = .lparen
  · match room with
    | 0 =>
      rw [operand_zero (Or.inr hgroup)]
      exact tooDeep_keeps _
    | r + 1 =>
      rw [operand_group hgroup]
      refine Keeps.succ ((advance_keeps r s).le.bind fun s₁ => ?_)
      refine ((ih r rfl).filter s₁).bind fun read => ?_
      exact (close_keeps read.1 read.2).le
  rw [operand_comparison hnot hgroup]
  exact (comparison_keeps room s).le

lemma andChain_keeps (left : Filter) (s : TokenStream) :
    Keeps (· ≤ room) s Prod.snd (andChain ceiling room left s) := by
  by_cases hand : s.current.token = .and
  · match room with
    | 0 =>
      rw [andChain_zero hand]
      exact tooDeep_keeps _
    | r + 1 =>
      rw [andChain_and hand]
      refine Keeps.succ ((advance_keeps r s).le.bind fun s₁ => ?_)
      refine ((ih r rfl).operand s₁).bind fun read => ?_
      exact (ih r rfl).andChain _ read.2
  · rw [andChain_stop hand]
    exact TokenStream.Precedes.refl s

lemma orChain_keeps (left : Filter) (s : TokenStream) :
    Keeps (· ≤ room) s Prod.snd (orChain ceiling room left s) := by
  by_cases hor : s.current.token = .or
  · match room with
    | 0 =>
      rw [orChain_zero hor]
      exact tooDeep_keeps _
    | r + 1 =>
      rw [orChain_or hor]
      refine Keeps.succ ((advance_keeps r s).le.bind fun s₁ => ?_)
      refine ((ih r rfl).conjunction s₁).bind fun read => ?_
      exact (ih r rfl).orChain _ read.2
  · rw [orChain_stop hor]
    exact TokenStream.Precedes.refl s

end

/-- The readers lead forward and take no level that they were not given. -/
lemma steady (ceiling room : Nat) : Steady ceiling room :=
  of_fewer (fun _ ih => ⟨operand_keeps ih, andChain_keeps ih, orChain_keeps ih⟩) room

end Grammar

end FilterLang
