import FilterLang.Proofs.Outcome
import FilterLang.Proofs.Query.Phrase
import FilterLang.Proofs.Query.Stream

/-!
# What the parser reads is a phrase

The readers of the parser are opened here once, token by token and level by level, and everything
later goes through these equations.  The main statement is `Grammar.sound`: whatever the readers
return was written as a phrase of the grammar, and that phrase needs no more levels than were left.

The induction is on the levels that are left.  It cannot be on the tokens, for the readers do not
know how many there are, and a chain has to carry along where it began: the operands it has already
read are in its accumulator and no longer in the stream.
-/

namespace FilterLang

namespace Grammar

/-! ### The readers, token by token -/

variable {ceiling room : Nat} {s s' : TokenStream} {left t : Filter}

lemma operand_not (h : s.current.token = .not) :
    operand ceiling (room + 1) s = (do
      let s ← advance room s
      let (child, s) ← operand ceiling room s
      return (.not child, s)) := by
  rw [operand, h]

/-- The closing parenthesis of a group. -/
def close (room : Nat) (inner : Filter) (s : TokenStream) : Outcome :=
  match s.current.token with
  | .rparen => do
    let s ← advance room s
    return (inner, s)
  | _ => refuse room s .expectedClose

lemma operand_group (h : s.current.token = .lparen) :
    operand ceiling (room + 1) s = (do
      let s ← advance room s
      let (inner, s) ← filter ceiling room s
      close room inner s) := by
  rw [operand, h]
  simp only [filter, conjunction, bind_assoc]
  rfl

lemma operand_comparison (hnot : s.current.token ≠ .not) (hgroup : s.current.token ≠ .lparen) :
    operand ceiling room s = comparison room s := by
  unfold operand
  split
  · contradiction
  · contradiction
  · rfl

lemma operand_zero (h : s.current.token = .not ∨ s.current.token = .lparen) :
    operand ceiling 0 s = tooDeep ceiling s := by
  rcases h with h | h <;> simp only [operand, h]

lemma andChain_and (h : s.current.token = .and) :
    andChain ceiling (room + 1) left s = (do
      let s ← advance room s
      let (right, s) ← operand ceiling room s
      andChain ceiling room (.and left right) s) := by
  rw [andChain, h]

lemma andChain_zero (h : s.current.token = .and) :
    andChain ceiling 0 left s = tooDeep ceiling s := by
  simp only [andChain, h]

lemma andChain_stop (h : s.current.token ≠ .and) : andChain ceiling room left s = .ok (left, s) := by
  unfold andChain
  split
  · contradiction
  · rfl

lemma orChain_or (h : s.current.token = .or) :
    orChain ceiling (room + 1) left s = (do
      let s ← advance room s
      let (right, s) ← conjunction ceiling room s
      orChain ceiling room (.or left right) s) := by
  rw [orChain, h]
  simp only [conjunction, bind_assoc]

lemma orChain_zero (h : s.current.token = .or) :
    orChain ceiling 0 left s = tooDeep ceiling s := by
  simp only [orChain, h]

lemma orChain_stop (h : s.current.token ≠ .or) : orChain ceiling room left s = .ok (left, s) := by
  unfold orChain
  split
  · contradiction
  · rfl

/-! ### Single steps -/

lemma advance_eq_ok_iff : advance room s = .ok s' ↔ s.lexer.next = (.ok s'.current, s'.lexer) := by
  simp only [advance, TokenStream.advance]
  rcases s.lexer.next with ⟨_ | spanned, lexer⟩
  · simp
  · simp only [Except.ok.injEq, Prod.mk.injEq]
    constructor
    · rintro rfl
      exact ⟨rfl, rfl⟩
    · rintro ⟨rfl, rfl⟩
      rfl

lemma advance_blank_eq_ok_iff :
    advance room s.blank = .ok s' ↔ s.lexer.next = (.ok s'.current, s'.lexer) :=
  advance_eq_ok_iff

/-- A name, an operator and a literal that goes with it are read as a comparison. -/
lemma comparison_of_passes {field : String} {op : Operator} {literal value : Value}
    (reads : op.Reads literal value)
    (h : s.Passes [.identifier field, .operator op, .literal literal] s') :
    comparison room s = .ok (.comparison field op value, s') := by
  obtain ⟨hfield, s₁, hnext, h⟩ := TokenStream.passes_cons_iff.mp h
  obtain ⟨hop, s₂, hnext₁, h⟩ := TokenStream.passes_cons_iff.mp h
  obtain ⟨hliteral, s₃, hnext₂, h⟩ := TokenStream.passes_cons_iff.mp h
  cases h
  have hstep : advance room s.blank = .ok s₁ := advance_blank_eq_ok_iff.mpr hnext
  have hstep₁ : advance room s₁ = .ok s₂ := advance_eq_ok_iff.mpr hnext₁
  have hstep₂ : advance room s₂.blank = .ok s' := advance_blank_eq_ok_iff.mpr hnext₂
  have hvalue := pairValue_eq_ok_iff.mpr reads
  simp [comparison, hfield, hstep, hop, hstep₁, hliteral, hstep₂, hvalue, bind, Except.bind]
  rfl

/-- Nothing else is read as a comparison. -/
lemma passes_of_comparison (h : comparison room s = .ok (t, s')) :
    ∃ field op literal value, op.Reads literal value ∧ t = .comparison field op value ∧
      s.Passes [.identifier field, .operator op, .literal literal] s' := by
  unfold comparison at h
  split at h
  · rename_i field hfield
    obtain ⟨s₁, hstep, h⟩ := bind_eq_ok_iff.mp h
    split at h
    · rename_i op hop
      obtain ⟨s₂, hstep₁, h⟩ := bind_eq_ok_iff.mp h
      split at h
      · rename_i literal hliteral
        obtain ⟨s₃, hstep₂, h⟩ := bind_eq_ok_iff.mp h
        split at h
        · rename_i value hvalue
          obtain ⟨rfl, rfl⟩ := Prod.mk.inj (Except.ok.inj h)
          refine ⟨field, op, literal, value, pairValue_eq_ok_iff.mp hvalue, rfl, ?_⟩
          rw [← hfield, ← hop, ← hliteral]
          have hnext := advance_blank_eq_ok_iff.mp hstep
          have hnext₂ := advance_blank_eq_ok_iff.mp hstep₂
          exact .cons hnext (.cons (advance_eq_ok_iff.mp hstep₁) (.single hnext₂))
        · exact absurd h (by simp [throw, throwThe, MonadExceptOf.throw])
      · exact absurd h (by simp [refuse])
    · exact absurd h (by simp [refuse])
  · exact absurd h (by simp [refuse])

/-- What holds with some levels left if it holds with one level less holds with any number: with no level left
only a comparison is read, and no chain goes on. -/
lemma of_fewer {P : Nat → Prop} (h : ∀ room, (∀ r, room = r + 1 → P r) → P room) (room : Nat) : P room := by
  induction room with
  | zero => exact h 0 fun r hr => absurd hr (by simp)
  | succ room ih => exact h (room + 1) fun r hr => Nat.succ.inj hr ▸ ih

/-! ### What is read follows the grammar -/

/-- What the three readers promise with `room` levels left: what they read is a phrase that needs no
more than these levels.  A chain goes on from a phrase `left` that starts at `s₀`, and the levels that
its operands have taken come back at its end. -/
structure Sound (ceiling room : Nat) : Prop where
  operand : ∀ {s s' : TokenStream} {t : Filter}, operand ceiling room s = .ok (t, s') →
    ∃ phrase : Phrase .operand, phrase.toFilter = t ∧ phrase.need ≤ room ∧
      s.Passes phrase.tokens s'
  andChain : ∀ {s₀ s s' : TokenStream} {left : Phrase .conjunction} {t : Filter},
    s₀.Passes left.tokens s → left.need ≤ room + left.folds →
    andChain ceiling room left.toFilter s = .ok (t, s') →
    ∃ phrase : Phrase .conjunction, phrase.toFilter = t ∧ phrase.need ≤ room + left.folds ∧
      s₀.Passes phrase.tokens s'
  orChain : ∀ {s₀ s s' : TokenStream} {left : Phrase .filter} {t : Filter},
    s₀.Passes left.tokens s → left.need ≤ room + left.folds →
    orChain ceiling room left.toFilter s = .ok (t, s') →
    ∃ phrase : Phrase .filter, phrase.toFilter = t ∧ phrase.need ≤ room + left.folds ∧
      s₀.Passes phrase.tokens s'

lemma Sound.conjunction (sound : Sound ceiling room)
    (h : conjunction ceiling room s = .ok (t, s')) :
    ∃ phrase : Phrase .conjunction, phrase.toFilter = t ∧ phrase.need ≤ room ∧
      s.Passes phrase.tokens s' := by
  obtain ⟨⟨first, s₁⟩, hfirst, hchain⟩ := bind_eq_ok_iff.mp h
  obtain ⟨phrase, rfl, hneed, hpasses⟩ := sound.operand hfirst
  exact @Sound.andChain _ _ sound _ _ _ (.operand phrase) _ hpasses hneed hchain

lemma Sound.filter (sound : Sound ceiling room) (h : filter ceiling room s = .ok (t, s')) :
    ∃ phrase : Phrase .filter, phrase.toFilter = t ∧ phrase.need ≤ room ∧
      s.Passes phrase.tokens s' := by
  obtain ⟨⟨first, s₁⟩, hfirst, hchain⟩ := bind_eq_ok_iff.mp h
  obtain ⟨phrase, rfl, hneed, hpasses⟩ := sound.conjunction hfirst
  exact @Sound.orChain _ _ sound _ _ _ (.conjunction phrase) _ hpasses hneed hchain

/-- Joining a phrase to a chain puts its tokens behind the token `u`, and it is read with one level more
than the operand before it. -/
structure Joins {chain part : Category} (u : Token)
    (join : Phrase chain → Phrase part → Phrase chain) : Prop where
  tokens : ∀ left right, (join left right).tokens = left.tokens ++ u :: right.tokens
  folds : ∀ left right, (join left right).folds = left.folds + 1
  need : ∀ left right, (join left right).need = max left.need (left.folds + 1 + right.need)

lemma joins_and : Joins .and Phrase.and := ⟨fun _ _ => rfl, fun _ _ => rfl, fun _ _ => rfl⟩

lemma joins_or : Joins .or Phrase.or := ⟨fun _ _ => rfl, fun _ _ => rfl, fun _ _ => rfl⟩

/-- A chain and one more part of it. -/
lemma Joins.passes {chain part : Category} {u : Token} {join : Phrase chain → Phrase part → Phrase chain}
    (hjoin : Joins u join) {s₀ s₁ : TokenStream} {left : Phrase chain} {right : Phrase part}
    (hleft : s₀.Passes left.tokens s) (hcurrent : s.current.token = u) (hstep : advance room s = .ok s₁)
    (hright : s₁.Passes right.tokens s') : s₀.Passes (join left right).tokens s' := by
  rw [hjoin.tokens, ← hcurrent]
  exact hleft.append (.cons (advance_eq_ok_iff.1 hstep) hright)

/-- A chain that has read one more operand has used one more level, and no more than were left. -/
lemma Joins.grow {chain part : Category} {u : Token}
    {join : Phrase chain → Phrase part → Phrase chain} (hjoin : Joins u join)
    {s₀ s₁ : TokenStream} {left : Phrase chain} {right : Phrase part}
    (hleft : s₀.Passes left.tokens s) (hneed : left.need ≤ room + 1 + left.folds)
    (hcurrent : s.current.token = u) (hstep : advance room s = .ok s₁)
    (hright : s₁.Passes right.tokens s') (hneed' : right.need ≤ room) :
    s₀.Passes (join left right).tokens s' ∧
      (join left right).need ≤ room + (join left right).folds := by
  refine ⟨hjoin.passes hleft hcurrent hstep hright, ?_⟩
  rw [hjoin.need, hjoin.folds]
  omega

section

variable (ih : ∀ r, room = r + 1 → Sound ceiling r)

include ih

lemma operand_sound (h : operand ceiling room s = .ok (t, s')) :
    ∃ phrase : Phrase .operand, phrase.toFilter = t ∧ phrase.need ≤ room ∧
      s.Passes phrase.tokens s' := by
  -- every form of an operand shows at its first token
  by_cases hnot : s.current.token = .not
  · match room with
    | 0 => exact absurd h (by simp [operand_zero (Or.inl hnot), tooDeep])
    | r + 1 =>
      rw [operand_not hnot] at h
      obtain ⟨s₁, hstep, h⟩ := bind_eq_ok_iff.mp h
      obtain ⟨⟨child, s₂⟩, hchild, h⟩ := bind_eq_ok_iff.mp h
      obtain ⟨rfl, rfl⟩ := Prod.mk.inj (Except.ok.inj h)
      obtain ⟨phrase, rfl, hneed, hpasses⟩ := (ih r rfl).operand hchild
      refine ⟨.not phrase, rfl, Nat.succ_le_succ hneed, ?_⟩
      rw [Phrase.tokens, ← hnot]
      exact .cons (advance_eq_ok_iff.mp hstep) hpasses
  by_cases hgroup : s.current.token = .lparen
  · match room with
    | 0 => exact absurd h (by simp [operand_zero (Or.inr hgroup), tooDeep])
    | r + 1 =>
      rw [operand_group hgroup] at h
      obtain ⟨s₁, hstep, h⟩ := bind_eq_ok_iff.mp h
      obtain ⟨⟨inner, s₂⟩, hinner, h⟩ := bind_eq_ok_iff.mp h
      obtain ⟨phrase, rfl, hneed, hpasses⟩ := (ih r rfl).filter hinner
      simp only [close] at h
      split at h
      · rename_i hclose
        obtain ⟨s₃, hstep₂, h⟩ := bind_eq_ok_iff.mp h
        obtain ⟨rfl, rfl⟩ := Prod.mk.inj (Except.ok.inj h)
        refine ⟨.group phrase, rfl, Nat.succ_le_succ hneed, ?_⟩
        rw [Phrase.tokens, ← hgroup, ← hclose]
        exact .cons (advance_eq_ok_iff.mp hstep)
          (hpasses.append (.single (advance_eq_ok_iff.mp hstep₂)))
      · exact absurd h (by simp [refuse])
  rw [operand_comparison hnot hgroup] at h
  obtain ⟨field, op, literal, value, reads, rfl, hpasses⟩ := passes_of_comparison h
  exact ⟨.comparison field op literal value reads, rfl, Nat.zero_le _, hpasses⟩

lemma andChain_sound {s₀ : TokenStream} {left : Phrase .conjunction}
    (hleft : s₀.Passes left.tokens s) (hneed : left.need ≤ room + left.folds)
    (h : andChain ceiling room left.toFilter s = .ok (t, s')) :
    ∃ phrase : Phrase .conjunction, phrase.toFilter = t ∧ phrase.need ≤ room + left.folds ∧
      s₀.Passes phrase.tokens s' := by
  by_cases hand : s.current.token = .and
  · match room with
    | 0 => exact absurd h (by simp [andChain_zero hand, tooDeep])
    | r + 1 =>
      rw [andChain_and hand] at h
      obtain ⟨s₁, hstep, h⟩ := bind_eq_ok_iff.mp h
      obtain ⟨⟨right, s₂⟩, hright, h⟩ := bind_eq_ok_iff.mp h
      obtain ⟨phrase, rfl, hneed', hpasses⟩ := (ih r rfl).operand hright
      -- the chain grown by one operand is what the loop goes on from
      obtain ⟨hgrown, hlevels⟩ := joins_and.grow hleft hneed hand hstep hpasses hneed'
      obtain ⟨whole, hwhole, hneed'', hpasses'⟩ := (ih r rfl).andChain hgrown hlevels h
      refine ⟨whole, hwhole, ?_, hpasses'⟩
      simp only [Phrase.folds] at hneed''
      omega
  · rw [andChain_stop hand] at h
    obtain ⟨rfl, rfl⟩ := Prod.mk.inj (Except.ok.inj h)
    exact ⟨left, rfl, hneed, hleft⟩

lemma orChain_sound {s₀ : TokenStream} {left : Phrase .filter}
    (hleft : s₀.Passes left.tokens s) (hneed : left.need ≤ room + left.folds)
    (h : orChain ceiling room left.toFilter s = .ok (t, s')) :
    ∃ phrase : Phrase .filter, phrase.toFilter = t ∧ phrase.need ≤ room + left.folds ∧
      s₀.Passes phrase.tokens s' := by
  by_cases hor : s.current.token = .or
  · match room with
    | 0 => exact absurd h (by simp [orChain_zero hor, tooDeep])
    | r + 1 =>
      rw [orChain_or hor] at h
      obtain ⟨s₁, hstep, h⟩ := bind_eq_ok_iff.mp h
      obtain ⟨⟨right, s₂⟩, hright, h⟩ := bind_eq_ok_iff.mp h
      obtain ⟨phrase, rfl, hneed', hpasses⟩ := (ih r rfl).conjunction hright
      obtain ⟨hgrown, hlevels⟩ := joins_or.grow hleft hneed hor hstep hpasses hneed'
      obtain ⟨whole, hwhole, hneed'', hpasses'⟩ := (ih r rfl).orChain hgrown hlevels h
      refine ⟨whole, hwhole, ?_, hpasses'⟩
      simp only [Phrase.folds] at hneed''
      omega
  · rw [orChain_stop hor] at h
    obtain ⟨rfl, rfl⟩ := Prod.mk.inj (Except.ok.inj h)
    exact ⟨left, rfl, hneed, hleft⟩

end

/-- What is read with some levels left is a phrase that needs no more than these. -/
lemma sound (ceiling room : Nat) : Sound ceiling room :=
  of_fewer (fun _ ih => ⟨operand_sound ih, andChain_sound ih, orChain_sound ih⟩) room

end Grammar

end FilterLang
