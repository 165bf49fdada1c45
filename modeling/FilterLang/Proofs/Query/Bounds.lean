import FilterLang.Proofs.Query.Lockstep

/-!
# Reading goes forward and stays in the text

A lexer can be asked for the next token again and again, also behind the end of the text and behind a fault that
has left it in the middle of a string, a number or a list.  `Counting.after` is the count after so many readings.
What one reading does to a count that is in the text is `Counting.Progress`: the count does not go back and does
not leave the text, and whatever place is reported is a place between two characters.

The tokens of a text are read by a loop.  `Counting.Tokenizes` says how the loop runs, without a bound on its
rounds.  It ends because every token but the end of the text takes a character.
-/

namespace FilterLang.Counting

open Lexer (Offset contextRadius)

/-! ### Readings one after the other -/

/-- The count that is left, whatever the result. -/
def left {α : Type} : EStateM.Result Mishap Nat α → Nat
  | .ok _ count => count
  | .error _ count => count

/-- The count behind a reading. -/
def behind (source : Source) (count : Nat) : Nat := left ((next source).run count)

/-- The count after a number of readings, whatever they have given. -/
def after (source : Source) (n : Nat) : Nat := (behind source)^[n] 0

lemma behind_cursor {lexer : Lexer} (h : lexer.InText) :
    behind (.ofText lexer.text) lexer.cursor = lexer.next.2.cursor := by
  rw [behind, run_next h, settled]
  cases lexer.next.1 <;> rfl

/-- The two lexers stay together. -/
lemma after_eq_cursor (text : String) (n : Nat) :
    after (.ofText text) n = ((Lexer.ofText text).after n).cursor := by
  induction n with
  | zero =>
    show 0 = text.length - text.toList.length
    rw [String.length_toList, Nat.sub_self]
  | succ n ih =>
    obtain ⟨htext, hin⟩ := Lexer.inText_after text n
    have hbehind := behind_cursor hin
    rw [htext, ← ih] at hbehind
    rw [after, Function.iterate_succ_apply', Lexer.after_succ]
    exact hbehind

/-! ### One reading -/

/-- What one reading does to a count.  A token stands where the count is or behind, and the count goes behind
it; only the end of the text takes no character.  A reading that gives no token has found a fault; its place is in
the text, and so is the context that is shown with it. -/
structure Progress (text : String) (count : Nat) : Prop where
  le_behind : count ≤ behind (.ofText text) count
  behind_le : behind (.ofText text) count ≤ text.length
  token : ∀ spanned count', (next (.ofText text)).run count = .ok spanned count' →
    ∃ index, Offset text index spanned.position ∧ count ≤ index ∧ index ≤ count' ∧
      (spanned.token = .eof → index = text.length) ∧ (spanned.token ≠ .eof → index < count')
  fault : ∀ mishap count', (next (.ofText text)).run count = .error mishap count' →
    ∃ e index, mishap = .error e ∧ Offset text index e.position ∧ count ≤ index ∧ index ≤ count' ∧
      ∃ start stop, start ≤ stop ∧ stop ≤ text.length ∧ start = index - contextRadius ∧
        stop = min (index + contextRadius) text.length ∧
        e.context = String.ofList ((text.toList.take stop).drop start)

lemma settled_eq_ok_iff {reading : Except LexError SpannedToken × Lexer} {spanned : SpannedToken} {count : Nat} :
    settled reading = .ok spanned count ↔ reading.1 = .ok spanned ∧ reading.2.cursor = count := by
  rw [settled]
  cases reading.1 <;> simp

lemma settled_eq_error_iff {reading : Except LexError SpannedToken × Lexer} {mishap : Mishap} {count : Nat} :
    settled reading = .error mishap count ↔
      ∃ e, reading.1 = .error e ∧ mishap = .error e ∧ reading.2.cursor = count := by
  rw [settled]
  cases reading.1 <;> simp [eq_comm]

lemma progress_cursor {lexer : Lexer} (h : lexer.InText) : Progress lexer.text lexer.cursor := by
  have hblanks := Lexer.skipBlanks_suffix lexer.rest
  have hbehind := behind_cursor h
  refine ⟨hbehind ▸ Lexer.cursor_le_cursor_next, ?_, ?_, ?_⟩
  · rw [hbehind, ← lexer.next_suffix.1]
    exact h.next.rest_eq.1
  · intro spanned count' hrun
    rw [run_next h, settled_eq_ok_iff] at hrun
    obtain ⟨hspanned, rfl⟩ := hrun
    have hnext : lexer.next = (.ok spanned, lexer.next.2) := Prod.ext hspanned rfl
    obtain ⟨htoken, hposition, -⟩ := Lexer.next_eq_ok_iff.1 hnext
    obtain ⟨hlow, hhigh⟩ := Lexer.index_between hblanks lexer.next_suffix.2
    refine ⟨_, hposition ▸ Lexer.offset_of_suffix (hblanks.trans h), hlow, hhigh, ?_, ?_⟩
    · intro heof
      rw [heof] at htoken
      rw [(Lexer.token_eq_eof_iff.1 htoken).1]
      rfl
    · intro hne
      -- the token is not the end, so its first character is gone
      have hlt := Lexer.length_rest_lt htoken hne
      have hle := (hblanks.trans h).length_le
      rw [String.length_toList] at hle
      rw [Lexer.cursor, lexer.next_suffix.1]
      omega
  · intro mishap count' hrun
    rw [run_next h, settled_eq_error_iff] at hrun
    obtain ⟨e, he, rfl, rfl⟩ := hrun
    obtain ⟨fault, hfault, rfl, hrest⟩ := Lexer.next_eq_error he
    have hlies := Lexer.token_fault hfault
    obtain ⟨hlow, hhigh⟩ := Lexer.index_between (hlies.site.trans hblanks) (hrest ▸ hlies.rest)
    have hsite := (hlies.site.trans hblanks).trans h
    have hoffset := Lexer.offset_of_suffix hsite
    have hle := hoffset.index_le
    exact ⟨_, _, rfl, hoffset, hlow, hhigh, _, _, by omega, Nat.min_le_right _ _, rfl, rfl,
      Lexer.locate_context hsite rfl⟩

/-- Any count in the text makes progress, whether it is reached or not. -/
lemma progress_of_le {text : String} {count : Nat} (h : count ≤ text.length) : Progress text count := by
  have hcursor : Lexer.cursor ⟨text, text.toList.drop count⟩ = count := by
    show text.length - (text.toList.drop count).length = count
    rw [List.length_drop, String.length_toList]
    omega
  have hprogress := @progress_cursor ⟨text, text.toList.drop count⟩ (List.drop_suffix _ _)
  rwa [hcursor] at hprogress

/-! ### All the tokens of a text -/

/-- The loop that reads tokens up to the end of the text, or up to a mishap, ends with this outcome. -/
inductive Tokenizes (source : Source) : Nat → Except Mishap (List SpannedToken) → Prop
  | fault {count count' : Nat} {mishap : Mishap} :
      (next source).run count = .error mishap count' → Tokenizes source count (.error mishap)
  | eof {count count' : Nat} {spanned : SpannedToken} :
      (next source).run count = .ok spanned count' → spanned.token = .eof →
        Tokenizes source count (.ok [spanned])
  | more {count count' : Nat} {spanned : SpannedToken} {outcome : Except Mishap (List SpannedToken)} :
      (next source).run count = .ok spanned count' → spanned.token ≠ .eof →
        Tokenizes source count' outcome → Tokenizes source count (outcome.map (spanned :: ·))

/-- Every token but the end takes a character, so the loop ends. -/
lemma tokenizes_tokensWithin {lexer : Lexer} (h : lexer.InText) {bound : Nat}
    (hbound : lexer.rest.length < bound) :
    Tokenizes (.ofText lexer.text) lexer.cursor ((lexer.tokensWithin bound).mapError .error) := by
  induction bound generalizing lexer with
  | zero => exact absurd hbound (Nat.not_lt_zero _)
  | succ bound ih =>
    have hrun := run_next h
    have hin := h.next
    have htext := lexer.next_suffix.1
    rw [Lexer.tokensWithin]
    split
    · rename_i e behind hnext
      rw [hnext] at hrun
      exact .fault hrun
    · rename_i spanned behind hnext
      rw [hnext] at hrun hin htext
      split
      · rename_i heof
        exact .eof hrun heof
      · rename_i hne
        have hlt := Lexer.length_lt_of_token (Lexer.next_eq_ok_iff.1 hnext).1 hne
        have hle := (Lexer.skipBlanks_suffix lexer.rest).length_le
        have hmore := ih hin (show behind.rest.length < bound by omega)
        rw [show behind.text = lexer.text from htext] at hmore
        have hwhole := Tokenizes.more hrun hne hmore
        split
        · rename_i more hwithin
          rwa [hwithin] at hwhole
        · rename_i e hwithin
          rwa [hwithin] at hwhole

/-- It ends in one way only. -/
lemma Tokenizes.unique {source : Source} {count : Nat} {outcome outcome' : Except Mishap (List SpannedToken)}
    (h : Tokenizes source count outcome) (h' : Tokenizes source count outcome') : outcome = outcome' := by
  induction h generalizing outcome' with
  | fault hrun =>
    cases h' with
    | fault hrun' =>
      rw [hrun] at hrun'
      cases hrun'
      rfl
    | eof hrun' _ => exact absurd (hrun.symm.trans hrun') nofun
    | more hrun' _ _ => exact absurd (hrun.symm.trans hrun') nofun
  | eof hrun heof =>
    cases h' with
    | fault hrun' => exact absurd (hrun.symm.trans hrun') nofun
    | eof hrun' _ =>
      rw [hrun] at hrun'
      cases hrun'
      rfl
    | more hrun' hne _ =>
      rw [hrun] at hrun'
      cases hrun'
      exact absurd heof hne
  | more hrun hne _ ih =>
    cases h' with
    | fault hrun' => exact absurd (hrun.symm.trans hrun') nofun
    | eof hrun' heof =>
      rw [hrun] at hrun'
      cases hrun'
      exact absurd heof hne
    | more hrun' _ hmore =>
      rw [hrun] at hrun'
      cases hrun'
      rw [ih hmore]

/-- The loop ends as the bounded loop over what is left of the text does. -/
lemma tokenizes_iff {lexer : Lexer} (h : lexer.InText) {outcome : Except Mishap (List SpannedToken)} :
    Tokenizes (.ofText lexer.text) lexer.cursor outcome ↔ lexer.tokens.mapError .error = outcome := by
  have htokens := tokenizes_tokensWithin h (Nat.lt_succ_self _)
  constructor
  · exact htokens.unique
  · rintro rfl
    exact htokens

/-- A further character takes a further byte. -/
lemma byteLength_take_lt {cs : List Char} {i j : Nat} (hij : i < j) (hj : j ≤ cs.length) :
    Lexer.byteLength (cs.take i) < Lexer.byteLength (cs.take j) := by
  have hsplit : cs.take j = cs.take i ++ (cs.drop i).take (j - i) := by
    rw [← List.take_add, Nat.add_sub_cancel' hij.le]
  obtain ⟨c, rest, hrest⟩ : ∃ c rest, (cs.drop i).take (j - i) = c :: rest := by
    refine List.exists_cons_of_ne_nil fun hnil => ?_
    have hlength := congrArg List.length hnil
    rw [List.length_take, List.length_drop, List.length_nil] at hlength
    omega
  have hpos := c.utf8Size_pos
  rw [hsplit, hrest, Lexer.byteLength_append, Lexer.byteLength_cons]
  omega

/-- The tokens of a loop that ends well: their places increase, from the count on, and the end of the text comes
last. -/
lemma Tokenizes.places {text : String} {count : Nat} {spanned : List SpannedToken}
    (h : Tokenizes (.ofText text) count (.ok spanned)) (hcount : count ≤ text.length) :
    (∀ u ∈ spanned, ∃ index, Offset text index u.position ∧ count ≤ index) ∧
      spanned.Pairwise (fun u v => u.position < v.position) ∧
      ∃ before, spanned = before ++ [⟨.eof, text.utf8ByteSize⟩] ∧ ∀ u ∈ before, u.token ≠ .eof := by
  generalize houtcome : Except.ok spanned = outcome at h
  induction h generalizing spanned with
  | fault => cases houtcome
  | @eof count count' last hrun heof =>
    obtain rfl := Except.ok.inj houtcome
    obtain ⟨index, hoffset, hle, -, hend, -⟩ := (progress_of_le hcount).token last count' hrun
    have hlast : last = ⟨.eof, text.utf8ByteSize⟩ := by
      obtain ⟨token, position⟩ := last
      obtain rfl : token = .eof := heof
      have hposition : position = Lexer.byteLength (text.toList.take index) := hoffset.position_eq
      rw [hend rfl, ← String.length_toList, List.take_length, Lexer.byteLength_toList] at hposition
      rw [hposition]
    exact ⟨List.forall_mem_singleton.2 ⟨index, hoffset, hle⟩, List.pairwise_singleton _ _, [],
      congrArg (fun u => [u]) hlast, by simp⟩
  | @more count count' first outcome hrun hne _ ih =>
    cases outcome with
    | error mishap => cases houtcome
    | ok more =>
      obtain rfl := Except.ok.inj houtcome
      obtain ⟨index, hoffset, hle, -, -, htaken⟩ := (progress_of_le hcount).token first count' hrun
      have hlt := htaken hne
      have hcount' : count' ≤ text.length := by
        have hbehind := (progress_of_le hcount).behind_le
        rwa [behind, hrun] at hbehind
      obtain ⟨hplaces, hpairwise, before, rfl, hbefore⟩ := ih hcount' rfl
      refine ⟨List.forall_mem_cons.2 ⟨⟨index, hoffset, hle⟩, ?_⟩, List.pairwise_cons.2 ⟨?_, hpairwise⟩,
        first :: before, rfl, List.forall_mem_cons.2 ⟨hne, hbefore⟩⟩
      · intro u hu
        obtain ⟨index', hoffset', hle'⟩ := hplaces u hu
        exact ⟨index', hoffset', by omega⟩
      · intro u hu
        obtain ⟨index', hoffset', hle'⟩ := hplaces u hu
        rw [hoffset.position_eq, hoffset'.position_eq]
        exact byteLength_take_lt (by omega) (String.length_toList ▸ hoffset'.index_le)

/-- **The lexer makes progress and stays in the text.**  A lexer may be asked for any number of tokens, beyond
faults and beyond the end of the text.  The count never goes back and never leaves the text; every token but the
end of the text takes a character; a reading that gives no token has found a fault, with a context that is cut out
of the text around its place; and every place that is reported is the byte offset of a character or of the end of
the text.  Wherever the lexer then stands, the loop over the tokens ends, and if it meets no fault the places of
the tokens increase strictly up to the end of the text, which comes last. -/
theorem progress_after (text : String) (n : Nat) :
    let source := Source.ofText text
    let count := after source n
    let lexer := (Lexer.ofText text).after n
    (count = lexer.cursor ∧ (next source).run count = settled lexer.next) ∧
      Progress text count ∧
      (∀ index position, Offset text index position → String.Pos.Raw.IsValid text ⟨position⟩) ∧
      (∀ outcome, Tokenizes source count outcome ↔ lexer.tokens.mapError .error = outcome) ∧
      ∀ spanned, Tokenizes source count (.ok spanned) →
        spanned.Pairwise (fun u v => u.position < v.position) ∧
          ∃ before, spanned = before ++ [⟨.eof, text.utf8ByteSize⟩] ∧ ∀ u ∈ before, u.token ≠ .eof := by
  intro source count lexer
  obtain ⟨htext, hin⟩ := Lexer.inText_after text n
  have hcount : count = lexer.cursor := after_eq_cursor text n
  have hle : count ≤ text.length := by
    rw [hcount, ← htext]
    exact hin.rest_eq.1
  have hrun := run_next hin
  rw [htext, ← after_eq_cursor] at hrun
  refine ⟨⟨hcount, hrun⟩, progress_of_le hle, fun _ _ => Offset.isValid, ?_, ?_⟩
  · intro outcome
    have htokens := @tokenizes_iff lexer hin outcome
    rwa [htext, ← after_eq_cursor] at htokens
  · intro spanned hspanned
    exact (hspanned.places hle).2

end FilterLang.Counting
