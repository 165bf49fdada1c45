import FilterLang.Query.Lexer
import Mathlib.Data.List.TakeDrop
import Mathlib.Tactic

/-!
# What a token takes from the text

A token is read off the front of the text, and what is left is a suffix of the text.  This file
says, function by function, which suffix it is: behind every token but the end of the text, at least
one character is gone.  On the way there stand the two inversions that later files build on,
`token_cases` and `word_cases`: they list every way in which a token can have been read.
-/

namespace FilterLang.Lexer

/-! ### Keywords -/

/-- A keyword is found exactly where the text starts with it, up to `fold`, and no word goes on
behind it. -/
lemma behindKeyword?_eq_some_iff {fold : Char → Char} {keyword cs rest : List Char} :
    behindKeyword? fold keyword cs = some rest ↔
      ∃ front, cs = front ++ rest ∧ front.map fold = keyword ∧ startsWord rest = false := by
  induction keyword generalizing cs with
  | nil =>
    constructor
    · intro h
      simp only [behindKeyword?] at h
      split at h
      · exact absurd h (by simp)
      · rename_i hword
        obtain rfl : cs = rest := by simpa using h
        exact ⟨[], rfl, rfl, by simpa using hword⟩
    · rintro ⟨front, rfl, hfront, hword⟩
      obtain rfl : front = [] := by simpa using hfront
      simp [behindKeyword?, hword]
  | cons k keyword ih =>
    cases cs with
    | nil =>
      constructor
      · intro h
        exact absurd h (by simp [behindKeyword?])
      · rintro ⟨front, hcs, hfront, -⟩
        obtain ⟨rfl, -⟩ := List.append_eq_nil_iff.mp hcs.symm
        exact absurd hfront (by simp)
    | cons c cs =>
      simp only [behindKeyword?]
      constructor
      · intro h
        split at h
        · rename_i hc
          obtain ⟨front, rfl, hfront, hword⟩ := ih.mp h
          exact ⟨c :: front, rfl, by simp [hc, hfront], hword⟩
        · exact absurd h (by simp)
      · rintro ⟨front, hcs, hfront, hword⟩
        match front, hfront with
        | d :: front, hfront =>
          obtain ⟨rfl, rfl⟩ := List.cons.inj hcs
          obtain ⟨hd, hfront⟩ := List.cons.inj hfront
          rw [if_pos hd]
          exact ih.mpr ⟨front, rfl, hfront, hword⟩

lemma suffix_of_behindKeyword? {fold : Char → Char} {keyword cs rest : List Char}
    (hne : keyword ≠ []) (h : behindKeyword? fold keyword cs = some rest) : rest <:+ cs.tail := by
  obtain ⟨front, rfl, hfront, -⟩ := behindKeyword?_eq_some_iff.mp h
  cases front with
  | nil => exact absurd hfront.symm hne
  | cons c front => exact List.suffix_append front rest

lemma wordLiteral?_eq_some {cs rest : List Char} {value : Scalar}
    (h : wordLiteral? cs = some (value, rest)) :
    ∃ entry ∈ wordLiterals, entry.2 = value ∧
      behindKeyword? Char.toLower entry.1.toList cs = some rest := by
  obtain ⟨entry, hmem, hfound⟩ := List.exists_of_findSome?_eq_some h
  simp only [Option.map_eq_some_iff, Prod.mk.injEq] at hfound
  obtain ⟨rest', hrest, rfl, rfl⟩ := hfound
  exact ⟨entry, hmem, rfl, hrest⟩

lemma wordLiteral?_eq_none_iff {cs : List Char} :
    wordLiteral? cs = none ↔
      ∀ entry ∈ wordLiterals, behindKeyword? Char.toLower entry.1.toList cs = none := by
  simp only [wordLiteral?, List.findSome?_eq_none_iff, Option.map_eq_none_iff]

lemma wordLiteral?_suffix {cs rest : List Char} {value : Scalar}
    (h : wordLiteral? cs = some (value, rest)) : rest <:+ cs.tail := by
  obtain ⟨entry, hmem, -, hrest⟩ := wordLiteral?_eq_some h
  refine suffix_of_behindKeyword? ?_ hrest
  simp only [wordLiterals, List.mem_cons, List.not_mem_nil, or_false] at hmem
  rcases hmem with rfl | rfl | rfl <;> decide

/-- The ways to read a word: as a keyword, as a literal, or, if it is neither, as a name. -/
lemma word_cases {cs rest : List Char} {u : Token} (h : word cs = (u, rest)) :
    (∃ entry ∈ keywordTokens, entry.2 = u ∧ behindKeyword? id entry.1.toList cs = some rest) ∨
      (∀ entry ∈ keywordTokens, behindKeyword? id entry.1.toList cs = none) ∧
        ((∃ value, wordLiteral? cs = some (value, rest) ∧ u = .literal (.scalar value)) ∨
          wordLiteral? cs = none ∧ u = .identifier (String.ofList (cs.takeWhile isNameChar)) ∧
            rest = cs.dropWhile isNameChar) := by
  simp only [word] at h
  split at h
  · rename_i found hfound
    subst h
    obtain ⟨entry, hmem, hentry⟩ := List.exists_of_findSome?_eq_some hfound
    simp only [Option.map_eq_some_iff, Prod.mk.injEq] at hentry
    obtain ⟨rest', hrest, hu, rfl⟩ := hentry
    exact Or.inl ⟨entry, hmem, hu, hrest⟩
  · rename_i hnone
    refine Or.inr ⟨fun entry hmem => ?_, ?_⟩
    · simpa using List.findSome?_eq_none_iff.mp hnone entry hmem
    split at h
    · rename_i value rest' hvalue
      obtain ⟨rfl, rfl⟩ := Prod.mk.inj h
      exact Or.inl ⟨value, hvalue, rfl⟩
    · rename_i hvalue
      rw [List.span_eq_takeWhile_dropWhile] at h
      obtain ⟨rfl, rfl⟩ := Prod.mk.inj h
      exact Or.inr ⟨hvalue, rfl, rfl⟩

lemma keywordTokens_ne_nil {entry : String × Token} (h : entry ∈ keywordTokens) :
    entry.1.toList ≠ [] := by
  revert entry
  decide

lemma word_suffix {c : Char} {cs rest : List Char} {u : Token} (hc : isWordChar c = true)
    (h : word (c :: cs) = (u, rest)) : rest <:+ cs := by
  rcases word_cases h with ⟨entry, hmem, -, hrest⟩ | ⟨-, ⟨value, hvalue, -⟩ | ⟨-, -, rfl⟩⟩
  · exact suffix_of_behindKeyword? (keywordTokens_ne_nil hmem) hrest
  · exact wordLiteral?_suffix hvalue
  · have hname : isNameChar c = true := by simp [isNameChar, hc]
    rw [List.dropWhile_cons_of_pos hname]
    exact List.dropWhile_suffix _

/-! ### Literals -/

lemma stringBody_suffix {quote : Char} {start cs body rest : List Char}
    (h : stringBody quote start cs = .ok (body, rest)) : rest <:+ cs := by
  fun_induction stringBody quote start cs generalizing body with
  | case1 => exact absurd h (by simp)
  | case2 =>
    obtain ⟨-, rfl⟩ := Prod.mk.inj (Except.ok.inj h)
    exact List.suffix_cons _ _
  | case3 => exact absurd h (by simp)
  | case4 => exact absurd h (by simp)
  | case5 escaped cs _ _ _ rest' hbody _ ih =>
    obtain ⟨-, rfl⟩ := Prod.mk.inj (Except.ok.inj h)
    exact (ih hbody).trans ((List.suffix_cons _ _).trans (List.suffix_cons _ _))
  | case6 => exact absurd h (by simp)
  | case7 c cs _ _ body' rest' hbody ih =>
    obtain ⟨-, rfl⟩ := Prod.mk.inj (Except.ok.inj h)
    exact (ih hbody).trans (List.suffix_cons _ _)
  | case8 => exact absurd h (by simp)

lemma string_suffix {quote : Char} {cs rest : List Char} {value : Scalar}
    (h : string quote cs = .ok (value, rest)) : rest <:+ cs.tail := by
  simp only [string] at h
  split at h
  · rename_i body rest' hbody
    obtain ⟨-, rfl⟩ := Prod.mk.inj (Except.ok.inj h)
    exact stringBody_suffix hbody
  · exact absurd h (by simp)

/-- The ways to read a number: a run of digits and points, with or without a sign. -/
lemma number_cases {cs rest : List Char} {value : Scalar} (h : number cs = .ok (value, rest)) :
    ∃ negative body, cs = (if negative then '-' :: body else body) ∧
      (negative = false → body.head? ≠ some '-') ∧
      wellFormedNumber (body.takeWhile isNumberChar) = true ∧ startsWord rest = false ∧
      value = numberValue negative (body.takeWhile isNumberChar) ∧
      rest = body.dropWhile isNumberChar := by
  simp only [number, List.span_eq_takeWhile_dropWhile] at h
  set negative := cs.head? == some '-' with hnegative
  refine ⟨negative, if negative then cs.tail else cs, ?_⟩
  have hcs : cs = if negative then '-' :: (if negative then cs.tail else cs)
      else if negative then cs.tail else cs := by
    match cs with
    | [] => simp [hnegative]
    | c :: cs => by_cases hc : c = '-' <;> simp [hnegative, hc]
  have hsign : negative = false → (if negative then cs.tail else cs).head? ≠ some '-' := by
    intro hpos
    simpa [hpos] using hnegative.symm.trans hpos
  -- from here on only the text behind the sign matters
  generalize (if negative = true then cs.tail else cs) = body at h hcs hsign
  by_cases hread : (wellFormedNumber (body.takeWhile isNumberChar) &&
      !startsWord (body.dropWhile isNumberChar)) = true
  · rw [if_pos hread] at h
    obtain ⟨rfl, rfl⟩ := Prod.mk.inj (Except.ok.inj h)
    simp only [Bool.and_eq_true, Bool.not_eq_true'] at hread
    exact ⟨hcs, hsign, hread.1, hread.2, rfl, rfl⟩
  · rw [if_neg hread] at h
    exact absurd h (by simp)

lemma number_suffix {cs rest : List Char} {value : Scalar} (hstart : startsNumber cs = true)
    (h : number cs = .ok (value, rest)) : rest <:+ cs.tail := by
  obtain ⟨negative, body, rfl, hsign, -, -, -, rfl⟩ := number_cases h
  cases negative with
  | true => exact List.dropWhile_suffix _
  | false =>
    match body, hstart, hsign rfl with
    | c :: body, hstart, hc =>
      have hdigit : c.isDigit = true := by
        simpa [startsNumber, startsDigit, show c ≠ '-' by simpa using hc] using hstart
      have hnumber : isNumberChar c = true := by simp [isNumberChar, hdigit]
      rw [List.dropWhile_cons_of_pos hnumber]
      exact List.dropWhile_suffix _

lemma element_suffix {cs rest : List Char} {value : Scalar}
    (h : element cs = .ok (value, rest)) : rest <:+ cs.tail := by
  simp only [element] at h
  split at h
  · exact absurd h (by simp)
  · split at h
    · exact string_suffix h
    · split at h
      · rename_i hnumber
        exact number_suffix hnumber h
      · split at h
        · split at h
          · rename_i found hfound
            obtain rfl : found = (value, rest) := by simpa using h
            exact wordLiteral?_suffix hfound
          · exact absurd h (by simp)
        · exact absurd h (by simp)

lemma skipBlanks_suffix (cs : List Char) : Text.skipBlanks cs <:+ cs := List.dropWhile_suffix _

lemma separator_suffix {start cs rest : List Char} {found : Separator}
    (h : separator start cs = .ok (found, rest)) : rest <:+ cs := by
  have hblanks := skipBlanks_suffix cs
  simp only [separator] at h
  split at h
  · exact absurd h (by simp)
  · rename_i c more hmore
    have hstep : more <:+ cs := (List.suffix_cons c more).trans (hmore ▸ hblanks)
    split at h
    · split at h
      · exact absurd h (by simp)
      · obtain ⟨-, rfl⟩ := Prod.mk.inj (Except.ok.inj h)
        exact (skipBlanks_suffix more).trans hstep
    · split at h
      · obtain ⟨-, rfl⟩ := Prod.mk.inj (Except.ok.inj h)
        exact hstep
      · exact absurd h (by simp)

lemma elements_suffix {start cs rest : List Char} {rounds : Nat} {items : List Scalar}
    (h : elements start rounds cs = .ok (items, rest)) : rest <:+ cs.tail := by
  induction rounds generalizing cs items with
  | zero => exact absurd h (by simp [elements])
  | succ rounds ih =>
    simp only [elements] at h
    split at h
    · exact absurd h (by simp)
    · rename_i item behind hitem
      have hbehind := element_suffix hitem
      split at h
      · exact absurd h (by simp)
      · rename_i more hsep
        obtain ⟨-, rfl⟩ := Prod.mk.inj (Except.ok.inj h)
        exact (separator_suffix hsep).trans hbehind
      · rename_i more hsep
        split at h
        · exact absurd h (by simp)
        · rename_i items' rest' hitems
          obtain ⟨-, rfl⟩ := Prod.mk.inj (Except.ok.inj h)
          exact ((ih hitems).trans (List.tail_suffix more)).trans
            ((separator_suffix hsep).trans hbehind)

lemma list_suffix {cs rest : List Char} {items : List Scalar}
    (h : list cs = .ok (items, rest)) : rest <:+ cs.tail := by
  simp only [list] at h
  split at h
  · obtain ⟨-, rfl⟩ := Prod.mk.inj (Except.ok.inj h)
    exact (List.tail_suffix _).trans (skipBlanks_suffix _)
  · exact (elements_suffix h).trans ((List.tail_suffix _).trans (skipBlanks_suffix _))

/-! ### Tokens -/

lemma literalToken_eq_ok {scan : Scan Scalar} {u : Token} {rest : List Char}
    (h : literalToken scan = .ok (u, rest)) :
    ∃ value, scan = .ok (value, rest) ∧ u = .literal (.scalar value) := by
  match scan, h with
  | .ok (value, rest'), h =>
    obtain ⟨rfl, rfl⟩ := Prod.mk.inj (Except.ok.inj h)
    exact ⟨value, rfl, rfl⟩

/-- The ways to read a token. -/
lemma token_cases {cs rest : List Char} {u : Token} (h : token cs = .ok (u, rest)) :
    (cs = [] ∧ u = .eof ∧ rest = []) ∨
      (cs = [] → False) ∧ rest = cs.tail ∧ (u = .lparen ∨ u = .rparen ∨ u = .comma) ∨
      (∃ quote value, string quote cs = .ok (value, rest) ∧ u = .literal (.scalar value)) ∨
      (∃ items, list cs = .ok (items, rest) ∧ u = .literal (.list items)) ∨
      (∃ value, startsNumber cs = true ∧ number cs = .ok (value, rest) ∧
        u = .literal (.scalar value)) ∨
      (∃ c tail, cs = c :: tail ∧ isWordChar c = true ∧ c.isDigit = false ∧
        word cs = (u, rest)) := by
  match cs with
  | [] =>
    obtain ⟨rfl, rfl⟩ := Prod.mk.inj (Except.ok.inj h)
    exact Or.inl ⟨rfl, rfl, rfl⟩
  | c :: cs =>
    refine Or.inr ?_
    simp only [token] at h
    split_ifs at h with hl hr hcomma hquote hbracket hnumber hword
    · obtain ⟨rfl, rfl⟩ := Prod.mk.inj (Except.ok.inj h)
      exact Or.inl ⟨by simp, rfl, Or.inl rfl⟩
    · obtain ⟨rfl, rfl⟩ := Prod.mk.inj (Except.ok.inj h)
      exact Or.inl ⟨by simp, rfl, Or.inr (Or.inl rfl)⟩
    · obtain ⟨rfl, rfl⟩ := Prod.mk.inj (Except.ok.inj h)
      exact Or.inl ⟨by simp, rfl, Or.inr (Or.inr rfl)⟩
    · obtain ⟨value, hvalue, rfl⟩ := literalToken_eq_ok h
      exact Or.inr (Or.inl ⟨c, value, hvalue, rfl⟩)
    · split at h
      · rename_i items rest' hitems
        obtain ⟨rfl, rfl⟩ := Prod.mk.inj (Except.ok.inj h)
        exact Or.inr (Or.inr (Or.inl ⟨items, hitems, rfl⟩))
      · exact absurd h (by simp)
    · obtain ⟨value, hvalue, rfl⟩ := literalToken_eq_ok h
      exact Or.inr (Or.inr (Or.inr (Or.inl ⟨value, hnumber, hvalue, rfl⟩)))
    · have hdash : c ≠ '-' := by
        rintro rfl
        exact absurd hword (by decide)
      have hdigit : c.isDigit = false := by
        simpa [startsNumber, startsDigit, hdash] using hnumber
      exact Or.inr (Or.inr (Or.inr (Or.inr ⟨c, cs, rfl, hword, hdigit, Except.ok.inj h⟩)))

/-- Every token takes a character, unless the text is at its end. -/
lemma token_suffix {cs rest : List Char} {u : Token} (h : token cs = .ok (u, rest)) :
    rest <:+ cs.tail := by
  rcases token_cases h with ⟨rfl, -, rfl⟩ | ⟨-, rfl, -⟩ | ⟨quote, value, hvalue, -⟩ |
    ⟨items, hitems, -⟩ | ⟨value, hstart, hvalue, -⟩ | ⟨c, tail, rfl, hc, -, hword⟩
  · exact List.suffix_rfl
  · exact List.suffix_rfl
  · exact string_suffix hvalue
  · exact list_suffix hitems
  · exact number_suffix hstart hvalue
  · exact word_suffix hc hword

/-- The end is read at the end of the text and nowhere else. -/
lemma token_eq_eof_iff {cs rest : List Char} :
    token cs = .ok (.eof, rest) ↔ cs = [] ∧ rest = [] := by
  constructor
  · intro h
    rcases token_cases h with ⟨rfl, -, rfl⟩ | ⟨-, -, hu⟩ | ⟨quote, value, -, hu⟩ |
      ⟨items, -, hu⟩ | ⟨value, -, -, hu⟩ | ⟨c, tail, rfl, -, -, hword⟩
    · exact ⟨rfl, rfl⟩
    · exact absurd hu (by simp)
    · exact absurd hu (by simp)
    · exact absurd hu (by simp)
    · exact absurd hu (by simp)
    · rcases word_cases hword with ⟨entry, hmem, hu, -⟩ | ⟨-, ⟨value, -, hu⟩ | ⟨-, hu, -⟩⟩
      · exact absurd hu (by revert entry; decide)
      · exact absurd hu (by simp)
      · exact absurd hu (by simp)
  · rintro ⟨rfl, rfl⟩
    rfl

end FilterLang.Lexer
