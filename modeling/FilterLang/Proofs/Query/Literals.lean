import FilterLang.Proofs.Query.Cursor
import FilterLang.Proofs.Query.Keywords
import FilterLang.Proofs.Query.Numbers

/-!
# Literals are read exactly

A grammar of literals, on texts: strings with their escapes, numerals, words, and lists of these with blanks
between their parts.  `Literal text rest v` says that `text`, with `rest` behind it, is the literal `v`; what is
behind a literal matters because a number or a word must not go on there.

The readers collect characters first and judge them afterwards, and they look at a comma, a bracket or a blank
wherever one may stand.  Reader by reader they are held against the grammar, in both directions.  The main
statement is `Lexer.reads_iff_derives`: at a quote, a digit, a sign or a bracket, the lexer reads what the grammar
derives there and nothing else.
-/

namespace FilterLang.Lexer

/-! ### The grammar -/

/-- The characters that may stand behind a backslash, with what they stand for. -/
def escapes (quote : Char) : List (Char × Char) :=
  [('n', '\n'), ('t', '\t'), ('r', '\r'), ('\\', '\\'), (quote, quote)]

/-- The text between two quotes, with the characters that it stands for. -/
inductive Quoted (quote : Char) : List Char → List Char → Prop
  | nil : Quoted quote [] []
  | plain {c : Char} {text body : List Char} :
      c ≠ quote → c ≠ '\\' → Quoted quote text body → Quoted quote (c :: text) (c :: body)
  | escape {e c : Char} {text body : List Char} :
      (e, c) ∈ escapes quote → Quoted quote text body → Quoted quote ('\\' :: e :: text) (c :: body)

/-- The literals that are words, in lower case. -/
def literalWords : List (String × Scalar) :=
  [("true", .bool true), ("false", .bool false), ("null", .null)]

/-- A text is a literal of its own, or an element of a list, with a given text behind it.  No digit, which is a
character of words, no other character of a word and no point may follow a number. -/
inductive Element : List Char → List Char → Scalar → Prop
  | string {quote : Char} {text body rest : List Char} :
      quote = '"' ∨ quote = '\'' → Quoted quote text body →
        Element (quote :: (text ++ [quote])) rest (.str (String.ofList body))
  | number (n : Numeral) {rest : List Char} {v : Scalar} :
      n.Denotes v → Apart rest → Element n.text rest v
  | word {text rest : List Char} {word : String} {v : Scalar} :
      (word, v) ∈ literalWords → text.map Char.toLower = word.toList → startsWord rest = false →
        Element text rest v

/-- Elements with commas between them up to the bracket that closes their list.  Blanks may stand around each
comma and in front of the bracket. -/
inductive Elements : List Char → List Char → List Scalar → Prop
  | last {text gap rest : List Char} {v : Scalar} :
      isGap gap = true → Element text (gap ++ ']' :: rest) v →
        Elements (text ++ (gap ++ [']'])) rest [v]
  | cons {text gap gap' more rest : List Char} {v : Scalar} {vs : List Scalar} :
      isGap gap = true → isGap gap' = true →
        Element text (gap ++ ',' :: (gap' ++ (more ++ rest))) v → Elements more rest vs →
          Elements (text ++ (gap ++ ',' :: (gap' ++ more))) rest (v :: vs)

/-- A text is a literal, with a given text behind it. -/
inductive Literal : List Char → List Char → Value → Prop
  | scalar {text rest : List Char} {v : Scalar} : Element text rest v → Literal text rest (.scalar v)
  | empty {gap rest : List Char} : isGap gap = true → Literal ('[' :: (gap ++ [']'])) rest (.list [])
  | list {gap text rest : List Char} {vs : List Scalar} :
      isGap gap = true → Elements text rest vs → Literal ('[' :: (gap ++ text)) rest (.list vs)

/-! ### Strings -/

section

variable {quote : Char} (hquote : quote = '"' ∨ quote = '\'')

include hquote

lemma unescape?_eq_some_iff {e c : Char} : unescape? quote e = some c ↔ (e, c) ∈ escapes quote := by
  have hne : quote ≠ 'n' ∧ quote ≠ 't' ∧ quote ≠ 'r' ∧ quote ≠ '\\' := by
    rcases hquote with rfl | rfl <;> decide
  obtain ⟨hn, ht, hr, hslash⟩ := hne
  unfold unescape? escapes
  simp only [List.mem_cons, Prod.mk.injEq, List.not_mem_nil, or_false]
  split_ifs with h₁ h₂ h₃ h₄ h₅ <;> simp_all [eq_comm]

/-- A string is read up to the first quote that no backslash stands in front of. -/
lemma stringBody_eq_ok_iff {start cs body rest : List Char} :
    stringBody quote start cs = .ok (body, rest) ↔
      ∃ text, cs = text ++ quote :: rest ∧ Quoted quote text body := by
  have hslash : '\\' ≠ quote := by rcases hquote with rfl | rfl <;> decide
  constructor
  · intro h
    -- the reader has a quote, an escape and a plain character to go on with; all its other branches fail
    fun_induction stringBody quote start cs generalizing body with
    | case1 => cases h
    | case2 rest' =>
      obtain ⟨rfl, rfl⟩ := Prod.mk.inj (Except.ok.inj h)
      exact ⟨[], rfl, .nil⟩
    | case3 => cases h
    | case4 => cases h
    | case5 e cs plain hplain body' rest' hbody _ ih =>
      obtain ⟨rfl, rfl⟩ := Prod.mk.inj (Except.ok.inj h)
      obtain ⟨text, rfl, hquoted⟩ := ih hbody
      exact ⟨'\\' :: e :: text, rfl, .escape ((unescape?_eq_some_iff hquote).1 hplain) hquoted⟩
    | case6 => cases h
    | case7 c cs hc hc' body' rest' hbody ih =>
      obtain ⟨rfl, rfl⟩ := Prod.mk.inj (Except.ok.inj h)
      obtain ⟨text, rfl, hquoted⟩ := ih hbody
      exact ⟨c :: text, rfl, .plain hc hc' hquoted⟩
    | case8 => cases h
  · rintro ⟨text, rfl, hquoted⟩
    induction hquoted with
    | nil =>
      rw [List.nil_append, stringBody.eq_def]
      exact if_pos rfl
    | plain hc hc' _ ih =>
      rw [List.cons_append, stringBody.eq_def]
      simp only [if_neg hc, if_neg hc', ih]
    | escape he _ ih =>
      rw [List.cons_append, List.cons_append, stringBody.eq_def]
      simp only [if_neg hslash, if_true, (unescape?_eq_some_iff hquote).2 he, ih]

lemma string_eq_ok_iff {cs rest : List Char} {v : Scalar} :
    string quote (quote :: cs) = .ok (v, rest) ↔
      ∃ text body, cs = text ++ quote :: rest ∧ Quoted quote text body ∧ v = .str (String.ofList body) := by
  have hstring : string quote (quote :: cs) = .ok (v, rest) ↔
      ∃ body, stringBody quote (quote :: cs) cs = .ok (body, rest) ∧ .str (String.ofList body) = v := by
    rw [string, List.tail_cons]
    split
    · rename_i body' rest' hbody
      simp [hbody, and_comm]
    · rename_i fault hbody
      simp [hbody]
  rw [hstring]
  simp only [stringBody_eq_ok_iff hquote]
  constructor
  · rintro ⟨body, ⟨text, hcs, hquoted⟩, rfl⟩
    exact ⟨text, body, hcs, hquoted, rfl⟩
  · rintro ⟨text, body, hcs, hquoted, rfl⟩
    exact ⟨body, ⟨text, hcs, hquoted⟩, rfl⟩

end

/-! ### Words -/

/-- A word that is a literal starts with a letter. -/
lemma exists_letter {word : String} {v : Scalar} (h : (word, v) ∈ literalWords) :
    ∃ d ds, word.toList = d :: ds ∧ isWordChar d = true ∧ d.isDigit = false := by
  simp only [literalWords, List.mem_cons, Prod.mk.injEq, List.not_mem_nil, or_false] at h
  rcases h with ⟨rfl, -⟩ | ⟨rfl, -⟩ | ⟨rfl, -⟩
  · exact ⟨'t', ['r', 'u', 'e'], rfl, by decide, rfl⟩
  · exact ⟨'f', ['a', 'l', 's', 'e'], rfl, by decide, rfl⟩
  · exact ⟨'n', ['u', 'l', 'l'], rfl, by decide, rfl⟩

lemma exists_letter_of_map_toLower {word : String} {v : Scalar} {text : List Char}
    (h : (word, v) ∈ literalWords) (htext : text.map Char.toLower = word.toList) :
    ∃ c cs, text = c :: cs ∧ isWordChar c = true ∧ c.isDigit = false := by
  obtain ⟨d, ds, hword, hd, hdigit⟩ := exists_letter h
  rw [hword] at htext
  obtain ⟨c, cs, rfl, rfl, -⟩ := List.map_eq_cons_iff.1 htext
  refine ⟨c, cs, rfl, isWordChar_of_toLower hd, ?_⟩
  by_contra hc
  rw [Bool.not_eq_false] at hc
  rw [Numeral.toLower_of_isDigit hc, hc] at hdigit
  cases hdigit

/-- A word is read as a literal whatever the order in which the literals are tried. -/
lemma wordLiteral?_eq_some_iff {cs rest : List Char} {v : Scalar} :
    wordLiteral? cs = some (v, rest) ↔
      ∃ text word, cs = text ++ rest ∧ (word, v) ∈ literalWords ∧
        text.map Char.toLower = word.toList ∧ startsWord rest = false := by
  constructor
  · intro h
    obtain ⟨entry, hentry, rfl, hbehind⟩ := wordLiteral?_eq_some h
    obtain ⟨text, hcs, htext, hrest⟩ := behindKeyword?_eq_some_iff.1 hbehind
    exact ⟨text, entry.1, hcs, hentry, htext, hrest⟩
  · rintro ⟨text, word, hcs, hword, htext, hrest⟩
    have hbehind : behindKeyword? Char.toLower word.toList cs = some rest :=
      behindKeyword?_eq_some_iff.2 ⟨text, hcs, htext, hrest⟩
    cases hfound : wordLiteral? cs with
    | none =>
      have hnot := wordLiteral?_eq_none_iff.1 hfound (word, v) hword
      rw [hbehind] at hnot
      cases hnot
    | some found =>
      obtain ⟨v', rest'⟩ := found
      obtain ⟨entry, hentry, rfl, hbehind'⟩ := wordLiteral?_eq_some hfound
      -- another word would be another keyword at the same place
      let k : Keyword := ⟨word, true, .literal (.scalar v)⟩
      let k' : Keyword := ⟨entry.1, true, .literal (.scalar entry.2)⟩
      have hk := (@Keyword.behindKeyword?_fold_eq_some_iff k cs rest).1 hbehind
      have hk' := (@Keyword.behindKeyword?_fold_eq_some_iff k' cs rest').1 hbehind'
      have hsame : k = k' := hk.1.unique hk'.1 (mem_allKeywords_iff.2 (.inr ⟨(word, v), hword, rfl⟩))
        (mem_allKeywords_iff.2 (.inr ⟨entry, hentry, rfl⟩))
      have hv : v = entry.2 := Value.scalar.inj (Token.literal.inj (congrArg Keyword.token hsame))
      rw [hv, hk.2, hsame, ← hk'.2]

/-! ### Elements -/

lemma element_eq_ok_iff {cs rest : List Char} {v : Scalar} :
    element cs = .ok (v, rest) ↔ ∃ text, cs = text ++ rest ∧ Element text rest v := by
  constructor
  · intro h
    cases cs with
    | nil => cases h
    | cons c cs =>
      simp only [element] at h
      split_ifs at h with hquote hnumber hword
      · obtain ⟨text, body, rfl, hquoted, rfl⟩ := (string_eq_ok_iff hquote).1 h
        exact ⟨c :: (text ++ [c]), by simp, .string hquote hquoted⟩
      · obtain ⟨n, hcs, hv, hrest⟩ := (number_eq_ok_iff hnumber).1 h
        exact ⟨n.text, hcs, .number n hv hrest⟩
      · split at h
        · rename_i found hfound
          rw [Except.ok.inj h] at hfound
          obtain ⟨text, word, hcs, hentry, htext, hrest⟩ := wordLiteral?_eq_some_iff.1 hfound
          exact ⟨text, hcs, .word hentry htext hrest⟩
        · cases h
  · rintro ⟨text, rfl, h⟩
    cases h with
    | @string quote text body _ hquote hquoted =>
      rw [List.cons_append, element, if_pos hquote, string_eq_ok_iff hquote]
      exact ⟨text, body, by simp, hquoted, rfl⟩
    | number n hv hrest =>
      rw [element_number (startsNumber_text n rest), number_text n hrest, ← (denotes_iff n).1 hv]
    | word hentry htext hrest =>
      obtain ⟨c, cs, rfl, hc, hdigit⟩ := exists_letter_of_map_toLower hentry htext
      exact element_word hc hdigit (wordLiteral?_eq_some_iff.2 ⟨c :: cs, _, rfl, hentry, htext, hrest⟩)

/-- An element starts with a character that is neither blank nor a bracket. -/
lemma Element.head {text rest : List Char} {v : Scalar} (h : Element text rest v) :
    ∃ c cs, text = c :: cs ∧ Text.isBlank c = false ∧ c ≠ '[' ∧ c ≠ ']' := by
  cases h with
  | @string quote text _ _ hquote _ =>
    refine ⟨quote, text ++ [quote], rfl, ?_⟩
    rcases hquote with rfl | rfl <;> decide
  | number n _ _ =>
    obtain ⟨d, ds, hrun, hd⟩ := n.exists_run_eq_cons
    have hword := isWordChar_of_isDigit hd
    rw [Numeral.text, hrun]
    cases n.negative with
    | true => exact ⟨'-', d :: ds, rfl, by decide⟩
    | false =>
      exact ⟨d, ds, rfl, isBlank_of_isWordChar hword, ne_of_isWordChar hword (by decide),
        ne_of_isWordChar hword (by decide)⟩
  | word hentry htext _ =>
    obtain ⟨c, cs, rfl, hc, -⟩ := exists_letter_of_map_toLower hentry htext
    exact ⟨c, cs, rfl, isBlank_of_isWordChar hc, ne_of_isWordChar hc (by decide),
      ne_of_isWordChar hc (by decide)⟩

/-! ### Lists -/

lemma Elements.head {text rest : List Char} {vs : List Scalar} (h : Elements text rest vs) :
    ∃ c cs, text = c :: cs ∧ Text.isBlank c = false ∧ c ≠ '[' ∧ c ≠ ']' := by
  cases h with
  | last _ helement =>
    obtain ⟨c, cs, rfl, hc⟩ := helement.head
    exact ⟨c, _, List.cons_append, hc⟩
  | cons _ _ helement _ =>
    obtain ⟨c, cs, rfl, hc⟩ := helement.head
    exact ⟨c, _, List.cons_append, hc⟩

/-- The blanks in front of elements are all that is skipped there. -/
lemma Elements.skipBlanks {text rest gap : List Char} {vs : List Scalar} (h : Elements text rest vs)
    (hgap : isGap gap = true) :
    Text.skipBlanks (gap ++ (text ++ rest)) = text ++ rest ∧ (text ++ rest).head? ≠ some ']' := by
  obtain ⟨c, cs, rfl, hblank, -, hc⟩ := h.head
  rw [skipBlanks_gap hgap, List.cons_append]
  exact ⟨Text.skipBlanks_of_not_blank hblank, by simpa using hc⟩

/-- What is skipped is a gap. -/
lemma exists_gap {cs kept : List Char} (h : Text.skipBlanks cs = kept) :
    ∃ gap, isGap gap = true ∧ cs = gap ++ kept := by
  refine ⟨cs.takeWhile Text.isBlank, List.all_eq_true.2 fun c hc => List.mem_takeWhile_imp hc, ?_⟩
  rw [← h]
  exact List.takeWhile_append_dropWhile.symm

/-- What is read as the elements of a list is derived as such; the number of rounds does not matter. -/
lemma elements_of_eq_ok {start cs rest : List Char} {rounds : Nat} {vs : List Scalar}
    (h : elements start rounds cs = .ok (vs, rest)) : ∃ text, cs = text ++ rest ∧ Elements text rest vs := by
  induction rounds generalizing cs vs with
  | zero => cases h
  | succ rounds ih =>
    simp only [elements] at h
    split at h
    · cases h
    · rename_i item behind hitem
      obtain ⟨text, rfl, helement⟩ := element_eq_ok_iff.1 hitem
      split at h
      · cases h
      · rename_i rest' hseparator
        obtain ⟨rfl, rfl⟩ := Prod.mk.inj (Except.ok.inj h)
        obtain ⟨-, hskip⟩ | ⟨_, hnext, -⟩ := separator_cases hseparator
        · obtain ⟨gap, hgap, rfl⟩ := exists_gap hskip
          exact ⟨text ++ (gap ++ [']']), by simp, .last hgap helement⟩
        · cases hnext
      · rename_i more hseparator
        split at h
        · cases h
        · rename_i items rest' hitems
          obtain ⟨rfl, rfl⟩ := Prod.mk.inj (Except.ok.inj h)
          obtain ⟨hclose, -⟩ | ⟨inner, -, hskip, hinner, -⟩ := separator_cases hseparator
          · cases hclose
          · obtain ⟨gap, hgap, rfl⟩ := exists_gap hskip
            obtain ⟨gap', hgap', rfl⟩ := exists_gap hinner
            obtain ⟨text', rfl, helements⟩ := ih hitems
            exact ⟨text ++ (gap ++ ',' :: (gap' ++ text')), by simp, .cons hgap hgap' helement helements⟩

/-- Every element takes a character, so that as many rounds as there are characters suffice. -/
lemma Elements.elements_eq_ok {text rest : List Char} {vs : List Scalar} (h : Elements text rest vs)
    (start : List Char) {rounds : Nat} (hrounds : text.length ≤ rounds) :
    elements start rounds (text ++ rest) = .ok (vs, rest) := by
  induction h generalizing rounds with
  | @last text gap rest v hgap helement =>
    have hread : element (text ++ (gap ++ ']' :: rest)) = .ok (v, gap ++ ']' :: rest) :=
      element_eq_ok_iff.2 ⟨text, rfl, helement⟩
    have hclose : separator start (gap ++ ']' :: rest) = .ok (.close, rest) :=
      separator_close (by rw [skipBlanks_gap hgap]; rfl)
    obtain ⟨n, rfl⟩ : ∃ n, rounds = n + 1 := ⟨rounds - 1, by simp at hrounds; omega⟩
    rw [show text ++ (gap ++ [']']) ++ rest = text ++ (gap ++ ']' :: rest) by simp, elements, hread]
    dsimp only
    rw [hclose]
  | @cons text gap gap' more rest v vs hgap hgap' helement helements ih =>
    have hread : element (text ++ (gap ++ ',' :: (gap' ++ (more ++ rest)))) =
        .ok (v, gap ++ ',' :: (gap' ++ (more ++ rest))) := element_eq_ok_iff.2 ⟨text, rfl, helement⟩
    obtain ⟨hskip, hopen⟩ := helements.skipBlanks hgap'
    have hnext : separator start (gap ++ ',' :: (gap' ++ (more ++ rest))) = .ok (.next, more ++ rest) :=
      separator_comma (by rw [skipBlanks_gap hgap]; rfl) hskip hopen
    obtain ⟨n, rfl⟩ : ∃ n, rounds = n + 1 := ⟨rounds - 1, by simp at hrounds; omega⟩
    have hmore : more.length ≤ n := by
      simp only [List.length_append, List.length_cons] at hrounds
      omega
    rw [show text ++ (gap ++ ',' :: (gap' ++ more)) ++ rest =
      text ++ (gap ++ ',' :: (gap' ++ (more ++ rest))) by simp, elements, hread]
    dsimp only
    rw [hnext]
    dsimp only
    rw [ih hmore]

lemma list_eq_ok_iff {cs rest : List Char} {vs : List Scalar} :
    list ('[' :: cs) = .ok (vs, rest) ↔ ∃ text, '[' :: cs = text ++ rest ∧ Literal text rest (.list vs) := by
  rw [list, List.tail_cons]
  constructor
  · intro h
    split_ifs at h with hclose
    · obtain ⟨rfl, rfl⟩ := Prod.mk.inj (Except.ok.inj h)
      obtain ⟨inside, hinside⟩ := List.head?_eq_some_iff.1 hclose
      obtain ⟨gap, hgap, rfl⟩ := exists_gap hinside
      rw [hinside]
      exact ⟨'[' :: (gap ++ [']']), by simp, .empty hgap⟩
    · obtain ⟨gap, hgap, hcs⟩ := exists_gap (Eq.refl (Text.skipBlanks cs))
      obtain ⟨text, htext, helements⟩ := elements_of_eq_ok h
      exact ⟨'[' :: (gap ++ text), by rw [hcs, htext]; simp, .list hgap helements⟩
  · rintro ⟨text, hcs, h⟩
    cases h with
    | @empty gap _ hgap =>
      obtain rfl : cs = gap ++ ']' :: rest := by simpa using hcs
      rw [skipBlanks_gap hgap]
      rfl
    | @list gap text _ _ hgap helements =>
      obtain rfl : cs = gap ++ (text ++ rest) := by simpa using hcs
      obtain ⟨hskip, hopen⟩ := helements.skipBlanks hgap
      rw [hskip, if_neg hopen]
      refine helements.elements_eq_ok _ ?_
      simp only [List.length_cons, List.length_append]
      omega

/-! ### Tokens -/

/-- The text starts a literal that is no word: with a quote, a bracket, a digit, or a sign and a digit. -/
def startsLiteral (cs : List Char) : Bool :=
  startsNumber cs || cs.head?.any fun c => c == '"' || c == '\'' || c == '['

lemma startsLiteral_cases {cs : List Char} (h : startsLiteral cs = true) :
    startsNumber cs = true ∨ ∃ c cs', cs = c :: cs' ∧ ((c = '"' ∨ c = '\'') ∨ c = '[') := by
  rw [startsLiteral, Bool.or_eq_true] at h
  refine h.imp_right fun h => ?_
  cases cs with
  | nil => cases h
  | cons c cs => exact ⟨c, cs, rfl, by simpa using h⟩

/-- There is no blank in front of such a text. -/
lemma skipBlanks_of_startsLiteral {cs : List Char} (h : startsLiteral cs = true) :
    Text.skipBlanks cs = cs := by
  rcases startsLiteral_cases h with hnumber | ⟨c, cs, rfl, (rfl | rfl) | rfl⟩
  · obtain ⟨negative, d, ds, rfl, hd⟩ := exists_sign_of_startsNumber hnumber
    cases negative with
    | true => rfl
    | false => exact Text.skipBlanks_of_not_blank (isBlank_of_isWordChar (isWordChar_of_isDigit hd))
  · rfl
  · rfl
  · rfl

/-- Where a literal starts that is no list, the token is what an element of a list would be. -/
lemma token_eq_literalToken_element {cs : List Char} (h : startsLiteral cs = true)
    (hlist : cs.head? ≠ some '[') : token cs = literalToken (element cs) := by
  rcases startsLiteral_cases h with hnumber | ⟨c, cs, rfl, hquote | rfl⟩
  · rw [token_number hnumber, element_number hnumber]
  · rcases hquote with rfl | rfl <;> rfl
  · exact absurd rfl hlist

lemma token_list (cs : List Char) : token ('[' :: cs) =
    match list ('[' :: cs) with
    | .ok (items, rest) => .ok (.literal (.list items), rest)
    | .error fault => .error fault := rfl

/-- The token is the literal that the grammar derives. -/
lemma token_eq_ok_iff {cs rest : List Char} {u : Token} (h : startsLiteral cs = true) :
    token cs = .ok (u, rest) ↔ ∃ text v, cs = text ++ rest ∧ Literal text rest v ∧ u = .literal v := by
  by_cases hlist : cs.head? = some '['
  · obtain ⟨cs, rfl⟩ := List.head?_eq_some_iff.1 hlist
    constructor
    · intro htoken
      rw [token_list] at htoken
      split at htoken
      · rename_i items rest' hitems
        obtain ⟨rfl, rfl⟩ := Prod.mk.inj (Except.ok.inj htoken)
        obtain ⟨text, hcs, hliteral⟩ := list_eq_ok_iff.1 hitems
        exact ⟨text, _, hcs, hliteral, rfl⟩
      · cases htoken
    · rintro ⟨text, v, hcs, hliteral, rfl⟩
      cases hliteral with
      | scalar helement =>
        obtain ⟨c, cs', rfl, -, hc, -⟩ := helement.head
        exact absurd (List.cons.inj hcs).1.symm hc
      | empty hgap => rw [token_list, list_eq_ok_iff.2 ⟨_, hcs, .empty hgap⟩]
      | list hgap helements => rw [token_list, list_eq_ok_iff.2 ⟨_, hcs, .list hgap helements⟩]
  · rw [token_eq_literalToken_element h hlist]
    constructor
    · intro htoken
      obtain ⟨v, hv, rfl⟩ := literalToken_eq_ok htoken
      obtain ⟨text, hcs, helement⟩ := element_eq_ok_iff.1 hv
      exact ⟨text, .scalar v, hcs, .scalar helement, rfl⟩
    · rintro ⟨text, v, rfl, hliteral, rfl⟩
      cases hliteral with
      | scalar helement => rw [element_eq_ok_iff.2 ⟨text, rfl, helement⟩]; rfl
      | empty _ => exact absurd rfl hlist
      | list _ _ => exact absurd rfl hlist

/-! ### Literals in a text -/

variable (lexer : Lexer)

/-- The part of the text from the cursor up to an index. -/
def slice (j : Nat) : List Char := (lexer.text.toList.take j).drop lexer.cursor

/-- The next token is a literal that ends at an index. -/
def Reads (v : Value) (j : Nat) : Prop :=
  ∃ position behind, lexer.next = (.ok ⟨.literal v, position⟩, behind) ∧ behind.cursor = j

/-- The grammar derives a literal from the text between the cursor and an index. -/
structure Derives (v : Value) (j : Nat) : Prop where
  cursor_le : lexer.cursor ≤ j
  le_length : j ≤ lexer.text.length
  literal : Literal (lexer.slice j) (lexer.text.toList.drop j) v

variable {lexer}

section

variable (hin : lexer.InText)

include hin

/-- The text behind the cursor, cut at an index. -/
lemma InText.rest_eq_slice_append {j : Nat} (hcursor : lexer.cursor ≤ j) (hlength : j ≤ lexer.text.length) :
    lexer.rest = lexer.slice j ++ lexer.text.toList.drop j ∧ j = lexer.cursor + (lexer.slice j).length := by
  rw [slice, List.length_drop, List.length_take, String.length_toList]
  refine ⟨?_, by omega⟩
  rw [hin.rest_eq.2, ← List.drop_append_of_le_length, List.take_append_drop]
  rw [List.length_take, String.length_toList]
  omega

/-- Wherever the text behind the cursor is cut, it is cut at an index. -/
lemma InText.slice_of_rest_eq {front rest : List Char} (h : lexer.rest = front ++ rest) :
    lexer.cursor + front.length ≤ lexer.text.length ∧ lexer.slice (lexer.cursor + front.length) = front ∧
      lexer.text.toList.drop (lexer.cursor + front.length) = rest := by
  obtain ⟨hle, hrest⟩ := hin.rest_eq
  refine ⟨?_, ?_, ?_⟩
  · have hlength := congrArg List.length (hrest.symm.trans h)
    simp only [List.length_drop, String.length_toList, List.length_append] at hlength
    omega
  · rw [slice, List.drop_take, ← hrest, h, Nat.add_sub_cancel_left, List.take_left]
  · rw [← List.drop_drop, ← hrest, h, List.drop_left]

lemma derives_iff {v : Value} {j : Nat} :
    lexer.Derives v j ↔
      ∃ text rest, lexer.rest = text ++ rest ∧ Literal text rest v ∧ j = lexer.cursor + text.length := by
  constructor
  · intro h
    obtain ⟨hrest, hj⟩ := hin.rest_eq_slice_append h.cursor_le h.le_length
    exact ⟨lexer.slice j, lexer.text.toList.drop j, hrest, h.literal, hj⟩
  · rintro ⟨text, rest, hrest, hliteral, rfl⟩
    obtain ⟨hlength, hslice, hdrop⟩ := hin.slice_of_rest_eq hrest
    exact ⟨Nat.le_add_right _ _, hlength, by rwa [hslice, hdrop]⟩

/-- A token that ends in front of some rest of the text ends at an index. -/
lemma InText.cursor_of_rest_eq {front rest : List Char} (h : lexer.rest = front ++ rest) :
    (⟨lexer.text, rest⟩ : Lexer).cursor = lexer.cursor + front.length := by
  obtain ⟨hlength, -, hdrop⟩ := hin.slice_of_rest_eq h
  rw [cursor, ← hdrop, List.length_drop, String.length_toList]
  exact Nat.sub_sub_self hlength

variable (hstart : startsLiteral lexer.rest = true)

include hstart

omit hin in
/-- Where a literal starts, the next token is the literal that the grammar derives there. -/
lemma next_eq_ok_iff_literal {spanned : SpannedToken} {behind : Lexer} :
    lexer.next = (.ok spanned, behind) ↔
      (∃ text v, lexer.rest = text ++ behind.rest ∧ Literal text behind.rest v ∧
        spanned.token = .literal v) ∧
      spanned.position = lexer.offset lexer.rest ∧ behind.text = lexer.text := by
  rw [next_eq_ok_iff, skipBlanks_of_startsLiteral hstart, token_eq_ok_iff hstart]

lemma reads_iff {v : Value} {j : Nat} :
    lexer.Reads v j ↔
      ∃ text rest, lexer.rest = text ++ rest ∧ Literal text rest v ∧ j = lexer.cursor + text.length := by
  constructor
  · rintro ⟨position, ⟨_, rest⟩, hnext, rfl⟩
    obtain ⟨⟨text, v', hrest, hliteral, hv⟩, -, rfl⟩ := (next_eq_ok_iff_literal hstart).1 hnext
    obtain rfl := Token.literal.inj hv
    exact ⟨text, rest, hrest, hliteral, hin.cursor_of_rest_eq hrest⟩
  · rintro ⟨text, rest, hrest, hliteral, rfl⟩
    refine ⟨lexer.offset lexer.rest, ⟨lexer.text, rest⟩, ?_, hin.cursor_of_rest_eq hrest⟩
    exact (next_eq_ok_iff_literal hstart).2 ⟨⟨text, v, hrest, hliteral, rfl⟩, rfl, rfl⟩

omit hin in
/-- Where a literal starts, every token is one. -/
lemma exists_reads_of_next {spanned : SpannedToken} (h : lexer.next.1 = .ok spanned) :
    ∃ v j, lexer.Reads v j := by
  have hnext : lexer.next = (.ok spanned, lexer.next.2) := Prod.ext h rfl
  obtain ⟨⟨text, v, -, -, hv⟩, -⟩ := (next_eq_ok_iff_literal hstart).1 hnext
  refine ⟨v, lexer.next.2.cursor, spanned.position, lexer.next.2, ?_, rfl⟩
  rw [← hv]
  exact hnext

end

/-- A reading has one outcome. -/
lemma Reads.unique {v v' : Value} {j j' : Nat} (h : lexer.Reads v j) (h' : lexer.Reads v' j') :
    v = v' ∧ j = j' := by
  obtain ⟨position, behind, hnext, rfl⟩ := h
  obtain ⟨position', behind', hnext', rfl⟩ := h'
  obtain ⟨hok, rfl⟩ := Prod.mk.inj (hnext.symm.trans hnext')
  exact ⟨Token.literal.inj (SpannedToken.mk.inj (Except.ok.inj hok)).1, rfl⟩

lemma Reads.not_error {v : Value} {j : Nat} (h : lexer.Reads v j) (e : LexError) :
    lexer.next.1 ≠ .error e := by
  obtain ⟨position, behind, hnext, -⟩ := h
  rw [hnext]
  exact nofun

/-- **Literals are read exactly.**  Let the cursor stand at a quote, at a digit, at a sign in front of a digit, or
at an opening bracket.  Then the next token is a literal that ends at an index if and only if the grammar derives
that literal from the text in between; there is at most one such index and one such literal; and reading fails if
and only if there is none.  A numeral that does not go on behind its end is read to its end: one without a point
is the integer that it is if and only if it fits into a word, and every other one is the nearest number of the
64-bit format.  The reader of decimal texts takes every text that reaches it on this way. -/
theorem reads_iff_derives (lexer : Lexer) (hin : lexer.InText) (hstart : startsLiteral lexer.rest = true) :
    (∀ v j, lexer.Reads v j ↔ lexer.Derives v j) ∧
      (∀ v v' j j', lexer.Derives v j → lexer.Derives v' j' → v = v' ∧ j = j') ∧
      ((∃ e, lexer.next.1 = .error e) ↔ ∀ v j, ¬ lexer.Derives v j) ∧
      (∀ (n : Numeral) (rest : List Char), lexer.rest = n.text ++ rest → Apart rest →
        ∃ v, lexer.Reads (.scalar v) (lexer.cursor + n.text.length) ∧
          (n.fraction = [] → ((∃ k : Int64, v = .int k ∧ k.toInt = n.exact) ↔ n.FitsWord)) ∧
          (¬ (n.fraction = [] ∧ n.FitsWord) → v = .float n.double)) ∧
      (startsNumber lexer.rest = true → numberByText? lexer.rest = some (number lexer.rest)) := by
  have hiff : ∀ v j, lexer.Reads v j ↔ lexer.Derives v j :=
    fun v j => (reads_iff hin hstart).trans (derives_iff hin).symm
  refine ⟨hiff, ?_, ?_, ?_, numberByText?_eq⟩
  · intro v v' j j' h h'
    exact ((hiff v j).2 h).unique ((hiff v' j').2 h')
  · constructor
    · rintro ⟨e, he⟩ v j h
      exact ((hiff v j).2 h).not_error e he
    · intro hnone
      cases hnext : lexer.next.1 with
      | error e => exact ⟨e, rfl⟩
      | ok spanned =>
        obtain ⟨v, j, hreads⟩ := exists_reads_of_next hstart hnext
        exact absurd ((hiff v j).1 hreads) (hnone v j)
  · intro n rest hrest hapart
    have hdenotes : n.Denotes (numberValue n.negative n.run) := (denotes_iff n).2 rfl
    exact ⟨_, (reads_iff hin hstart).2 ⟨n.text, rest, hrest, .scalar (.number n hdenotes hapart), rfl⟩,
      denotes_cases hdenotes⟩

/-- A list of a string with an escape, the least word, a word literal and a number with a point. -/
def mixedList : Lexer := ofText "[ 'it\\'s' ,-9223372036854775808,\tnULL, 2.50 ] and"

/-- A numeral that is one less than the least word. -/
def beyondWord : Numeral where
  negative := true
  whole := "9223372036854775809".toList
  fraction := []
  whole_ne_nil := by decide
  isDigit := List.all_eq_true.1 (by decide)

/-- That numeral in front of a bracket. -/
def beyondWordText : Lexer := ofText "-9223372036854775809]"

theorem reads_iff_derives_mixed :
    (mixedList.InText ∧ startsLiteral mixedList.rest = true ∧ mixedList.Derives
      (.list [.str "it's", .int Int64.minValue, .null, .float (.ofRatio false 5 2)]) 45) ∧
    beyondWordText.InText ∧ startsLiteral beyondWordText.rest = true ∧
      beyondWordText.rest = beyondWord.text ++ [']'] ∧ ¬ beyondWord.FitsWord ∧
      beyondWordText.Reads (.scalar (.float beyondWord.double)) 20 := by
  have hmixed : startsLiteral mixedList.rest = true := by decide
  have hbeyond : startsLiteral beyondWordText.rest = true := by decide
  have hrest : beyondWordText.rest = beyondWord.text ++ [']'] := by decide +kernel
  have hlarge : ¬ beyondWord.FitsWord := by
    unfold Numeral.FitsWord
    decide +kernel
  have hapart : Apart [']'] := by
    intro c hc
    obtain rfl := Option.some.inj hc
    decide
  refine ⟨⟨List.suffix_rfl, hmixed, ?_⟩, List.suffix_rfl, hbeyond, hrest, hlarge, ?_⟩
  · refine ((reads_iff_derives mixedList List.suffix_rfl hmixed).1 _ _).1
      ⟨0, ⟨mixedList.text, " and".toList⟩, next_eq_ok_iff.2 ⟨?_, ?_, rfl⟩, ?_⟩
    · decide +kernel
    · decide +kernel
    · decide +kernel
  · obtain ⟨v, hreads, -, hv⟩ :=
      (reads_iff_derives beyondWordText List.suffix_rfl hbeyond).2.2.2.1 beyondWord [']'] hrest hapart
    rw [hv fun h => hlarge h.2] at hreads
    exact hreads

end FilterLang.Lexer
