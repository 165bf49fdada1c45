import FilterLang.Proofs.Filter.Literal
import FilterLang.Proofs.Query.Extension

/-!
# Texts spaced anew

The lexeme of a token is the part of the text that the token takes.  In `not(a in[1,2])` lexemes touch, and
keywords, literals, names and numbers are told apart by the character behind them, so that a lexeme is read
with what follows it in view.  What follows can still be exchanged: reader by reader, what was read off the
front of `front ++ tail` and left `tail` is read off the front of `front ++ other`, too, if no word and no
number goes on in `other`.

A blank is no character of a name, in any script.  So the lexemes of a text, with any blanks between them,
are read as the tokens of the text (`Lexer.tokens_spaced`).
-/

namespace FilterLang.Lexer

/-! ### What may follow -/

/-- Neither a word nor a number goes on in this text. -/
def Apart (cs : List Char) : Prop := ∀ c ∈ cs.head?, isWordChar c = false ∧ c ≠ '.'

lemma Parts.apart {cs : List Char} (h : Parts cs) : Apart cs := by
  intro c hc
  have hname := h c hc
  simp only [isNameChar, Bool.or_eq_false_iff, beq_eq_false_iff_ne] at hname
  exact ⟨hname.1.1.1, hname.1.1.2⟩

lemma Apart.startsWord {cs : List Char} (h : Apart cs) : startsWord cs = false := by
  cases cs with
  | nil => rfl
  | cons c cs => exact (h c rfl).1

lemma Apart.isNumberChar {cs : List Char} (h : Apart cs) : ∀ c ∈ cs.head?, isNumberChar c = false := by
  intro c hc
  obtain ⟨hword, hpoint⟩ := h c hc
  have hdigit : c.isDigit = false := by
    by_contra hdigit
    exact absurd (isWordChar_of_isDigit (Bool.of_not_eq_false hdigit)) (by rw [hword]; decide)
  simp [Lexer.isNumberChar, hdigit, hpoint]

lemma isDigit_of_not_startsNumber {c : Char} {cs : List Char} (hword : isWordChar c = true)
    (h : ¬ startsNumber (c :: cs) = true) : c.isDigit = false := by
  have hne : c ≠ '-' := ne_of_isWordChar hword (by decide)
  simpa [startsNumber, startsDigit, hne] using h

/-- A blank ends every token. -/
lemma isNameChar_of_isBlank {c : Char} (h : Text.isBlank c = true) : isNameChar c = false := by
  by_contra hname
  simp only [isNameChar, Bool.not_eq_false, Bool.or_eq_true, beq_iff_eq] at hname
  rcases hname with ((hword | rfl) | rfl) | rfl
  · rw [isBlank_of_isWordChar hword] at h
    cases h
  · cases h
  · cases h
  · cases h

/-- A reader that takes a character takes a part of the text with a first character. -/
lemma exists_front {cs rest : List Char} (hcs : cs ≠ []) (h : rest <:+ cs.tail) :
    ∃ c front, cs = c :: front ++ rest := by
  obtain ⟨front, hfront⟩ := h
  obtain ⟨c, cs, rfl⟩ := List.exists_cons_of_ne_nil hcs
  rw [List.tail_cons] at hfront
  exact ⟨c, front, by rw [← hfront, List.cons_append]⟩

variable {front tail other : List Char}

/-! ### Words -/

lemma wordLiteral?_exchange {value : Scalar} (h : wordLiteral? (front ++ tail) = some (value, tail))
    (hother : startsWord other = false) : wordLiteral? (front ++ other) = some (value, other) := by
  obtain ⟨entry, -, -, hbehind⟩ := wordLiteral?_eq_some h
  obtain ⟨-, -, -, htail⟩ := behindKeyword?_eq_some_iff.1 hbehind
  rw [wordLiteral?_append htail] at h
  obtain ⟨⟨value', rest⟩, hfound, hextend⟩ := Option.map_eq_some_iff.1 h
  obtain ⟨rfl, hrest⟩ := Prod.mk.inj hextend
  obtain rfl : rest = [] := List.append_left_eq_self.1 hrest
  rw [wordLiteral?_append hother, hfound]
  rfl

lemma word_literal {cs rest : List Char} {value : Scalar}
    (hkeyword : ∀ entry ∈ keywordTokens, behindKeyword? id entry.1.toList cs = none)
    (hliteral : wordLiteral? cs = some (value, rest)) :
    word cs = (.literal (.scalar value), rest) := by
  have hnone : keyword? cs = none :=
    List.findSome?_eq_none_iff.2 fun entry hentry => by simp [hkeyword entry hentry]
  rw [word_eq, hnone, hliteral]
  rfl

lemma word_exchange {u : Token} (h : word (front ++ tail) = (u, tail)) (hother : Parts other) :
    word (front ++ other) = (u, other) := by
  have hstarts : startsWord other = false := hother.apart.startsWord
  rcases word_cases h with ⟨entry, hentry, rfl, hbehind⟩ |
    ⟨hkeyword, ⟨value, hvalue, rfl⟩ | ⟨-, -, htail⟩⟩
  · obtain ⟨keyword, hcs, hmap, -⟩ := behindKeyword?_eq_some_iff.1 hbehind
    obtain rfl : front = keyword := List.append_cancel_right hcs
    rw [List.map_id] at hmap
    rw [hmap]
    exact word_keyword hentry hstarts
  · obtain ⟨entry, -, -, hbehind⟩ := wordLiteral?_eq_some hvalue
    obtain ⟨-, -, -, htail⟩ := behindKeyword?_eq_some_iff.1 hbehind
    refine word_literal (fun entry hentry => ?_) (wordLiteral?_exchange hvalue hstarts)
    have hchars : ∀ c, id c ∈ entry.1.toList → isWordChar c = true := isWordChar_of_mem_keyword hentry
    have hnone := hkeyword entry hentry
    rw [behindKeyword?_append hchars htail, Option.map_eq_none_iff] at hnone
    rw [behindKeyword?_append hchars hstarts, hnone]
    rfl
  · -- a name ends where no character of a name follows, and so it is read alone
    have hparts : Parts tail := by
      intro c hc
      have hnot := List.head?_dropWhile_not isNameChar (front ++ tail)
      rw [← htail, Option.mem_def.1 hc] at hnot
      simpa using hnot
    rw [word_append hparts] at h
    obtain ⟨rfl, hrest⟩ := Prod.mk.inj h
    have hnil : (word front).2 = [] := List.append_left_eq_self.1 hrest
    rw [word_append hother, extend, hnil, List.nil_append]

/-! ### Literals -/

lemma stringBody_exchange {quote : Char} {start cs body : List Char}
    (h : stringBody quote start cs = .ok (body, tail)) (hcs : cs = front ++ tail)
    (start' other : List Char) : stringBody quote start' (front ++ other) = .ok (body, other) := by
  fun_induction stringBody quote start cs generalizing body front with
  | case1 => cases h
  | case2 cs =>
    obtain ⟨rfl, rfl⟩ := Prod.mk.inj (Except.ok.inj h)
    obtain rfl : [quote] = front := List.append_cancel_right hcs
    rw [List.cons_append, stringBody.eq_def]
    exact if_pos rfl
  | case3 => cases h
  | case4 => cases h
  | case5 escaped cs plain hplain body' rest hbody hquote ih =>
    obtain ⟨rfl, rfl⟩ := Prod.mk.inj (Except.ok.inj h)
    obtain ⟨inner, rfl⟩ := stringBody_suffix hbody
    obtain rfl : '\\' :: escaped :: inner = front := List.append_cancel_right hcs
    rw [List.cons_append, List.cons_append, stringBody.eq_def]
    simp [hplain, hquote, ih hbody rfl]
  | case6 => cases h
  | case7 c cs hquote hslash body' rest hbody ih =>
    obtain ⟨rfl, rfl⟩ := Prod.mk.inj (Except.ok.inj h)
    obtain ⟨inner, rfl⟩ := stringBody_suffix hbody
    obtain rfl : c :: inner = front := List.append_cancel_right hcs
    rw [List.cons_append, stringBody.eq_def]
    simp [hquote, hslash, ih hbody rfl]
  | case8 => cases h

lemma string_exchange {quote c : Char} {value : Scalar}
    (h : string quote (c :: front ++ tail) = .ok (value, tail)) (other : List Char) :
    string quote (c :: front ++ other) = .ok (value, other) := by
  simp only [string, List.cons_append, List.tail_cons] at h ⊢
  split at h
  · rename_i body rest hbody
    obtain ⟨rfl, rfl⟩ := Prod.mk.inj (Except.ok.inj h)
    rw [stringBody_exchange hbody rfl]
  · cases h

/-- A text that starts a number has a digit in front, behind its sign if there is one. -/
lemma exists_sign_of_startsNumber {cs : List Char} (h : startsNumber cs = true) :
    ∃ negative d ds, cs = signText negative ++ d :: ds ∧ d.isDigit = true := by
  unfold startsNumber at h
  split at h
  · rename_i rest
    cases rest with
    | nil => cases h
    | cons d ds => exact ⟨true, d, ds, rfl, h⟩
  · cases cs with
    | nil => cases h
    | cons d ds => exact ⟨false, d, ds, rfl, h⟩

lemma ne_sign_of_isDigit {d : Char} (hd : d.isDigit = true) : d ≠ '-' := by
  rintro rfl
  exact absurd hd (by decide)

/-- The reader of numbers tells the sign from the digits. -/
lemma head_signText (negative : Bool) {d : Char} (hd : d.isDigit = true) (ds : List Char) :
    ((signText negative ++ d :: ds).head? == some '-') = negative ∧
      (if negative then (signText negative ++ d :: ds).tail else signText negative ++ d :: ds) = d :: ds := by
  cases negative with
  | true => exact ⟨rfl, rfl⟩
  | false =>
    refine ⟨beq_eq_false_iff_ne.2 fun hhead => ?_, rfl⟩
    exact ne_sign_of_isDigit hd (Option.some.inj hhead)

/-- A number that is read is a run of digits and points behind a sign, up to a character of neither kind. -/
lemma exists_run_of_number {cs rest : List Char} {value : Scalar} (hstart : startsNumber cs = true)
    (h : number cs = .ok (value, rest)) :
    ∃ negative d ds, cs = signText negative ++ (d :: ds ++ rest) ∧ d.isDigit = true ∧
      (∀ c ∈ d :: ds, isNumberChar c = true) ∧ wellFormedNumber (d :: ds) = true ∧
      value = numberValue negative (d :: ds) ∧ Apart rest := by
  obtain ⟨negative, d, ds, rfl, hd⟩ := exists_sign_of_startsNumber hstart
  obtain ⟨hsign, hbody⟩ := head_signText negative hd ds
  have hrun : (d :: ds).takeWhile isNumberChar = d :: ds.takeWhile isNumberChar :=
    List.takeWhile_cons_of_pos (isNumberChar_of_isDigit hd)
  simp only [number, hsign, hbody, List.span_eq_takeWhile_dropWhile] at h
  split_ifs at h with hread
  obtain ⟨rfl, hrest⟩ := Prod.mk.inj (Except.ok.inj h)
  simp only [Bool.and_eq_true, Bool.not_eq_true', hrest] at hread
  have hapart : Apart rest := by
    intro c hc
    have hnot := List.head?_dropWhile_not isNumberChar (d :: ds)
    obtain ⟨more, rfl⟩ := List.head?_eq_some_iff.1 hc
    rw [hrest] at hnot
    refine ⟨hread.2, ?_⟩
    rintro rfl
    cases hnot
  refine ⟨negative, d, ds.takeWhile isNumberChar, ?_, hd, ?_, hrun ▸ hread.1, by rw [hrun], hapart⟩
  · rw [← hrun, ← hrest, List.takeWhile_append_dropWhile]
  · rw [← hrun]
    exact fun c hc => List.mem_takeWhile_imp hc

lemma number_exchange {value : Scalar} (hstart : startsNumber (front ++ tail) = true)
    (h : number (front ++ tail) = .ok (value, tail)) (hother : Apart other) :
    startsNumber (front ++ other) = true ∧ number (front ++ other) = .ok (value, other) := by
  obtain ⟨negative, d, ds, hcs, hd, hrun, hform, rfl, -⟩ := exists_run_of_number hstart h
  rw [← List.append_assoc] at hcs
  obtain rfl := List.append_cancel_right hcs
  rw [List.append_assoc]
  refine ⟨startsNumber_signText negative hd _,
    number_signText hrun hform ?_ hother.isNumberChar hother.startsWord⟩
  simpa using ne_sign_of_isDigit hd

lemma element_exchange {value : Scalar} (h : element (front ++ tail) = .ok (value, tail))
    (hfront : front ≠ []) (hother : Apart other) : element (front ++ other) = .ok (value, other) := by
  obtain ⟨c, front, rfl⟩ := List.exists_cons_of_ne_nil hfront
  simp only [element, List.cons_append] at h
  split_ifs at h with hquote hnumber hword
  · simp only [element, List.cons_append, if_pos hquote]
    exact string_exchange h other
  · rw [← List.cons_append] at hnumber h
    obtain ⟨hstart, hread⟩ := number_exchange hnumber h hother
    rw [element_number hstart, hread]
  · split at h
    · rename_i found hfound
      rw [← List.cons_append, Except.ok.inj h] at hfound
      exact element_word hword (isDigit_of_not_startsNumber hword hnumber)
        (wordLiteral?_exchange hfound hother.startsWord)
    · cases h

/-! ### Lists -/

/-- Blanks in front of something that is kept are skipped whatever follows it. -/
lemma skipBlanks_cut {cs kept : List Char} (h : Text.skipBlanks (cs ++ tail) = kept ++ tail)
    (hkept : kept ≠ []) : Text.skipBlanks cs = kept := by
  have hcs : Text.skipBlanks cs ≠ [] := by
    intro hnil
    have hskip : Text.skipBlanks (cs ++ tail) = Text.skipBlanks tail :=
      List.dropWhile_append_of_pos (List.dropWhile_eq_nil_iff.1 hnil)
    have hle : (Text.skipBlanks tail).length ≤ tail.length := (skipBlanks_suffix tail).length_le
    have hpos : 0 < kept.length := List.length_pos_iff.2 hkept
    rw [← hskip, h, List.length_append] at hle
    omega
  rw [skipBlanks_append hcs] at h
  exact List.append_cancel_right h

lemma skipBlanks_exchange {cs kept : List Char} (h : Text.skipBlanks (cs ++ tail) = kept ++ tail)
    (hkept : kept ≠ []) (other : List Char) : Text.skipBlanks (cs ++ other) = kept ++ other := by
  obtain rfl := skipBlanks_cut h hkept
  exact skipBlanks_append hkept other

/-- The ways to read what follows an element. -/
lemma separator_cases {start cs rest : List Char} {found : Separator}
    (h : separator start cs = .ok (found, rest)) :
    (found = .close ∧ Text.skipBlanks cs = ']' :: rest) ∨
      ∃ behind, found = .next ∧ Text.skipBlanks cs = ',' :: behind ∧ Text.skipBlanks behind = rest ∧
        rest.head? ≠ some ']' := by
  simp only [separator] at h
  split at h
  · cases h
  · rename_i c behind hbehind
    split_ifs at h with hcomma hopen hclose
    · obtain ⟨rfl, rfl⟩ := Prod.mk.inj (Except.ok.inj h)
      exact Or.inr ⟨behind, rfl, by rw [hbehind, hcomma], rfl, hopen⟩
    · obtain ⟨rfl, rfl⟩ := Prod.mk.inj (Except.ok.inj h)
      exact Or.inl ⟨rfl, by rw [hbehind, hclose]⟩

lemma separator_close {start cs rest : List Char} (h : Text.skipBlanks cs = ']' :: rest) :
    separator start cs = .ok (.close, rest) := by
  rw [separator, h]
  rfl

lemma separator_comma {start cs behind rest : List Char} (h : Text.skipBlanks cs = ',' :: behind)
    (hrest : Text.skipBlanks behind = rest) (hopen : rest.head? ≠ some ']') :
    separator start cs = .ok (.next, rest) := by
  rw [separator, h]
  simp [hrest, hopen]

/-- No element goes on where its separator, or a blank in front of it, stands. -/
lemma apart_of_skipBlanks {c : Char} {cs behind : List Char} (h : Text.skipBlanks cs = c :: behind)
    (hc : isWordChar c = false ∧ c ≠ '.') : Apart cs := by
  intro d hd
  cases cs with
  | nil => cases hd
  | cons e cs =>
    obtain rfl : e = d := Option.some.inj hd
    cases hblank : Text.isBlank e with
    | true => exact (Parts.apart (parts_cons (isNameChar_of_isBlank hblank) cs)) e rfl
    | false =>
      rw [Text.skipBlanks_of_not_blank hblank] at h
      rwa [(List.cons.inj h).1]

/-- A separator is a part of the text of its own, with the blanks around it.  Behind a comma another
element has to follow, because a closing bracket there is a fault. -/
lemma separator_exchange {start cs rest : List Char} {found : Separator}
    (h : separator start cs = .ok (found, rest ++ tail)) (hrest : found = .next → rest ≠ []) :
    ∃ behind, cs = behind ++ tail ∧ rest.length ≤ behind.length ∧ ∀ start' other,
      Apart (behind ++ other) ∧ separator start' (behind ++ other) = .ok (found, rest ++ other) := by
  obtain ⟨behind, rfl⟩ : tail <:+ cs := (List.suffix_append rest tail).trans (separator_suffix h)
  have hlength : rest.length ≤ behind.length := by
    have hle := (separator_suffix h).length_le
    simp only [List.length_append] at hle
    omega
  refine ⟨behind, rfl, hlength, fun start' other => ?_⟩
  rcases separator_cases h with ⟨rfl, hskip⟩ | ⟨inner, rfl, hskip, hinner, hopen⟩
  · have hother : Text.skipBlanks (behind ++ other) = ']' :: (rest ++ other) :=
      @skipBlanks_exchange tail behind (']' :: rest) hskip (List.cons_ne_nil _ _) other
    exact ⟨apart_of_skipBlanks hother (by decide), separator_close hother⟩
  · have hne := hrest rfl
    obtain ⟨kept, rfl⟩ : tail <:+ inner :=
      (List.suffix_append rest tail).trans (hinner ▸ skipBlanks_suffix inner)
    have hother : Text.skipBlanks (behind ++ other) = ',' :: (kept ++ other) :=
      @skipBlanks_exchange tail behind (',' :: kept) hskip (List.cons_ne_nil _ _) other
    refine ⟨apart_of_skipBlanks hother (by decide),
      separator_comma hother (skipBlanks_exchange hinner hne other) ?_⟩
    rwa [List.head?_append_of_ne_nil _ hne] at hopen ⊢

lemma element_ne_nil {cs : List Char} {found : Scalar × List Char} (h : element cs = .ok found) :
    cs ≠ [] := by
  rintro rfl
  cases h

/-- The elements of a list up to its closing bracket.  Every element takes a character, so that the
rounds suffice. -/
lemma elements_exchange {start : List Char} {rounds : Nat} {items : List Scalar}
    (h : elements start rounds (front ++ tail) = .ok (items, tail)) (start' other : List Char)
    {rounds' : Nat} (hrounds : front.length ≤ rounds') :
    elements start' rounds' (front ++ other) = .ok (items, other) := by
  induction rounds generalizing front items rounds' with
  | zero => cases h
  | succ rounds ih =>
    simp only [elements] at h
    split at h
    · cases h
    · rename_i item cs hitem
      obtain ⟨c, eaten, hwhole⟩ := exists_front (element_ne_nil hitem) (element_suffix hitem)
      -- what one round does, once the text behind the separator is known to end with `tail`
      have hround : ∀ {found : Separator} {rest : List Char},
          separator start cs = .ok (found, rest ++ tail) → (found = .next → rest ≠ []) →
          ∃ behind, front = c :: eaten ++ behind ∧ rest.length ≤ behind.length ∧
            element (front ++ other) = .ok (item, behind ++ other) ∧
            separator start' (behind ++ other) = .ok (found, rest ++ other) := by
        intro found rest hseparator hrest
        obtain ⟨behind, rfl, hlength, hother⟩ := separator_exchange hseparator hrest
        obtain rfl : front = c :: eaten ++ behind := by
          rw [← List.append_assoc] at hwhole
          exact List.append_cancel_right hwhole
        refine ⟨behind, rfl, hlength, ?_, (hother start' other).2⟩
        rw [List.append_assoc] at hitem ⊢
        exact element_exchange hitem (List.cons_ne_nil _ _) (hother start' other).1
      split at h
      · cases h
      · rename_i rest hseparator
        obtain ⟨rfl, rfl⟩ := Prod.mk.inj (Except.ok.inj h)
        obtain ⟨behind, rfl, -, hread, hclose⟩ := @hround _ [] hseparator nofun
        obtain ⟨n, rfl⟩ : ∃ n, rounds' = n + 1 := ⟨rounds' - 1, by simp at hrounds; omega⟩
        rw [elements, hread]
        dsimp only
        rw [hclose]
        rfl
      · rename_i rest hseparator
        split at h
        · cases h
        · rename_i items' rest' hitems
          obtain ⟨rfl, rfl⟩ := Prod.mk.inj (Except.ok.inj h)
          obtain ⟨d, inner, rfl⟩ := exists_front (elements_ne_nil hitems)
            (elements_suffix hitems)
          obtain ⟨behind, rfl, hlength, hread, hnext⟩ := hround hseparator fun _ => List.cons_ne_nil _ _
          simp only [List.length_append, List.length_cons] at hrounds hlength
          obtain ⟨n, rfl⟩ : ∃ n, rounds' = n + 1 := ⟨rounds' - 1, by omega⟩
          rw [elements, hread]
          dsimp only
          rw [hnext]
          dsimp only
          rw [ih hitems (by simp only [List.length_cons]; omega)]

lemma list_exchange {c : Char} {items : List Scalar}
    (h : list (c :: front ++ tail) = .ok (items, tail)) (other : List Char) :
    list (c :: front ++ other) = .ok (items, other) := by
  simp only [list] at h ⊢
  rw [List.cons_append, List.tail_cons] at h ⊢
  by_cases hclose : (Text.skipBlanks (front ++ tail)).head? = some ']'
  · rw [if_pos hclose] at h
    obtain ⟨rfl, htail⟩ := Prod.mk.inj (Except.ok.inj h)
    have hinside : Text.skipBlanks (front ++ tail) = [']'] ++ tail := by
      obtain ⟨inside, hinside⟩ := List.head?_eq_some_iff.1 hclose
      rw [hinside] at htail ⊢
      rw [← htail]
      rfl
    rw [skipBlanks_exchange hinside (List.cons_ne_nil _ _)]
    rfl
  · rw [if_neg hclose] at h
    obtain ⟨d, inside, hinside⟩ := exists_front (elements_ne_nil h) (elements_suffix h)
    have hother := skipBlanks_exchange hinside (List.cons_ne_nil _ _) other
    have hlength : (d :: inside).length ≤ (c :: (front ++ other)).length := by
      have hle := (skipBlanks_suffix front).length_le
      rw [skipBlanks_cut hinside (List.cons_ne_nil _ _)] at hle
      simp only [List.length_cons, List.length_append] at hle ⊢
      omega
    rw [hinside] at h hclose
    rw [hother, if_neg (by simpa using hclose)]
    exact elements_exchange h _ _ hlength

/-! ### Tokens -/

/-- The text behind a token can be exchanged. -/
lemma token_exchange {u : Token} (h : token (front ++ tail) = .ok (u, tail)) (hfront : front ≠ [])
    (hother : Parts other) : token (front ++ other) = .ok (u, other) := by
  obtain ⟨c, front, rfl⟩ := List.exists_cons_of_ne_nil hfront
  rw [List.cons_append] at h
  simp only [token] at h
  split_ifs at h with hopen hclose hcomma hquote hbracket hnumber hword
  · obtain ⟨rfl, htail⟩ := Prod.mk.inj (Except.ok.inj h)
    obtain rfl : front = [] := List.append_left_eq_self.1 htail
    rw [hopen]
    rfl
  · obtain ⟨rfl, htail⟩ := Prod.mk.inj (Except.ok.inj h)
    obtain rfl : front = [] := List.append_left_eq_self.1 htail
    rw [hclose]
    rfl
  · obtain ⟨rfl, htail⟩ := Prod.mk.inj (Except.ok.inj h)
    obtain rfl : front = [] := List.append_left_eq_self.1 htail
    rw [hcomma]
    rfl
  · obtain ⟨value, hvalue, rfl⟩ := literalToken_eq_ok h
    have hstring := string_exchange hvalue other
    simp only [List.cons_append] at hstring ⊢
    rw [token, if_neg hopen, if_neg hclose, if_neg hcomma, if_pos hquote, hstring]
    rfl
  · split at h
    · rename_i items rest hitems
      obtain ⟨rfl, rfl⟩ := Prod.mk.inj (Except.ok.inj h)
      have hlist := list_exchange hitems other
      simp only [List.cons_append] at hlist ⊢
      rw [token, if_neg hopen, if_neg hclose, if_neg hcomma, if_neg hquote, if_pos hbracket, hlist]
    · cases h
  · obtain ⟨value, hvalue, rfl⟩ := literalToken_eq_ok h
    rw [← List.cons_append] at hnumber hvalue
    obtain ⟨hstart, hread⟩ := number_exchange hnumber hvalue hother.apart
    rw [token_number hstart, hread]
    rfl
  · have hexchange : word (c :: front ++ other) = (u, other) :=
      word_exchange (Except.ok.inj h) hother
    rw [List.cons_append] at hexchange ⊢
    rw [token_word hword (isDigit_of_not_startsNumber hword hnumber), hexchange]

/-! ### Lexemes -/

/-- The parts of the text that the next tokens take, up to the end of the text. -/
def lexemesWithin : Nat → Lexer → List (List Char)
  | 0, _ => []
  | bound + 1, lexer =>
    match lexer.next with
    | (.error _, _) => []
    | (.ok spanned, behind) =>
      if spanned.token = .eof then []
      else
        let start := Text.skipBlanks lexer.rest
        start.take (start.length - behind.rest.length) :: lexemesWithin bound behind

/-- The lexemes of a text: the part of the text that each token takes, without the end of the text. -/
def lexemes (lexer : Lexer) : List (List Char) := lexer.lexemesWithin (lexer.rest.length + 1)

/-- The lexemes with a gap behind each of them, and one in front of the first. -/
def spaced (front : List Char) (lexemes gaps : List (List Char)) : List Char :=
  front ++ (List.zipWith (· ++ ·) lexemes gaps).flatten

/-- The gap holds blanks only. -/
def isGap (gap : List Char) : Bool := gap.all Text.isBlank

lemma spaced_nil (front : List Char) (gaps : List (List Char)) : spaced front [] gaps = front := by
  simp [spaced]

lemma spaced_cons (front lexeme gap : List Char) (lexemes gaps : List (List Char)) :
    spaced front (lexeme :: lexemes) (gap :: gaps) = front ++ (lexeme ++ spaced gap lexemes gaps) := by
  simp [spaced]

lemma skipBlanks_gap {gap : List Char} (h : isGap gap = true) (cs : List Char) :
    Text.skipBlanks (gap ++ cs) = Text.skipBlanks cs :=
  List.dropWhile_append_of_pos (List.all_eq_true.1 h)

/-- The text is read as the token wherever no name goes on behind it. -/
def Spells (lexeme : List Char) (u : Token) : Prop :=
  ∀ other, Parts other → token (Text.skipBlanks (lexeme ++ other)) = .ok (u, other)

/-- One step of the lexer: blanks, a lexeme, and what is left. -/
lemma exists_lexeme {cs rest : List Char} {u : Token} (h : token (Text.skipBlanks cs) = .ok (u, rest))
    (hu : u ≠ .eof) :
    ∃ gap lexeme, isGap gap = true ∧ cs = gap ++ (lexeme ++ rest) ∧
      Text.skipBlanks cs = lexeme ++ rest ∧ Spells lexeme u := by
  have hne : Text.skipBlanks cs ≠ [] := by
    intro hnil
    rw [hnil] at h
    obtain ⟨rfl, -⟩ := Prod.mk.inj (Except.ok.inj h)
    exact hu rfl
  obtain ⟨c, front, hstart⟩ := exists_front hne (token_suffix h)
  refine ⟨cs.takeWhile Text.isBlank, c :: front, List.all_eq_true.2 fun d hd => List.mem_takeWhile_imp hd,
    ?_, hstart, ?_⟩
  · rw [← hstart]
    exact List.takeWhile_append_dropWhile.symm
  · intro other hother
    have hblank : Text.isBlank c = false := by
      have hnot := List.head?_dropWhile_not Text.isBlank cs
      rw [show cs.dropWhile Text.isBlank = c :: front ++ rest from hstart] at hnot
      simpa using hnot
    rw [List.cons_append, Text.skipBlanks_of_not_blank hblank, ← List.cons_append]
    rw [hstart] at h
    exact token_exchange h (List.cons_ne_nil c front) hother

/-- A text is its lexemes with gaps between them, and each lexeme spells its token. -/
lemma exists_spaced_lexemesWithin {bound : Nat} {lexer : Lexer} {us : List Token}
    (hbound : us.length < bound) (hus : .eof ∉ us) (h : Lexes lexer.rest (us ++ [.eof]) []) :
    List.Forall₂ Spells (lexer.lexemesWithin bound) us ∧ ∃ front gaps, isGap front = true ∧
      (∀ gap ∈ gaps, isGap gap = true) ∧ gaps.length = (lexer.lexemesWithin bound).length ∧
      lexer.rest = spaced front (lexer.lexemesWithin bound) gaps := by
  induction us generalizing bound lexer with
  | nil =>
    match bound, hbound with
    | bound + 1, _ =>
      cases h with
      | cons hu _ =>
        obtain ⟨first, hnext, htoken⟩ := exists_next hu
        have hnil : lexer.lexemesWithin (bound + 1) = [] := by simp [lexemesWithin, hnext, htoken]
        have hblank : Text.skipBlanks lexer.rest = [] := (token_eq_eof_iff.1 hu).1
        rw [hnil]
        refine ⟨.nil, lexer.rest, [], ?_, by simp, rfl, (spaced_nil _ _).symm⟩
        exact List.all_eq_true.2 (List.dropWhile_eq_nil_iff.1 hblank)
  | cons u us ih =>
    simp only [List.mem_cons, not_or] at hus
    match bound, hbound with
    | bound + 1, hbound =>
      cases h with
      | @cons _ mid _ _ _ hu hmore =>
        obtain ⟨first, hnext, htoken⟩ := exists_next hu
        obtain ⟨front, lexeme, hfront, htext, hstart, hspells⟩ := exists_lexeme hu (Ne.symm hus.1)
        have hne : first.token ≠ .eof := by rw [htoken]; exact Ne.symm hus.1
        have hcons : lexer.lexemesWithin (bound + 1) =
            lexeme :: lexemesWithin bound { lexer with rest := mid } := by
          simp [lexemesWithin, hnext, hne, hstart]
        have hshort : us.length < bound := by simpa using hbound
        obtain ⟨hall, gap, gaps, hgap, hgaps, hlength, hmid⟩ :=
          @ih bound { lexer with rest := mid } hshort hus.2 hmore
        rw [hcons]
        refine ⟨.cons hspells hall, front, gap :: gaps, hfront, ?_, by simp [hlength], ?_⟩
        · simpa using ⟨hgap, hgaps⟩
        · rw [spaced_cons, htext]
          exact congrArg (fun rest => front ++ (lexeme ++ rest)) hmid

/-- Behind a lexeme stands a gap, or the text is at its end. -/
lemma parts_spaced {gap : List Char} {lexemes gaps : List (List Char)} (hgap : isGap gap = true)
    (hlength : gaps.length = lexemes.length) (hne : ∀ g ∈ (gap :: gaps).dropLast, g ≠ []) :
    Parts (spaced gap lexemes gaps) := by
  cases gap with
  | nil =>
    cases gaps with
    | nil =>
      obtain rfl : lexemes = [] := List.length_eq_zero_iff.1 hlength.symm
      exact parts_nil
    | cons g gaps => exact absurd rfl (hne [] (by simp))
  | cons c gap =>
    exact parts_cons (isNameChar_of_isBlank (List.all_eq_true.1 hgap c (by simp))) _

/-- Lexemes in any spacing are read as the tokens that they spell. -/
lemma lexes_spaced {lexemes : List (List Char)} {us : List Token} (h : List.Forall₂ Spells lexemes us)
    {front : List Char} {gaps : List (List Char)} (hfront : isGap front = true)
    (hgaps : ∀ gap ∈ gaps, isGap gap = true) (hlength : gaps.length = lexemes.length)
    (hne : ∀ gap ∈ gaps.dropLast, gap ≠ []) :
    Lexes (spaced front lexemes gaps) (us ++ [.eof]) [] := by
  induction h generalizing front gaps with
  | nil =>
    have hblank : Text.skipBlanks front = [] := List.dropWhile_eq_nil_iff.2 (List.all_eq_true.1 hfront)
    rw [spaced_nil]
    exact .single (token_eq_eof_iff.2 ⟨hblank, rfl⟩)
  | @cons lexeme u lexemes us hspells _ ih =>
    match gaps, hlength with
    | gap :: gaps, hlength =>
      rw [List.forall_mem_cons] at hgaps
      have hlength' : gaps.length = lexemes.length := Nat.succ.inj hlength
      have hparts := parts_spaced hgaps.1 hlength' hne
      have hne' : ∀ g ∈ gaps.dropLast, g ≠ [] := by
        intro g hg
        cases gaps with
        | nil => cases hg
        | cons g' gaps => exact hne g (List.mem_cons_of_mem gap hg)
      rw [spaced_cons]
      refine .cons ?_ (ih hgaps.1 hgaps.2 hlength' hne')
      rw [skipBlanks_gap hfront]
      exact hspells _ hparts

/-- Tokens do not depend on spacing.  A text that is cut into tokens is its lexemes with gaps between
them, some of which may be empty; and the same lexemes with any blanks in front and at the end, and at least
one blank between any two of them, are cut into the same tokens. -/
theorem tokens_spaced {text : String} {spanned : List SpannedToken}
    (h : (ofText text).tokens = .ok spanned) :
    (∃ front gaps, isGap front = true ∧ (∀ gap ∈ gaps, isGap gap = true) ∧
        gaps.length = (ofText text).lexemes.length ∧
        text.toList = spaced front (ofText text).lexemes gaps) ∧
      (ofText text).lexemes.length + 1 = spanned.length ∧
      ∀ front gaps, isGap front = true → (∀ gap ∈ gaps, isGap gap = true) →
        gaps.length = (ofText text).lexemes.length → (∀ gap ∈ gaps.dropLast, gap ≠ []) →
        ∃ spanned', (ofText (String.ofList (spaced front (ofText text).lexemes gaps))).tokens =
            .ok spanned' ∧
          spanned'.map (·.token) = spanned.map (·.token) := by
  obtain ⟨us, hmap, hus, hlexes⟩ := lexes_of_tokensWithin (Nat.lt_succ_self _) h
  obtain ⟨mid, hmid, -⟩ := lexes_append_iff.1 hlexes
  have hbound : us.length < (ofText text).rest.length + 1 := by
    have hle := hmid.length_le hus
    omega
  obtain ⟨hspells, hspaced⟩ := exists_spaced_lexemesWithin hbound hus hlexes
  have hcount : us.length + 1 = spanned.length := by simpa using (congrArg List.length hmap).symm
  refine ⟨hspaced, by rw [← hcount, lexemes, hspells.length_eq], ?_⟩
  intro front gaps hfront hgaps hlength hne
  have hlexes' := lexes_spaced hspells hfront hgaps hlength hne
  rw [hmap]
  refine tokens_eq_ok_iff.2 ⟨hus, ?_⟩
  rw [ofText, String.toList_ofList]
  exact hlexes'

/-- A text in which keywords, brackets, a list and a string touch what stands beside them. -/
def touching : String := "not(a in[1,true])or b.c eq\"x y\""

/-- Gaps of blanks of several kinds, with none at the end. -/
def wideGaps : List (List Char) :=
  [[' '], ['\n', '\t'], [' ', ' '], ['\u3000'], [' '], ['\r'], [' '], [' '], ['\u00a0'], []]

theorem tokens_spaced_touching :
    (ofText touching).lexemes = ["not", "(", "a", "in", "[1,true]", ")", "or", "b.c", "eq", "\"x y\""].map
        String.toList ∧
      ∃ spanned, (ofText touching).tokens = .ok spanned ∧
        ∃ spanned', (ofText (String.ofList (spaced [' '] (ofText touching).lexemes wideGaps))).tokens =
            .ok spanned' ∧
          spanned'.map (·.token) = spanned.map (·.token) := by
  have hlexemes : (ofText touching).lexemes =
      ["not", "(", "a", "in", "[1,true]", ")", "or", "b.c", "eq", "\"x y\""].map String.toList := by
    decide +kernel
  have hread : (ofText touching).tokens.toOption.isSome = true := by decide +kernel
  obtain ⟨spanned, hspanned⟩ : ∃ spanned, (ofText touching).tokens = .ok spanned := by
    match htokens : (ofText touching).tokens with
    | .ok spanned => exact ⟨spanned, rfl⟩
    | .error e => rw [htokens] at hread; cases hread
  have hlength : wideGaps.length = (ofText touching).lexemes.length := by rw [hlexemes]; rfl
  exact ⟨hlexemes, spanned, hspanned,
    (tokens_spaced hspanned).2.2 [' '] wideGaps rfl (by decide) hlength (by decide)⟩

end FilterLang.Lexer
