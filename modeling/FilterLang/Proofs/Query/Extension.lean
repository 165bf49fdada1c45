import FilterLang.Proofs.Query.Names
import FilterLang.Proofs.Query.Stream

/-!
# Texts that go on

A token is read off the front of a text, and more text behind it may change what is read: `a eq 1` goes on
as `a eq 12` or `a eq 1.5`.  Nothing changes if no character of a name stands at the front of what is added
(`Lexer.Parts`), because names, numbers and keywords then end where they did.  This file says so reader by
reader; `Lexer.token_append` is the statement for tokens, and `Lexer.Lexes.followed` the one for two texts of
which one follows the other.
-/

namespace FilterLang.Lexer

/-- Every token ends in front of this text: no character of a name stands there. -/
def Parts (more : List Char) : Prop := ∀ c ∈ more.head?, isNameChar c = false

/-- Something that was read, with more text behind it. -/
def extend {α : Type} (more : List Char) (found : α × List Char) : α × List Char :=
  (found.1, found.2 ++ more)

lemma parts_nil : Parts [] := by simp [Parts]

lemma parts_cons {c : Char} (h : isNameChar c = false) (cs : List Char) : Parts (c :: cs) := by
  simpa [Parts] using h

variable {more : List Char}

lemma Parts.startsWord (hmore : Parts more) (cs : List Char) :
    Lexer.startsWord (cs ++ more) = Lexer.startsWord cs :=
  startsWord_append_iff (startsWord_of_not_isNameChar hmore)

lemma isNameChar_of_isNumberChar {c : Char} (h : isNumberChar c = true) : isNameChar c = true := by
  simp only [isNumberChar, Bool.or_eq_true, beq_iff_eq] at h
  rcases h with h | rfl
  · exact isNameChar_of_isWordChar (isWordChar_of_isDigit h)
  · rfl

/-- A run of characters that may stand in names ends where it did. -/
lemma Parts.span (hmore : Parts more) (p : Char → Bool) (hp : ∀ c, p c = true → isNameChar c = true)
    (cs : List Char) : (cs ++ more).span p = extend more (cs.span p) := by
  simp only [List.span_eq_takeWhile_dropWhile, extend, Prod.mk.injEq]
  induction cs with
  | nil =>
    cases more with
    | nil => exact ⟨rfl, rfl⟩
    | cons d more =>
      have hd : ¬ p d = true := fun h => absurd (hp d h) (by rw [hmore d rfl]; decide)
      exact ⟨List.takeWhile_cons_of_neg hd, List.dropWhile_cons_of_neg hd⟩
  | cons c cs ih =>
    by_cases hc : p c = true
    · rw [List.cons_append, List.takeWhile_cons_of_pos hc, List.takeWhile_cons_of_pos hc,
        List.dropWhile_cons_of_pos hc, List.dropWhile_cons_of_pos hc]
      exact ⟨congrArg _ ih.1, ih.2⟩
    · rw [List.cons_append, List.takeWhile_cons_of_neg hc, List.takeWhile_cons_of_neg hc,
        List.dropWhile_cons_of_neg hc, List.dropWhile_cons_of_neg hc]
      exact ⟨rfl, rfl⟩

/-! ### Words -/

lemma findSome?_eq_map {α β γ : Type} {f : α → Option β} {f' : α → Option γ} {g : β → γ} {l : List α}
    (h : ∀ a ∈ l, f' a = (f a).map g) : l.findSome? f' = (l.findSome? f).map g := by
  induction l with
  | nil => rfl
  | cons a l ih =>
    rw [List.forall_mem_cons] at h
    rw [List.findSome?_cons, List.findSome?_cons, h.1, ih h.2]
    cases f a <;> rfl

/-- No keyword reaches into a text that starts with no character of a word. -/
lemma behindKeyword?_append {fold : Char → Char} {keyword : List Char}
    (hkeyword : ∀ c, fold c ∈ keyword → isWordChar c = true) (hmore : startsWord more = false)
    (cs : List Char) :
    behindKeyword? fold keyword (cs ++ more) = (behindKeyword? fold keyword cs).map (· ++ more) := by
  induction keyword generalizing cs with
  | nil =>
    simp only [behindKeyword?, startsWord_append_iff hmore]
    split <;> rfl
  | cons k keyword ih =>
    cases cs with
    | nil =>
      cases more with
      | nil => rfl
      | cons d more =>
        have hd : fold d ≠ k := by
          rintro rfl
          have hword : isWordChar d = false := hmore
          rw [hkeyword d (by simp)] at hword
          cases hword
        simp [behindKeyword?, hd]
    | cons c cs =>
      simp only [List.cons_append, behindKeyword?]
      split
      · exact ih (fun c hc => hkeyword c (List.mem_cons_of_mem k hc)) cs
      · rfl

lemma wordLiteral?_append (hmore : startsWord more = false) (cs : List Char) :
    wordLiteral? (cs ++ more) = (wordLiteral? cs).map (extend more) := by
  refine findSome?_eq_map fun (word, literal) hentry => ?_
  dsimp only
  rw [behindKeyword?_append (fun c => isWordChar_of_mem_wordLiteral hentry) hmore]
  cases behindKeyword? Char.toLower word.toList cs <;> rfl

/-- The keyword at the front of a text. -/
def keyword? (cs : List Char) : Option (Token × List Char) :=
  keywordTokens.findSome? fun (keyword, token) =>
    (behindKeyword? id keyword.toList cs).map fun rest => (token, rest)

/-- A word is the keyword that is there, else the literal, else a name. -/
lemma word_eq (cs : List Char) :
    word cs = ((keyword? cs).or
      ((wordLiteral? cs).map fun found => (.literal (.scalar found.1), found.2))).getD
        (.identifier (String.ofList (cs.span isNameChar).1), (cs.span isNameChar).2) := by
  rw [word]
  split
  · rename_i found hkeyword
    rw [show keyword? cs = some found from hkeyword]
    rfl
  · rename_i hkeyword
    rw [show keyword? cs = none from hkeyword]
    cases wordLiteral? cs with
    | some found => rfl
    | none => rfl

lemma keyword?_append (hmore : startsWord more = false) (cs : List Char) :
    keyword? (cs ++ more) = (keyword? cs).map (extend more) := by
  refine findSome?_eq_map ?_
  rintro ⟨keyword, token⟩ hentry
  have hchars : ∀ c, id c ∈ keyword.toList → isWordChar c = true := isWordChar_of_mem_keyword hentry
  dsimp only
  rw [behindKeyword?_append hchars hmore]
  cases behindKeyword? id keyword.toList cs <;> rfl

lemma word_append (hmore : Parts more) (cs : List Char) :
    word (cs ++ more) = extend more (word cs) := by
  have hstarts : startsWord more = false := startsWord_of_not_isNameChar hmore
  rw [word_eq, word_eq, keyword?_append hstarts, wordLiteral?_append hstarts,
    hmore.span isNameChar (fun _ => id)]
  cases keyword? cs with
  | some found => rfl
  | none =>
    cases wordLiteral? cs with
    | some found => rfl
    | none => rfl

/-! ### Literals -/

lemma stringBody_append {quote : Char} {start cs body rest : List Char}
    (h : stringBody quote start cs = .ok (body, rest)) (start' more : List Char) :
    stringBody quote start' (cs ++ more) = .ok (body, rest ++ more) := by
  fun_induction stringBody quote start cs generalizing body with
  | case1 => cases h
  | case2 cs =>
    obtain ⟨rfl, rfl⟩ := Prod.mk.inj (Except.ok.inj h)
    rw [List.cons_append, stringBody.eq_def]
    exact if_pos rfl
  | case3 => cases h
  | case4 => cases h
  | case5 escaped cs plain hplain body' rest' hbody hquote ih =>
    obtain ⟨rfl, rfl⟩ := Prod.mk.inj (Except.ok.inj h)
    rw [List.cons_append, List.cons_append, stringBody.eq_def]
    simp [hplain, hquote, ih hbody]
  | case6 => cases h
  | case7 c cs hquote hslash body' rest' hbody ih =>
    obtain ⟨rfl, rfl⟩ := Prod.mk.inj (Except.ok.inj h)
    rw [List.cons_append, stringBody.eq_def]
    simp [hquote, hslash, ih hbody]
  | case8 => cases h

lemma string_append {quote : Char} {cs rest : List Char} {value : Scalar}
    (h : string quote cs = .ok (value, rest)) (more : List Char) :
    string quote (cs ++ more) = .ok (value, rest ++ more) := by
  cases cs with
  | nil => cases h
  | cons c cs =>
    simp only [string] at h
    split at h
    · rename_i body rest' hbody
      obtain ⟨rfl, rfl⟩ := Prod.mk.inj (Except.ok.inj h)
      have hmore := stringBody_append hbody (c :: (cs ++ more)) more
      rw [List.tail_cons] at hmore
      rw [List.cons_append, string, List.tail_cons, hmore]
    · cases h

/-- A sign at the end of a text starts no number, whatever follows. -/
lemma startsNumber_append (hmore : Parts more) {cs : List Char} (hcs : cs ≠ []) :
    startsNumber (cs ++ more) = startsNumber cs := by
  have hdigit : startsDigit more = false := by
    cases more with
    | nil => rfl
    | cons d more =>
      by_contra h
      have hname := isNameChar_of_isWordChar (isWordChar_of_isDigit (Bool.of_not_eq_false h))
      rw [hmore d rfl] at hname
      cases hname
  have hstarts : ∀ ds, startsDigit (ds ++ more) = startsDigit ds := by
    intro ds
    cases ds with
    | nil => exact hdigit
    | cons d ds => rfl
  match cs, hcs with
  | c :: cs, _ =>
    unfold startsNumber
    by_cases hc : c = '-'
    · subst hc
      exact hstarts cs
    · simp only [List.cons_append]
      split <;> split <;> simp_all [startsDigit]

lemma number_append (hmore : Parts more) {cs rest : List Char} {value : Scalar} (hcs : cs ≠ [])
    (h : number cs = .ok (value, rest)) : number (cs ++ more) = .ok (value, rest ++ more) := by
  have hhead : (cs ++ more).head? = cs.head? := List.head?_append_of_ne_nil _ hcs
  have hbody : (if (cs.head? == some '-') = true then (cs ++ more).tail else cs ++ more) =
      (if (cs.head? == some '-') = true then cs.tail else cs) ++ more := by
    split
    · exact List.tail_append_of_ne_nil hcs
    · rfl
  simp only [number] at h ⊢
  rw [hhead, hbody, hmore.span isNumberChar (fun _ => isNameChar_of_isNumberChar)]
  generalize (if (cs.head? == some '-') = true then cs.tail else cs) = body at h
  simp only [extend, hmore.startsWord]
  by_cases hread : (wellFormedNumber (body.span isNumberChar).1 &&
      !startsWord (body.span isNumberChar).2) = true
  · rw [if_pos hread] at h ⊢
    obtain ⟨rfl, rfl⟩ := Prod.mk.inj (Except.ok.inj h)
    rfl
  · rw [if_neg hread] at h
    cases h

lemma element_append (hmore : Parts more) {cs rest : List Char} {value : Scalar}
    (h : element cs = .ok (value, rest)) : element (cs ++ more) = .ok (value, rest ++ more) := by
  cases cs with
  | nil => cases h
  | cons c cs =>
    have hne : c :: cs ≠ [] := List.cons_ne_nil c cs
    have hstarts := startsNumber_append hmore hne
    have hword := wordLiteral?_append (startsWord_of_not_isNameChar hmore) (c :: cs)
    simp only [List.cons_append] at hstarts hword
    simp only [element, List.cons_append, hstarts, hword] at h ⊢
    split_ifs at h ⊢ with hquote hnumber hc
    · rw [← List.cons_append]
      exact string_append h more
    · rw [← List.cons_append]
      exact number_append hmore hne h
    · cases hliteral : wordLiteral? (c :: cs) with
      | none =>
        rw [hliteral] at h
        cases h
      | some found =>
        rw [hliteral] at h
        obtain rfl := Except.ok.inj h
        rfl

/-! ### Lists -/

lemma skipBlanks_append {cs : List Char} (h : Text.skipBlanks cs ≠ []) (more : List Char) :
    Text.skipBlanks (cs ++ more) = Text.skipBlanks cs ++ more := by
  rw [Text.skipBlanks, List.dropWhile_append, if_neg]
  · rfl
  · simpa [Text.skipBlanks] using h

/-- A comma at the end of a text is left out: what would follow it may close the list. -/
lemma separator_append {start cs rest : List Char} {found : Separator}
    (h : separator start cs = .ok (found, rest)) (hnext : found = .next → rest ≠ [])
    (start' more : List Char) :
    separator start' (cs ++ more) = .ok (found, rest ++ more) := by
  simp only [separator] at h
  split at h
  · cases h
  · rename_i c behind hbehind
    have hskip : Text.skipBlanks (cs ++ more) = c :: (behind ++ more) := by
      rw [skipBlanks_append (by rw [hbehind]; exact List.cons_ne_nil _ _), hbehind, List.cons_append]
    rw [separator, hskip]
    dsimp only
    by_cases hcomma : c = ','
    · rw [if_pos hcomma] at h ⊢
      split at h
      · cases h
      · rename_i hopen
        obtain ⟨rfl, rfl⟩ := Prod.mk.inj (Except.ok.inj h)
        have hrest := hnext rfl
        rw [skipBlanks_append hrest, List.head?_append_of_ne_nil _ hrest, if_neg hopen]
    · rw [if_neg hcomma] at h ⊢
      split at h
      · rename_i hclose
        obtain ⟨rfl, rfl⟩ := Prod.mk.inj (Except.ok.inj h)
        rw [if_pos hclose]
      · cases h

lemma elements_ne_nil {start cs : List Char} {rounds : Nat} {found : List Scalar × List Char}
    (h : elements start rounds cs = .ok found) : cs ≠ [] := by
  rintro rfl
  cases rounds with
  | zero => cases h
  | succ rounds => cases h

/-- More rounds than are needed do no harm. -/
lemma elements_append (hmore : Parts more) {start cs rest : List Char} {rounds : Nat}
    {items : List Scalar} (h : elements start rounds cs = .ok (items, rest)) (start' : List Char)
    {rounds' : Nat} (hrounds : rounds ≤ rounds') :
    elements start' rounds' (cs ++ more) = .ok (items, rest ++ more) := by
  induction rounds generalizing cs items rounds' with
  | zero => cases h
  | succ rounds ih =>
    obtain ⟨rounds', rfl⟩ : ∃ n, rounds' = n + 1 := ⟨rounds' - 1, by omega⟩
    simp only [elements] at h
    split at h
    · cases h
    · rename_i item behind hitem
      rw [elements, element_append hmore hitem]
      dsimp only
      split at h
      · cases h
      · rename_i behind' hseparator
        obtain ⟨rfl, rfl⟩ := Prod.mk.inj (Except.ok.inj h)
        rw [separator_append hseparator (by simp)]
      · rename_i behind' hseparator
        split at h
        · cases h
        · rename_i items' rest' hitems
          obtain ⟨rfl, rfl⟩ := Prod.mk.inj (Except.ok.inj h)
          -- the next element is read, so that the comma was not the end of the text
          have hbehind : behind' ≠ [] := elements_ne_nil hitems
          rw [separator_append hseparator (fun _ => hbehind)]
          dsimp only
          rw [ih hitems (Nat.le_of_succ_le_succ hrounds)]

lemma list_append (hmore : Parts more) {cs rest : List Char} {items : List Scalar}
    (h : list cs = .ok (items, rest)) : list (cs ++ more) = .ok (items, rest ++ more) := by
  have hinside : Text.skipBlanks cs.tail ≠ [] := by
    intro hnil
    rw [list, hnil] at h
    cases cs with
    | nil => cases h
    | cons c cs => cases h
  have hcs : cs ≠ [] := by
    rintro rfl
    exact hinside rfl
  have hskip : Text.skipBlanks (cs ++ more).tail = Text.skipBlanks cs.tail ++ more := by
    rw [List.tail_append_of_ne_nil hcs, skipBlanks_append hinside]
  simp only [list] at h ⊢
  rw [hskip, List.head?_append_of_ne_nil _ hinside]
  split at h
  · rename_i hclose
    obtain ⟨rfl, rfl⟩ := Prod.mk.inj (Except.ok.inj h)
    rw [if_pos hclose, List.tail_append_of_ne_nil hinside]
  · rename_i hclose
    rw [if_neg hclose]
    exact elements_append hmore h _ (by simp)

/-! ### Tokens -/

/-- A token that is not the end of the text stays what it is when the text goes on. -/
lemma token_append (hmore : Parts more) {cs rest : List Char} {u : Token} (hcs : cs ≠ [])
    (h : token cs = .ok (u, rest)) : token (cs ++ more) = .ok (u, rest ++ more) := by
  match cs, hcs with
  | c :: cs, hne =>
    have hstarts := startsNumber_append hmore hne
    have hword := word_append hmore (c :: cs)
    simp only [List.cons_append] at hstarts hword
    simp only [token, List.cons_append, hstarts, hword] at h ⊢
    split_ifs at h ⊢ with hopen hclose hcomma hquote hbracket hnumber hc
    · obtain ⟨rfl, rfl⟩ := Prod.mk.inj (Except.ok.inj h)
      rfl
    · obtain ⟨rfl, rfl⟩ := Prod.mk.inj (Except.ok.inj h)
      rfl
    · obtain ⟨rfl, rfl⟩ := Prod.mk.inj (Except.ok.inj h)
      rfl
    · obtain ⟨value, hvalue, rfl⟩ := literalToken_eq_ok h
      rw [← List.cons_append, string_append hvalue more]
      rfl
    · split at h
      · rename_i items rest' hitems
        obtain ⟨rfl, rfl⟩ := Prod.mk.inj (Except.ok.inj h)
        rw [← List.cons_append, list_append hmore hitems]
      · cases h
    · obtain ⟨value, hvalue, rfl⟩ := literalToken_eq_ok h
      rw [← List.cons_append, number_append hmore hne hvalue]
      rfl
    · rw [Except.ok.inj h]
      rfl

/-- Tokens stay what they are when the text goes on behind them. -/
lemma Lexes.extended (hmore : Parts more) {cs rest : List Char} {us : List Token} (h : Lexes cs us rest)
    (hus : .eof ∉ us) : Lexes (cs ++ more) us (rest ++ more) := by
  induction h with
  | nil cs => exact .nil _
  | @cons cs mid rest u us hu _ ih =>
    simp only [List.mem_cons, not_or] at hus
    have hcs : Text.skipBlanks cs ≠ [] := by
      intro hnil
      rw [hnil] at hu
      obtain ⟨rfl, -⟩ := Prod.mk.inj (Except.ok.inj hu)
      exact hus.1 rfl
    refine .cons ?_ (ih hus.2)
    rw [skipBlanks_append hcs]
    exact token_append hmore hcs hu

/-- A text of which all tokens have been read, followed by another one: the tokens of the second text come
behind those of the first. -/
lemma Lexes.followed (hmore : Parts more) {cs rest : List Char} {us vs : List Token}
    (h : Lexes cs (us ++ [.eof]) []) (hus : .eof ∉ us) (hvs : vs ≠ []) (h' : Lexes more vs rest) :
    Lexes (cs ++ more) (us ++ vs) rest := by
  obtain ⟨blanks, hfront, hend⟩ := lexes_append_iff.1 h
  refine (hfront.extended hmore hus).append ?_
  cases hend with
  | cons heof _ =>
    have hblanks : Text.skipBlanks blanks = [] := (token_eq_eof_iff.1 heof).1
    cases h' with
    | nil => exact absurd rfl hvs
    | cons hv hrest =>
      refine .cons ?_ hrest
      rwa [Text.skipBlanks, List.dropWhile_append_of_pos (List.dropWhile_eq_nil_iff.1 hblanks)]

end FilterLang.Lexer
