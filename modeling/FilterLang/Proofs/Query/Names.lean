import FilterLang.Proofs.Query.Progress
import FilterLang.Proofs.Text.Classes
import Mathlib.Data.List.TakeWhile

/-!
# Words of a query

A word of a query is a keyword, a literal or the name of a field.  Keywords are read as themselves
wherever no word goes on behind them (`Lexer.word_keyword`), so a name must not be mistaken for one.
`Lexer.Lexable` says which names can be written: they are the names that the lexer reads
(`Lexer.token_name`), and it reads no others (`Lexer.lexable_of_token`).
-/

namespace FilterLang.Lexer

/-! ### Keywords -/

/-- The keyword at the front of a text is the whole word that stands there. -/
lemma eq_takeWhile_of_behindKeyword? {keyword cs rest : List Char}
    (hword : ∀ c ∈ keyword, isWordChar c = true)
    (h : behindKeyword? id keyword cs = some rest) : keyword = cs.takeWhile isWordChar := by
  obtain ⟨front, rfl, hfront, hrest⟩ := behindKeyword?_eq_some_iff.mp h
  rw [List.map_id] at hfront
  subst hfront
  have hstop : ∀ c ∈ rest.head?, isWordChar c = false := by
    cases rest with
    | nil => simp
    | cons c rest => simpa [startsWord] using hrest
  have hspan := span_append hword hstop
  rw [List.span_eq_takeWhile_dropWhile] at hspan
  exact (Prod.mk.inj hspan).1.symm

lemma isWordChar_of_mem_keyword {entry : String × Token} (h : entry ∈ keywordTokens) :
    ∀ c ∈ entry.1.toList, isWordChar c = true := by
  have hall : ∀ entry ∈ keywordTokens, entry.1.toList.all isWordChar = true := by decide
  exact List.all_eq_true.mp (hall entry h)

/-- No two tokens share a keyword. -/
lemma keywordTokens_inj {entry entry' : String × Token} (h : entry ∈ keywordTokens)
    (h' : entry' ∈ keywordTokens) (hkey : entry.1.toList = entry'.1.toList) : entry = entry' := by
  have hinj : ∀ entry ∈ keywordTokens, ∀ entry' ∈ keywordTokens,
      entry.1.toList = entry'.1.toList → entry = entry' := by decide +kernel
  exact hinj entry h entry' h' hkey

/-- A keyword is read as its token if no word goes on behind it. -/
lemma word_keyword {entry : String × Token} (h : entry ∈ keywordTokens) {rest : List Char}
    (hrest : startsWord rest = false) : word (entry.1.toList ++ rest) = (entry.2, rest) := by
  have hkey : behindKeyword? id entry.1.toList (entry.1.toList ++ rest) = some rest :=
    behindKeyword?_eq_some_iff.mpr ⟨_, rfl, List.map_id _, hrest⟩
  cases hread : word (entry.1.toList ++ rest) with
  | mk u rest' =>
    rcases word_cases hread with ⟨entry', hmem, rfl, hkey'⟩ | ⟨hnone, -⟩
    · -- both keywords are the word that stands there
      have hsame : entry.1.toList = entry'.1.toList :=
        (eq_takeWhile_of_behindKeyword? (isWordChar_of_mem_keyword h) hkey).trans
          (eq_takeWhile_of_behindKeyword? (isWordChar_of_mem_keyword hmem) hkey').symm
      obtain rfl := keywordTokens_inj h hmem hsame
      rw [hkey] at hkey'
      obtain rfl := Option.some.inj hkey'
      rfl
    · rw [hnone entry h] at hkey
      exact absurd hkey (by simp)

/-- The keyword stands at the front of a text as a token. -/
lemma token_keyword {entry : String × Token} (h : entry ∈ keywordTokens) {rest : List Char}
    (hrest : startsWord rest = false) :
    token (Text.skipBlanks (entry.1.toList ++ rest)) = .ok (entry.2, rest) := by
  obtain ⟨c, cs, hhead⟩ := List.exists_cons_of_ne_nil (keywordTokens_ne_nil h)
  have hword : isWordChar c = true := isWordChar_of_mem_keyword h c (by simp [hhead])
  have hdigit : c.isDigit = false := by
    have hall : ∀ entry ∈ keywordTokens, startsDigit entry.1.toList = false := by decide
    have hstart := hall entry h
    rwa [hhead] at hstart
  have hread := word_keyword h hrest
  rw [hhead, List.cons_append] at hread ⊢
  rw [Text.skipBlanks_of_not_blank (isBlank_of_isWordChar hword), token_word hword hdigit, hread]

/-! ### Names -/

/-- A name that a query can write. -/
@[mk_iff]
structure Lexable (field : String) : Prop where
  /-- It has only characters of names. -/
  nameChars : field.toList.all isNameChar = true
  /-- It starts with a character of a word. -/
  word : startsWord field.toList = true
  /-- It does not start with a digit. -/
  digit : startsDigit field.toList = false
  /-- Where it starts with a keyword, the word goes on behind it. -/
  keyword : ∀ keyword ∈ Operator.all.map Operator.name ++ connectives,
    keyword.toList <+: field.toList → startsWord (field.toList.drop keyword.toList.length) = true
  /-- Where it starts with a literal that is a word, in any case of letters, the word goes on behind
  it. -/
  literal : ∀ literal ∈ wordLiterals.map (·.1),
    literal.toList <+: field.toList.map Char.toLower →
      startsWord (field.toList.drop literal.toList.length) = true

instance (field : String) : Decidable (Lexable field) := decidable_of_iff' _ (lexable_iff field)

lemma startsWord_append_iff {cs rest : List Char} (hrest : startsWord rest = false) :
    startsWord (cs ++ rest) = startsWord cs := by
  cases cs with
  | nil => exact hrest
  | cons c cs => rfl

lemma startsWord_of_not_isNameChar {rest : List Char}
    (hrest : ∀ c ∈ rest.head?, isNameChar c = false) : startsWord rest = false := by
  cases rest with
  | nil => rfl
  | cons c rest =>
    have hname := hrest c rfl
    simp only [isNameChar, Bool.or_eq_false_iff] at hname
    exact hname.1.1.1

/-- A letter in upper case may stand in a word as well as the same one in lower case. -/
lemma isWordChar_of_toLower {c : Char} (h : isWordChar c.toLower = true) : isWordChar c = true := by
  by_cases hupper : c.val ≥ 'A'.val ∧ c.val ≤ 'Z'.val
  · have hascii : c.toNat < 0x80 :=
      lt_of_le_of_lt (UInt32.le_iff_toNat_le.mp hupper.2) (by decide)
    have hletter : c.isUpper = true := decide_eq_true hupper
    have halpha : c.isAlpha = true := by
      change (c.isUpper || c.isLower) = true
      rw [hletter, Bool.true_or]
    simp [isWordChar, Text.isAlphanumeric, hascii, Char.isAlphanum, halpha]
  · have hlower : c.toLower = c := dif_neg hupper
    rwa [hlower] at h

/-- In front of a text that ends a name, a keyword is not found in the name exactly if the word in the
name is longer than the keyword, or another one. -/
lemma behindKeyword?_eq_none_iff {fold : Char → Char} {keyword cs rest : List Char}
    (hrest : ∀ c ∈ rest.head?, isNameChar c = false)
    (hkeyword : ∀ c, fold c ∈ keyword → isNameChar c = true) :
    behindKeyword? fold keyword (cs ++ rest) = none ↔
      (keyword <+: cs.map fold → startsWord (cs.drop keyword.length) = true) := by
  have hword := startsWord_of_not_isNameChar hrest
  constructor
  · rintro hnone ⟨behind, hprefix⟩
    have hfront : (cs.take keyword.length).map fold = keyword := by
      rw [List.map_take, ← hprefix, List.take_left]
    by_contra hends
    rw [Bool.not_eq_true, ← startsWord_append_iff hword] at hends
    have hsome : behindKeyword? fold keyword (cs ++ rest) =
        some (cs.drop keyword.length ++ rest) := by
      refine behindKeyword?_eq_some_iff.mpr ⟨cs.take keyword.length, ?_, hfront, hends⟩
      rw [← List.append_assoc, List.take_append_drop]
    rw [hsome] at hnone
    exact absurd hnone (by simp)
  · intro h
    cases hfound : behindKeyword? fold keyword (cs ++ rest) with
    | none => rfl
    | some rest' =>
      obtain ⟨front, hcs, rfl, hends⟩ := behindKeyword?_eq_some_iff.mp hfound
      rcases List.append_eq_append_iff.mp hcs with ⟨more, rfl, rfl⟩ | ⟨more, rfl, rfl⟩
      · -- the keyword would reach beyond the name
        cases more with
        | nil =>
          have hmore := h (by simp)
          simp [startsWord] at hmore
        | cons c more =>
          have hc := hkeyword c (by simp)
          rw [hrest c rfl] at hc
          exact absurd hc (by simp)
      · have hmore := h (by simp)
        rw [List.length_map, List.drop_left] at hmore
        rw [startsWord_append_iff hword, hmore] at hends
        exact absurd hends (by simp)

/-- The keywords that the lexer tries are the names of the operators and the connectives. -/
lemma mem_keywords_iff {keyword : String} :
    keyword ∈ Operator.all.map Operator.name ++ connectives ↔
      ∃ entry ∈ keywordTokens, entry.1 = keyword := by
  have hto : ∀ keyword ∈ Operator.all.map Operator.name ++ connectives,
      keyword ∈ keywordTokens.map (·.1) := by decide
  have hof : ∀ keyword ∈ keywordTokens.map (·.1),
      keyword ∈ Operator.all.map Operator.name ++ connectives := by decide
  rw [← List.mem_map]
  exact ⟨hto keyword, hof keyword⟩

lemma isNameChar_of_mem_keyword {entry : String × Token} (h : entry ∈ keywordTokens) {c : Char}
    (hc : id c ∈ entry.1.toList) : isNameChar c = true :=
  isNameChar_of_isWordChar (isWordChar_of_mem_keyword h c hc)

lemma isWordChar_of_mem_wordLiteral {entry : String × Scalar} (h : entry ∈ wordLiterals) {c : Char}
    (hc : c.toLower ∈ entry.1.toList) : isWordChar c = true := by
  have hall : ∀ entry ∈ wordLiterals, entry.1.toList.all isWordChar = true := by decide
  exact isWordChar_of_toLower (List.all_eq_true.mp (hall entry h) _ hc)

lemma isNameChar_of_mem_wordLiteral {entry : String × Scalar} (h : entry ∈ wordLiterals) {c : Char}
    (hc : c.toLower ∈ entry.1.toList) : isNameChar c = true :=
  isNameChar_of_isWordChar (isWordChar_of_mem_wordLiteral h hc)

/-- A keyword is neither a name nor a literal. -/
lemma keyword_ne {entry : String × Token} (h : entry ∈ keywordTokens) :
    (∀ field, entry.2 ≠ .identifier field) ∧ ∀ value, entry.2 ≠ .literal value := by
  revert entry
  simp [keywordTokens, Operator.keywords, connectives]

/-- A name that can be written is read as itself. -/
lemma token_name {field : String} (h : Lexable field) {rest : List Char}
    (hrest : ∀ c ∈ rest.head?, isNameChar c = false) :
    token (Text.skipBlanks (field.toList ++ rest)) = .ok (.identifier field, rest) := by
  have hspan : (field.toList ++ rest).span isNameChar = (field.toList, rest) :=
    span_append (List.all_eq_true.mp h.nameChars) hrest
  have hkeyword : ∀ entry ∈ keywordTokens,
      behindKeyword? id entry.1.toList (field.toList ++ rest) = none := by
    intro entry hmem
    refine (behindKeyword?_eq_none_iff hrest fun c => isNameChar_of_mem_keyword hmem).mpr ?_
    rw [List.map_id]
    exact h.keyword entry.1 (mem_keywords_iff.mpr ⟨entry, hmem, rfl⟩)
  have hliteral : wordLiteral? (field.toList ++ rest) = none := by
    refine wordLiteral?_eq_none_iff.mpr fun entry hmem => ?_
    refine (behindKeyword?_eq_none_iff hrest fun c => isNameChar_of_mem_wordLiteral hmem).mpr ?_
    exact h.literal entry.1 (List.mem_map_of_mem hmem)
  have hread : word (field.toList ++ rest) = (.identifier field, rest) := by
    cases hread : word (field.toList ++ rest) with
    | mk u rest' =>
      rcases word_cases hread with ⟨entry, hmem, -, hfound⟩ |
        ⟨-, ⟨value, hfound, -⟩ | ⟨-, rfl, rfl⟩⟩
      · rw [hkeyword entry hmem] at hfound
        exact absurd hfound (by simp)
      · rw [hliteral] at hfound
        exact absurd hfound (by simp)
      · rw [List.span_eq_takeWhile_dropWhile, Prod.mk.injEq] at hspan
        rw [hspan.1, hspan.2, String.ofList_toList]
  have hword := h.word
  have hdigit := h.digit
  cases hfield : field.toList with
  | nil =>
    rw [hfield] at hword
    exact absurd hword (by decide)
  | cons c cs =>
    rw [hfield] at hword hdigit hread
    rw [List.cons_append] at hread ⊢
    rw [Text.skipBlanks_of_not_blank (isBlank_of_isWordChar hword), token_word hword hdigit, hread]

/-- The lexer reads no other names. -/
lemma lexable_of_token {cs rest : List Char} {field : String}
    (h : token cs = .ok (.identifier field, rest)) : Lexable field := by
  -- a name is read where a word starts, and nowhere else
  obtain ⟨c, tail, rfl, hc, hdigit, hword⟩ : ∃ c tail, cs = c :: tail ∧ isWordChar c = true ∧
      c.isDigit = false ∧ word cs = (.identifier field, rest) := by
    rcases token_cases h with ⟨-, hu, -⟩ | ⟨-, -, hu⟩ | ⟨quote, value, -, hu⟩ | ⟨items, -, hu⟩ |
      ⟨value, -, -, hu⟩ | hword
    · exact absurd hu (by simp)
    · exact absurd hu (by simp)
    · exact absurd hu (by simp)
    · exact absurd hu (by simp)
    · exact absurd hu (by simp)
    · exact hword
  rcases word_cases hword with ⟨entry, hmem, hu, -⟩ | ⟨hkeyword, ⟨value, -, hu⟩ |
    ⟨hliteral, hu, rfl⟩⟩
  · exact absurd hu ((keyword_ne hmem).1 field)
  · exact absurd hu (by simp)
  obtain rfl := Token.identifier.inj hu
  set cs := c :: tail with hcs
  -- behind the name no character of a name follows, so a keyword at its front ends inside it
  have hsplit : cs = cs.takeWhile isNameChar ++ cs.dropWhile isNameChar :=
    List.takeWhile_append_dropWhile.symm
  have hrest : ∀ d ∈ (cs.dropWhile isNameChar).head?, isNameChar d = false := by
    intro d hd
    have hstop := List.head?_dropWhile_not isNameChar cs
    rw [Option.mem_def.mp hd] at hstop
    exact hstop
  have hfirst : cs.takeWhile isNameChar = c :: tail.takeWhile isNameChar :=
    List.takeWhile_cons_of_pos (isNameChar_of_isWordChar hc)
  refine ⟨?_, ?_, ?_, ?_, ?_⟩
  · rw [String.toList_ofList, List.all_eq_true]
    exact fun d hd => List.mem_takeWhile_imp hd
  · rw [String.toList_ofList, hfirst]
    exact hc
  · rw [String.toList_ofList, hfirst]
    exact hdigit
  · intro keyword hmem
    obtain ⟨entry, hentry, rfl⟩ := mem_keywords_iff.mp hmem
    have hnone := hkeyword entry hentry
    rw [hsplit] at hnone
    have hlonger := (behindKeyword?_eq_none_iff hrest fun c =>
      isNameChar_of_mem_keyword hentry).mp hnone
    rwa [List.map_id, ← String.toList_ofList (l := cs.takeWhile isNameChar)] at hlonger
  · intro literal hmem
    obtain ⟨entry, hentry, rfl⟩ := List.mem_map.mp hmem
    have hnone := wordLiteral?_eq_none_iff.mp hliteral entry hentry
    rw [hsplit] at hnone
    have hlonger := (behindKeyword?_eq_none_iff hrest fun c =>
      isNameChar_of_mem_wordLiteral hentry).mp hnone
    rwa [← String.toList_ofList (l := cs.takeWhile isNameChar)] at hlonger

end FilterLang.Lexer
