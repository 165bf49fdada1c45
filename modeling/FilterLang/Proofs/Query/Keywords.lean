import FilterLang.Proofs.Query.Names

/-!
# Keywords are unambiguous

Some keywords start with others, as `notIn` starts with `not`, and the literals among them are read in any case
of letters.  Still at most one keyword matches at any place of a text, because a keyword matches only where it is
the whole word that stands there (`Keyword.matchesAt_iff`).

`wordBy` reads a word with tables of keywords that are tried one after the other.  Reading by the tables that
the lexer uses is what the lexer does (`word_eq_wordBy`), and the order of the tables and of the keywords in
them makes no difference.
-/

namespace FilterLang.Lexer

/-- A word that is read as a token of its own. -/
structure Keyword where
  spelling : String
  /-- Whether the letters of the text may be in any case. -/
  anyCase : Bool
  token : Token
deriving DecidableEq

namespace Keyword

/-- A character of the text, as it is compared with the spelling. -/
def fold (k : Keyword) : Char → Char := if k.anyCase then Char.toLower else id

/-- The keyword stands at the front of a text, whatever follows it. -/
def StandsAt (k : Keyword) (cs : List Char) : Prop := k.spelling.toList <+: cs.map k.fold

/-- The keyword stands at the front of a text, and no word goes on behind it. -/
def MatchesAt (k : Keyword) (cs : List Char) : Prop :=
  k.StandsAt cs ∧ startsWord (cs.drop k.spelling.length) = false

instance (k : Keyword) (cs : List Char) : Decidable (k.StandsAt cs) :=
  inferInstanceAs (Decidable (_ <+: _))

instance (k : Keyword) (cs : List Char) : Decidable (k.MatchesAt cs) :=
  inferInstanceAs (Decidable (_ ∧ _))

/-- The token of the keyword if the keyword matches, and the text behind it.  As many characters are taken as
the keyword has bytes. -/
def read? (k : Keyword) (cs : List Char) : Option (Token × List Char) :=
  if k.MatchesAt cs then some (k.token, cs.drop k.spelling.utf8ByteSize) else none

end Keyword

/-- The operators among the keywords. -/
def operatorKeywords : List Keyword := Operator.keywords.map fun op => ⟨op.name, false, .operator op⟩

/-- The connectives among the keywords. -/
def connectiveKeywords : List Keyword :=
  (connectives.zip [.and, .not, .or]).map fun (word, token) => ⟨word, false, token⟩

/-- The literals among the keywords. -/
def literalKeywords : List Keyword :=
  wordLiterals.map fun (word, literal) => ⟨word, true, .literal (.scalar literal)⟩

/-- All keywords. -/
def allKeywords : List Keyword := operatorKeywords ++ connectiveKeywords ++ literalKeywords

/-- The first keyword that matches, of the tables and of the keywords in each of them. -/
def keywordBy? (tables : List (List Keyword)) (cs : List Char) : Option (Token × List Char) :=
  tables.findSome? fun table => table.findSome? (·.read? cs)

/-- A word read with tables of keywords; a word that is no keyword is a name. -/
def wordBy (tables : List (List Keyword)) (cs : List Char) : Token × List Char :=
  match keywordBy? tables cs with
  | some found => found
  | none => (.identifier (String.ofList (cs.takeWhile isNameChar)), cs.dropWhile isNameChar)

/-! ### The keywords of the lexer -/

/-- What the keywords have in common: they consist of characters of words, each of which takes one byte. -/
lemma spelling_of_mem {k : Keyword} (h : k ∈ allKeywords) :
    k.spelling.toList.all isWordChar = true ∧ k.spelling.utf8ByteSize = k.spelling.length := by
  revert k
  decide +kernel

/-- A character that counts as one of a keyword is a character of words. -/
lemma isWordChar_of_fold {k : Keyword} (h : k ∈ allKeywords) {c : Char}
    (hc : k.fold c ∈ k.spelling.toList) : isWordChar c = true := by
  have hword : isWordChar (k.fold c) = true := List.all_eq_true.1 (spelling_of_mem h).1 _ hc
  unfold Keyword.fold at hword
  split at hword
  · exact isWordChar_of_toLower hword
  · exact hword

lemma eq_of_spelling_eq {k k' : Keyword} (h : k ∈ allKeywords) (h' : k' ∈ allKeywords)
    (heq : k.spelling.toList = k'.spelling.toList) : k = k' := by
  have hinj : ∀ k ∈ allKeywords, ∀ k' ∈ allKeywords,
      k.spelling.toList = k'.spelling.toList → k = k' := by decide +kernel
  exact hinj k h k' h' heq

/-- No keyword that keeps its case is a literal in some case. -/
lemma map_toLower_ne {k k' : Keyword} (h : k ∈ allKeywords) (h' : k' ∈ allKeywords)
    (hexact : k.anyCase = false) (hany : k'.anyCase = true) :
    k.spelling.toList.map Char.toLower ≠ k'.spelling.toList := by
  have hne : ∀ k ∈ allKeywords, ∀ k' ∈ allKeywords, k.anyCase = false → k'.anyCase = true →
      k.spelling.toList.map Char.toLower ≠ k'.spelling.toList := by decide +kernel
  exact hne k h k' h' hexact hany

/-! ### Keywords are whole words -/

namespace Keyword

variable {k k' : Keyword} {cs : List Char}

/-- A keyword that stands somewhere is a part of the word there. -/
lemma StandsAt.spelling_eq (h : k.StandsAt cs) (hk : k ∈ allKeywords) :
    k.spelling.length ≤ (cs.takeWhile isWordChar).length ∧
      k.spelling.toList = ((cs.takeWhile isWordChar).take k.spelling.length).map k.fold := by
  obtain ⟨rest, hrest⟩ := h
  obtain ⟨front, tail, rfl, hfront, -⟩ := List.map_eq_append_iff.1 hrest.symm
  have hlength : front.length = k.spelling.length := by
    rw [← String.length_toList, ← hfront, List.length_map]
  have hwords : ∀ c ∈ front, isWordChar c = true := fun c hc =>
    isWordChar_of_fold hk (hfront ▸ List.mem_map_of_mem hc)
  rw [List.takeWhile_append_of_pos hwords, ← hlength, List.take_left, hfront]
  exact ⟨by simp, rfl⟩

/-- A keyword matches where it is the whole word that stands there. -/
lemma matchesAt_iff (hk : k ∈ allKeywords) :
    k.MatchesAt cs ↔ k.StandsAt cs ∧ k.spelling.length = (cs.takeWhile isWordChar).length := by
  refine and_congr_right fun hstands => ?_
  have hle := (hstands.spelling_eq hk).1
  -- behind the keyword stands the rest of the word, and then a character of no word
  have hdrop : cs.drop k.spelling.length =
      (cs.takeWhile isWordChar).drop k.spelling.length ++ cs.dropWhile isWordChar := by
    conv_lhs => rw [← @List.takeWhile_append_dropWhile _ isWordChar cs]
    exact List.drop_append_of_le_length hle
  have hend : startsWord (cs.dropWhile isWordChar) = false := by
    have hnot := List.head?_dropWhile_not isWordChar cs
    cases hbehind : cs.dropWhile isWordChar with
    | nil => rfl
    | cons c behind => simpa [hbehind, startsWord] using hnot
  rw [hdrop, startsWord_append_iff hend]
  constructor
  · intro hstop
    by_contra hne
    obtain ⟨c, more, hmore⟩ := List.exists_cons_of_ne_nil
      (mt List.drop_eq_nil_iff.1 (show ¬ (cs.takeWhile isWordChar).length ≤ k.spelling.length by omega))
    have hc : isWordChar c = true :=
      List.mem_takeWhile_imp (List.mem_of_mem_drop (by rw [hmore]; simp))
    rw [hmore] at hstop
    exact absurd (show isWordChar c = false from hstop) (by simp [hc])
  · intro heq
    rw [heq, List.drop_length]
    rfl

lemma MatchesAt.spelling_eq (h : k.MatchesAt cs) (hk : k ∈ allKeywords) :
    k.spelling.toList = (cs.takeWhile isWordChar).map k.fold := by
  obtain ⟨hstands, hlength⟩ := (matchesAt_iff hk).1 h
  have heq := (hstands.spelling_eq hk).2
  rwa [hlength, List.take_length] at heq

/-- No two keywords match at one place. -/
lemma MatchesAt.unique (h : k.MatchesAt cs) (h' : k'.MatchesAt cs) (hk : k ∈ allKeywords)
    (hk' : k' ∈ allKeywords) : k = k' := by
  have heq := h.spelling_eq hk
  have heq' := h'.spelling_eq hk'
  cases hcase : k.anyCase <;> cases hcase' : k'.anyCase <;>
    simp only [fold, hcase, hcase', if_true, Bool.false_eq_true, if_false, List.map_id] at heq heq'
  · exact eq_of_spelling_eq hk hk' (heq.trans heq'.symm)
  · exact absurd (by rw [heq, heq']) (map_toLower_ne hk hk' hcase hcase')
  · exact absurd (by rw [heq, heq']) (map_toLower_ne hk' hk hcase' hcase)
  · exact eq_of_spelling_eq hk hk' (heq.trans heq'.symm)

lemma behindKeyword?_fold_eq_some_iff {rest : List Char} :
    behindKeyword? k.fold k.spelling.toList cs = some rest ↔
      k.MatchesAt cs ∧ rest = cs.drop k.spelling.length := by
  rw [behindKeyword?_eq_some_iff]
  constructor
  · rintro ⟨front, rfl, hfront, hstop⟩
    have hlength : k.spelling.length = front.length := by
      rw [← String.length_toList, ← hfront, List.length_map]
    rw [MatchesAt, StandsAt, hlength, List.drop_left, ← hfront, List.map_append]
    exact ⟨⟨List.prefix_append _ _, hstop⟩, rfl⟩
  · rintro ⟨⟨hstands, hstop⟩, rfl⟩
    refine ⟨cs.take k.spelling.length, (List.take_append_drop _ _).symm, ?_, hstop⟩
    rw [List.map_take, ← String.length_toList]
    exact (List.prefix_iff_eq_take.1 hstands).symm

/-- Keywords take as many characters as they have bytes. -/
lemma read?_eq (hk : k ∈ allKeywords) :
    k.read? cs = (behindKeyword? k.fold k.spelling.toList cs).map fun rest => (k.token, rest) := by
  rw [read?, (spelling_of_mem hk).2]
  split
  · rename_i hmatch
    rw [behindKeyword?_fold_eq_some_iff.2 ⟨hmatch, rfl⟩]
    rfl
  · rename_i hmatch
    cases hfound : behindKeyword? k.fold k.spelling.toList cs with
    | none => rfl
    | some rest => exact absurd (behindKeyword?_fold_eq_some_iff.1 hfound).1 hmatch

lemma read?_eq_some_iff {found : Token × List Char} :
    k.read? cs = some found ↔ k.MatchesAt cs ∧ found = (k.token, cs.drop k.spelling.utf8ByteSize) := by
  unfold read?
  split
  · rename_i hmatch
    simp [hmatch, eq_comm]
  · rename_i hmatch
    simp [hmatch]

end Keyword

/-! ### The order of the tables -/

section

variable {cs : List Char} {tables : List (List Keyword)} (hall : ∀ k ∈ tables.flatten, k ∈ allKeywords)

include hall

/-- The keyword that is found is the one that matches, wherever it stands in the tables. -/
lemma keywordBy?_eq_some_iff {found : Token × List Char} :
    keywordBy? tables cs = some found ↔ ∃ k ∈ tables.flatten, k.read? cs = some found := by
  have hfound : ∀ {found}, keywordBy? tables cs = some found →
      ∃ k ∈ tables.flatten, k.read? cs = some found := by
    intro found h
    obtain ⟨table, htable, h⟩ := List.exists_of_findSome?_eq_some h
    obtain ⟨k, hk, hread⟩ := List.exists_of_findSome?_eq_some h
    exact ⟨k, List.mem_flatten_of_mem htable hk, hread⟩
  refine ⟨hfound, ?_⟩
  rintro ⟨k, hk, hread⟩
  cases hby : keywordBy? tables cs with
  | none =>
    obtain ⟨table, htable, hmem⟩ := List.mem_flatten.1 hk
    have hnone := List.findSome?_eq_none_iff.1 (List.findSome?_eq_none_iff.1 hby table htable) k hmem
    rw [hnone] at hread
    cases hread
  | some found' =>
    obtain ⟨k', hk', hread'⟩ := hfound hby
    obtain rfl := (Keyword.read?_eq_some_iff.1 hread).1.unique (Keyword.read?_eq_some_iff.1 hread').1
      (hall k hk) (hall k' hk')
    rw [← hread', hread]

/-- Tables with the same keywords read every word alike. -/
lemma wordBy_congr {tables' : List (List Keyword)}
    (h : ∀ k, k ∈ tables'.flatten ↔ k ∈ tables.flatten) : wordBy tables' cs = wordBy tables cs := by
  have hall' : ∀ k ∈ tables'.flatten, k ∈ allKeywords := fun k hk => hall k ((h k).1 hk)
  have hsame : keywordBy? tables' cs = keywordBy? tables cs := by
    ext found
    rw [keywordBy?_eq_some_iff hall', keywordBy?_eq_some_iff hall]
    simp only [h]
  rw [wordBy, wordBy, hsame]

end

/-- The tables in the order in which the lexer tries them. -/
def tables : List (List Keyword) := [operatorKeywords, connectiveKeywords, literalKeywords]

lemma flatten_tables : tables.flatten = allKeywords := rfl

lemma mem_allKeywords_iff {k : Keyword} :
    k ∈ allKeywords ↔ (∃ entry ∈ keywordTokens, ⟨entry.1, false, entry.2⟩ = k) ∨
      ∃ entry ∈ wordLiterals, ⟨entry.1, true, .literal (.scalar entry.2)⟩ = k := by
  have hsplit : allKeywords = keywordTokens.map (fun entry => ⟨entry.1, false, entry.2⟩) ++
      wordLiterals.map fun entry => ⟨entry.1, true, .literal (.scalar entry.2)⟩ := rfl
  rw [hsplit, List.mem_append, List.mem_map, List.mem_map]

lemma keywordBy?_tables_eq_some_iff {cs : List Char} {found : Token × List Char} :
    keywordBy? tables cs = some found ↔ ∃ k ∈ allKeywords, k.read? cs = some found := by
  rw [keywordBy?_eq_some_iff (by rw [flatten_tables]; exact fun _ hk => hk), flatten_tables]

/-- The lexer reads a word by its tables. -/
lemma word_eq_wordBy (cs : List Char) : word cs = wordBy tables cs := by
  have hfound {k : Keyword} {rest : List Char} (hk : k ∈ allKeywords)
      (hbehind : behindKeyword? k.fold k.spelling.toList cs = some rest) :
      (k.token, rest) = wordBy tables cs := by
    have hread : k.read? cs = some (k.token, rest) := by rw [Keyword.read?_eq hk, hbehind]; rfl
    rw [wordBy, keywordBy?_tables_eq_some_iff.2 ⟨k, hk, hread⟩]
  rcases hword : word cs with ⟨u, rest⟩
  rcases word_cases hword with ⟨entry, hentry, rfl, hbehind⟩ |
    ⟨hkeyword, ⟨value, hvalue, rfl⟩ | ⟨hliteral, rfl, rfl⟩⟩
  · exact hfound (mem_allKeywords_iff.2 (.inl ⟨entry, hentry, rfl⟩)) hbehind
  · obtain ⟨entry, hentry, rfl, hbehind⟩ := wordLiteral?_eq_some hvalue
    exact hfound (mem_allKeywords_iff.2 (.inr ⟨entry, hentry, rfl⟩)) hbehind
  · -- no keyword is behind the front of the text, so none is found in the tables
    have hnone : keywordBy? tables cs = none := by
      by_contra hne
      obtain ⟨found, hby⟩ := Option.ne_none_iff_exists'.1 hne
      obtain ⟨k, hk, hread⟩ := keywordBy?_tables_eq_some_iff.1 hby
      rw [Keyword.read?_eq hk] at hread
      obtain ⟨rest, hbehind, -⟩ := Option.map_eq_some_iff.1 hread
      rcases mem_allKeywords_iff.1 hk with ⟨entry, hentry, rfl⟩ | ⟨entry, hentry, rfl⟩
      · have hnot : some rest = none := hbehind.symm.trans (hkeyword entry hentry)
        cases hnot
      · have hnot : some rest = none :=
          hbehind.symm.trans (wordLiteral?_eq_none_iff.1 hliteral entry hentry)
        cases hnot
    rw [wordBy, hnone]

/-! ### The longest match -/

/-- How many characters the token of a word takes. -/
def taken (cs : List Char) : Nat := cs.length - (word cs).2.length

lemma length_takeWhile_isWordChar_le (cs : List Char) :
    (cs.takeWhile isWordChar).length ≤ (cs.takeWhile isNameChar).length := by
  have hname : ∀ c ∈ cs.takeWhile isWordChar, isNameChar c = true := fun c hc =>
    isNameChar_of_isWordChar (List.mem_takeWhile_imp hc)
  conv_rhs => rw [← @List.takeWhile_append_dropWhile _ isWordChar cs]
  rw [List.takeWhile_append_of_pos hname, List.length_append]
  omega

lemma length_takeWhile_add_length_dropWhile (p : Char → Bool) (cs : List Char) :
    (cs.takeWhile p).length + (cs.dropWhile p).length = cs.length := by
  rw [← List.length_append, List.takeWhile_append_dropWhile]

/-- A keyword takes the whole word, and a name takes the whole word or more. -/
lemma taken_eq (cs : List Char) :
    taken cs = if (keywordBy? tables cs).isSome then (cs.takeWhile isWordChar).length
      else (cs.takeWhile isNameChar).length := by
  rw [taken, word_eq_wordBy, wordBy]
  cases hby : keywordBy? tables cs with
  | some found =>
    obtain ⟨k, hk, hread⟩ := keywordBy?_tables_eq_some_iff.1 hby
    obtain ⟨hmatch, rfl⟩ := Keyword.read?_eq_some_iff.1 hread
    have hlength := ((Keyword.matchesAt_iff hk).1 hmatch).2
    have hwhole := length_takeWhile_add_length_dropWhile isWordChar cs
    dsimp only
    rw [(spelling_of_mem hk).2, List.length_drop, hlength, Option.isSome_some, if_pos rfl]
    omega
  | none =>
    have hwhole := length_takeWhile_add_length_dropWhile isNameChar cs
    dsimp only
    rw [Option.isSome_none, if_neg Bool.false_ne_true]
    omega

/-- No keyword that stands at the front takes more than the token of the word, and only the token itself takes
as much. -/
lemma taken_of_standsAt {k : Keyword} (hk : k ∈ allKeywords) {cs : List Char} (h : k.StandsAt cs) :
    k.spelling.length ≤ taken cs ∧ (k.spelling.length = taken cs → (word cs).1 = k.token) := by
  have hle := (h.spelling_eq hk).1
  have hname := length_takeWhile_isWordChar_le cs
  have htaken := taken_eq cs
  refine ⟨by split at htaken <;> omega, fun heq => ?_⟩
  have hmatch : k.MatchesAt cs := (Keyword.matchesAt_iff hk).2 ⟨h, by split at htaken <;> omega⟩
  have hby : keywordBy? tables cs = some (k.token, cs.drop k.spelling.utf8ByteSize) :=
    keywordBy?_tables_eq_some_iff.2 ⟨k, hk, Keyword.read?_eq_some_iff.2 ⟨hmatch, rfl⟩⟩
  rw [word_eq_wordBy, wordBy, hby]

/-- **Keywords are unambiguous.**  At any place of a text at most one keyword matches.  Hence a word is read as
the same token, and the same text is left behind it, in whatever order the three tables are tried and in
whatever order the keywords stand in them; and of all keywords that stand there, whether a word goes on behind
them or not, none is longer than the token, and one that is as long is the token. -/
theorem keywords_unambiguous (cs : List Char) :
    (∀ k ∈ allKeywords, ∀ k' ∈ allKeywords, k.MatchesAt cs → k'.MatchesAt cs → k = k') ∧
      (∀ {operators connectives literals : List Keyword} {order : List (List Keyword)},
        operators.Perm operatorKeywords → connectives.Perm connectiveKeywords →
        literals.Perm literalKeywords → order.Perm [operators, connectives, literals] →
        wordBy order cs = word cs) ∧
      ∀ k ∈ allKeywords, k.StandsAt cs →
        k.spelling.length ≤ taken cs ∧ (k.spelling.length = taken cs → (word cs).1 = k.token) := by
  refine ⟨fun k hk k' hk' h h' => h.unique h' hk hk', ?_, fun k hk => taken_of_standsAt hk⟩
  intro operators connectives literals order hoperators hconnectives hliterals horder
  rw [word_eq_wordBy]
  refine wordBy_congr (by rw [flatten_tables]; exact fun _ hk => hk) fun k => ?_
  rw [horder.flatten.mem_iff]
  simp only [tables, List.flatten_cons, List.flatten_nil, List.mem_append, hoperators.mem_iff,
    hconnectives.mem_iff, hliterals.mem_iff]

/-- In front of `notIn.x` both `not` and `notIn` stand, and the longer one is read, also by tables that are
turned around and hold the shorter keywords first. -/
theorem keywords_unambiguous_notIn :
    let cs := "notIn.x".toList
    wordBy [literalKeywords, connectiveKeywords.reverse, operatorKeywords.reverse] cs = word cs ∧
      word cs = (.operator .notIn, ".x".toList) ∧
      Keyword.StandsAt ⟨"not", false, .not⟩ cs ∧ "not".length ≤ taken cs := by
  have hstands : Keyword.StandsAt ⟨"not", false, .not⟩ "notIn.x".toList := by decide
  obtain ⟨-, horder, hlongest⟩ := keywords_unambiguous "notIn.x".toList
  refine ⟨?_, by decide +kernel, hstands, (hlongest _ (by decide) hstands).1⟩
  refine horder (List.reverse_perm _) (List.reverse_perm _) (List.Perm.refl _) ?_
  exact (List.reverse_perm [operatorKeywords.reverse, connectiveKeywords.reverse, literalKeywords])

end FilterLang.Lexer
