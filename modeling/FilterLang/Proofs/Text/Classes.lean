import FilterLang.Query.Lexer
import Mathlib.Data.List.TakeDrop
import Mathlib.Tactic

/-!
# Classes of characters

The lexer tells tokens apart by their first character, and blanks separate them.  That works because
the classes do not overlap: no character of a word is blank, in any script, and none but a digit starts
a number.
-/

namespace FilterLang

namespace Text

/-- Two sets of characters are disjoint if no range of one meets a range of the other. -/
lemma Ranges.contains_eq_false_of_disjoint {ranges others : Ranges}
    (h : ∀ r ∈ ranges, ∀ r' ∈ others, r.2 < r'.1 ∨ r'.2 < r.1) {c : Char}
    (hc : others.contains c = true) : ranges.contains c = false := by
  simp only [Ranges.contains, List.any_eq_true, Bool.and_eq_true, decide_eq_true_eq] at hc
  obtain ⟨r', hr', hlow, hhigh⟩ := hc
  simp only [Ranges.contains, List.any_eq_false, Bool.and_eq_true, decide_eq_true_eq, not_and,
    not_le]
  intro r hr hle
  rcases h r hr r' hr' with hlt | hlt <;> omega

lemma blankRanges_disjoint_alphanumericRanges :
    ∀ r ∈ blankRanges, ∀ r' ∈ alphanumericRanges, r.2 < r'.1 ∨ r'.2 < r.1 := by
  decide +kernel

/-- The letters and digits of ASCII stand behind its blanks. -/
lemma le_toNat_of_isAlphanum {c : Char} (h : c.isAlphanum = true) : 48 ≤ c.toNat := by
  change ((decide (c.val ≥ 'A'.val ∧ c.val ≤ 'Z'.val) ||
    (decide (c.val ≥ 'a'.val) && decide (c.val ≤ 'z'.val))) ||
    (decide (c.val ≥ '0'.val) && decide (c.val ≤ '9'.val))) = true at h
  simp only [Bool.or_eq_true, Bool.and_eq_true, decide_eq_true_eq, ge_iff_le,
    UInt32.le_iff_toNat_le] at h
  change 48 ≤ c.val.toNat
  rcases h with (⟨hlow, -⟩ | ⟨hlow, -⟩) | ⟨hlow, -⟩
  · exact le_trans (by decide) hlow
  · exact le_trans (by decide) hlow
  · exact le_trans (by decide) hlow

/-- No letter and no digit of any script is blank. -/
lemma isBlank_of_isAlphanumeric {c : Char} (h : isAlphanumeric c = true) : isBlank c = false := by
  unfold isAlphanumeric at h
  unfold isBlank
  split at h
  · rename_i hascii
    rw [if_pos hascii]
    have hlow := le_toNat_of_isAlphanum h
    have hspace : c ≠ ' ' := by
      rintro rfl
      exact absurd h (by decide)
    simp only [beq_eq_false_iff_ne.mpr hspace, Bool.false_or, Bool.and_eq_false_iff,
      decide_eq_false_iff_not, not_le]
    omega
  · rename_i hascii
    rw [if_neg hascii]
    exact Ranges.contains_eq_false_of_disjoint blankRanges_disjoint_alphanumericRanges h

lemma skipBlanks_of_not_blank {c : Char} {cs : List Char} (h : isBlank c = false) :
    skipBlanks (c :: cs) = c :: cs := by
  simp [skipBlanks, h]

lemma skipBlanks_space (cs : List Char) : skipBlanks (' ' :: cs) = skipBlanks cs := rfl

end Text

namespace Lexer

lemma isBlank_of_isWordChar {c : Char} (h : isWordChar c = true) : Text.isBlank c = false := by
  simp only [isWordChar, Bool.or_eq_true, beq_iff_eq] at h
  rcases h with h | rfl
  · exact Text.isBlank_of_isAlphanumeric h
  · rfl

/-- A digit may stand in a word. -/
lemma isWordChar_of_isDigit {c : Char} (h : c.isDigit = true) : isWordChar c = true := by
  have hascii : c.toNat < 0x80 := lt_of_le_of_lt (Char.isDigit_iff_toNat.mp h).2 (by decide)
  simp [isWordChar, Text.isAlphanumeric, hascii, Char.isAlphanum, h]

lemma isNameChar_of_isWordChar {c : Char} (h : isWordChar c = true) : isNameChar c = true := by
  simp [isNameChar, h]

lemma isNumberChar_of_isDigit {c : Char} (h : c.isDigit = true) : isNumberChar c = true := by
  simp [isNumberChar, h]

/-! ### First characters -/

/-- The characters that a number starts with. -/
lemma head_of_startsNumber {c : Char} {cs : List Char} (h : startsNumber (c :: cs) = true) :
    c = '-' ∨ c.isDigit = true := by
  unfold startsNumber at h
  split at h
  · rename_i heq
    exact Or.inl (List.cons.inj heq).1
  · exact Or.inr h

/-- A character that no number starts with is not the first one of a number. -/
lemma ne_of_startsNumber {c d : Char} {cs : List Char} (h : startsNumber (c :: cs) = true)
    (hd : d ≠ '-' ∧ d.isDigit = false) : c ≠ d := by
  rintro rfl
  rcases head_of_startsNumber h with hc | hc
  · exact hd.1 hc
  · rw [hd.2] at hc
    exact Bool.false_ne_true hc

/-- A character of a word that is not a digit starts no number. -/
lemma startsNumber_of_isWordChar {c : Char} {cs : List Char} (hword : isWordChar c = true)
    (hdigit : c.isDigit = false) : startsNumber (c :: cs) = false := by
  by_contra h
  rcases head_of_startsNumber (Bool.of_not_eq_false h) with rfl | hc
  · exact absurd hword (by decide)
  · rw [hdigit] at hc
    exact Bool.false_ne_true hc

lemma ne_of_isWordChar {c d : Char} (h : isWordChar c = true) (hd : isWordChar d = false) :
    c ≠ d := by
  rintro rfl
  rw [hd] at h
  exact Bool.false_ne_true h

lemma token_number {cs : List Char} (h : startsNumber cs = true) :
    token cs = literalToken (number cs) := by
  cases cs with
  | nil => exact absurd h (by decide)
  | cons c cs =>
    have hne {d : Char} (hd : d ≠ '-' ∧ d.isDigit = false) : c ≠ d := ne_of_startsNumber h hd
    simp only [token, hne (d := '(') (by decide), hne (d := ')') (by decide),
      hne (d := ',') (by decide), hne (d := '"') (by decide), hne (d := '\'') (by decide),
      hne (d := '[') (by decide), h, or_false, if_false, if_true]

lemma token_word {c : Char} {cs : List Char} (hword : isWordChar c = true)
    (hdigit : c.isDigit = false) : token (c :: cs) = .ok (word (c :: cs)) := by
  have hne {d : Char} (hd : isWordChar d = false) : c ≠ d := ne_of_isWordChar hword hd
  simp only [token, hne (d := '(') (by decide), hne (d := ')') (by decide),
    hne (d := ',') (by decide), hne (d := '"') (by decide), hne (d := '\'') (by decide),
    hne (d := '[') (by decide), startsNumber_of_isWordChar hword hdigit, hword, or_false, if_false,
    if_true, Bool.false_eq_true]

lemma element_number {cs : List Char} (h : startsNumber cs = true) : element cs = number cs := by
  cases cs with
  | nil => exact absurd h (by decide)
  | cons c cs =>
    simp only [element, ne_of_startsNumber h (d := '"') (by decide),
      ne_of_startsNumber h (d := '\'') (by decide), h, or_false, if_false, if_true]

lemma element_word {c : Char} {cs : List Char} (hword : isWordChar c = true)
    (hdigit : c.isDigit = false) {found : Scalar × List Char}
    (h : wordLiteral? (c :: cs) = some found) : element (c :: cs) = .ok found := by
  have hne {d : Char} (hd : isWordChar d = false) : c ≠ d := ne_of_isWordChar hword hd
  simp only [element, hne (d := '"') (by decide), hne (d := '\'') (by decide),
    startsNumber_of_isWordChar hword hdigit, hword, h, or_false, if_false, if_true,
    Bool.false_eq_true]

/-! ### What may follow -/

/-- A text that a printed literal may be followed by: it is at its end, or goes on with a blank, a
closing bracket or a comma. -/
def Ends (rest : List Char) : Prop :=
  ∀ c ∈ rest.head?, c = ' ' ∨ c = ')' ∨ c = ',' ∨ c = ']'

lemma ends_cons {c : Char} (h : c = ' ' ∨ c = ')' ∨ c = ',' ∨ c = ']') (rest : List Char) :
    Ends (c :: rest) := by
  simpa [Ends] using h

/-- No word goes on there. -/
lemma Ends.startsWord {rest : List Char} (h : Ends rest) : startsWord rest = false := by
  cases rest with
  | nil => rfl
  | cons c rest => rcases h c rfl with rfl | rfl | rfl | rfl <;> rfl

/-- No number goes on there. -/
lemma Ends.isNumberChar {rest : List Char} (h : Ends rest) :
    ∀ c ∈ rest.head?, isNumberChar c = false := by
  intro c hc
  rcases h c hc with rfl | rfl | rfl | rfl <;> rfl

/-- A text that a printed filter may be followed by: it is at its end, or goes on with a blank or a
closing parenthesis. -/
def Closes (rest : List Char) : Prop := ∀ c ∈ rest.head?, c = ' ' ∨ c = ')'

lemma closes_nil : Closes [] := by
  simp [Closes]

lemma closes_cons {c : Char} (h : c = ' ' ∨ c = ')') (rest : List Char) : Closes (c :: rest) := by
  simpa [Closes] using h

lemma Closes.ends {rest : List Char} (h : Closes rest) : Ends rest := by
  intro c hc
  rcases h c hc with rfl | rfl <;> simp

/-- No name goes on there. -/
lemma Closes.isNameChar {rest : List Char} (h : Closes rest) :
    ∀ c ∈ rest.head?, isNameChar c = false := by
  intro c hc
  rcases h c hc with rfl | rfl <;> rfl

/-- A run of characters of one class, up to a character outside it. -/
lemma span_append {p : Char → Bool} {run rest : List Char} (hrun : ∀ c ∈ run, p c = true)
    (hrest : ∀ c ∈ rest.head?, p c = false) : (run ++ rest).span p = (run, rest) := by
  have hstop : rest.takeWhile p = [] ∧ rest.dropWhile p = rest := by
    cases rest with
    | nil => exact ⟨rfl, rfl⟩
    | cons c rest => simp [hrest c rfl]
  rw [List.span_eq_takeWhile_dropWhile, List.takeWhile_append_of_pos hrun,
    List.dropWhile_append_of_pos hrun, hstop.1, hstop.2, List.append_nil]

end Lexer

end FilterLang
