import FilterLang.Proofs.Filter.Inverse
import FilterLang.Proofs.Number.Order

/-!
# Numerals that are too large

A number in a query is read as a whole number if it fits into one and else as the nearest number of the
64-bit format; a number beyond the range of the format is read as an infinity.  This file says which
numerals those are (`Lexer.isFinite_numberValue`), and that a literal of an accepted query is infinite for
no other reason (`Filter.exists_numeral`).
-/

namespace FilterLang

/-- The literals of a filter, from left to right. -/
def Filter.literals (t : Filter) : List Scalar := t.comparisons.flatMap fun c => c.2.2.literals

namespace Lexer

/-! ### The value of a numeral -/

/-- The digits of a run behind its point. -/
def fraction (run : List Char) : List Char := (run.dropWhile (· != '.')).tail

/-- All digits of a run. -/
def allDigits (run : List Char) : List Char := run.takeWhile (· != '.') ++ fraction run

/-- The number that a run names is too large for the format, which is so from `Magnitude.overflow` on. -/
def Overflows (run : List Char) : Prop :=
  Magnitude.overflow * Nat.pow 10 (fraction run).length ≤ natOfDigits (allDigits run)

lemma isFinite_signed_eq_false_iff {negative : Bool} {magnitude : Option Magnitude} :
    (Scalar.float (.signed negative magnitude)).isFinite = false ↔ magnitude = none := by
  cases magnitude <;> simp [Scalar.isFinite, Binary64.signed, Binary64.isFinite]

lemma ofPlaces?_eq_none_iff {coefficient places : Nat} :
    Magnitude.ofPlaces? coefficient places = none ↔
      Magnitude.overflow * Nat.pow 10 places ≤ coefficient :=
  Magnitude.nearest?_eq_none_iff (Nat.pow_pos (by decide))

/-- A whole number that fits into a word is far from being too large. -/
lemma lt_overflow_of_ofInt? {negative : Bool} {n : Nat} {literal : Scalar}
    (h : Scalar.ofInt? (if negative then -n else n) = some literal) :
    literal.isFinite = true ∧ n < Magnitude.overflow := by
  have hword : 2 ^ 63 < Magnitude.overflow := by decide +kernel
  have hmin : Int64.minValue.toInt = -2 ^ 63 := by decide
  have hmax : Int64.maxValue.toInt = 2 ^ 63 - 1 := by decide
  obtain ⟨m, hm⟩ : ∃ m, m = (if negative then -n else n : Int) := ⟨_, rfl⟩
  have habs : m = n ∨ m = -n := by cases negative <;> simp [hm]
  rw [← hm, Scalar.ofInt?, hmin, hmax] at h
  split at h
  · obtain rfl := Option.some.inj h
    exact ⟨rfl, lt_of_le_of_lt (by omega) hword⟩
  · cases h

/-- **Numerals that are not finite.**  They are those that are too large for the format. -/
lemma isFinite_numberValue {negative : Bool} {run : List Char} :
    (numberValue negative run).isFinite = false ↔ Overflows run := by
  unfold numberValue
  split
  · rw [isFinite_signed_eq_false_iff, ofPlaces?_eq_none_iff, Overflows, allDigits, fraction]
  · rename_i hpoint
    have hplain : ∀ c ∈ run, (c != '.') = true := by
      intro c hc
      rw [bne_iff_ne]
      rintro rfl
      exact hpoint (by simpa using hc)
    have hfraction : fraction run = [] := by
      rw [fraction, List.dropWhile_eq_nil_iff.2 hplain, List.tail_nil]
    have hdigits : allDigits run = run := by
      rw [allDigits, hfraction, List.append_nil, List.takeWhile_eq_self_iff.2 hplain]
    have hoverflows : Overflows run ↔ Magnitude.overflow * Nat.pow 10 0 ≤ natOfDigits run := by
      rw [Overflows, hfraction, hdigits, List.length_nil]
    rw [hoverflows]
    dsimp only
    split
    · rename_i literal hliteral
      obtain ⟨hfinite, hlt⟩ := lt_overflow_of_ofInt? hliteral
      have hle : ¬ Magnitude.overflow * Nat.pow 10 0 ≤ natOfDigits run := by
        rw [show Nat.pow 10 0 = 1 from rfl, Nat.mul_one]
        omega
      rw [hfinite]
      exact iff_of_false (by simp) hle
    · rw [isFinite_signed_eq_false_iff, ofPlaces?_eq_none_iff]

/-! ### Where literals come from -/

lemma number_eq_ok {cs rest : List Char} {value : Scalar} (h : number cs = .ok (value, rest)) :
    ∃ negative run, (signText negative ++ run) <+: cs ∧ value = numberValue negative run := by
  obtain ⟨negative, body, rfl, -, -, -, rfl, rfl⟩ := number_cases h
  refine ⟨negative, body.takeWhile isNumberChar, ⟨body.dropWhile isNumberChar, ?_⟩, rfl⟩
  cases negative <;> simp [signText, List.takeWhile_append_dropWhile]

lemma isFinite_of_string {quote : Char} {cs rest : List Char} {value : Scalar}
    (h : string quote cs = .ok (value, rest)) : value.isFinite = true := by
  unfold string at h
  split at h
  · obtain ⟨rfl, -⟩ := Prod.mk.inj (Except.ok.inj h)
    rfl
  · cases h

lemma isFinite_of_wordLiteral? {cs rest : List Char} {value : Scalar}
    (h : wordLiteral? cs = some (value, rest)) : value.isFinite = true := by
  obtain ⟨entry, hmem, rfl, -⟩ := wordLiteral?_eq_some h
  simp only [wordLiterals, List.mem_cons, List.not_mem_nil, or_false] at hmem
  rcases hmem with rfl | rfl | rfl <;> rfl

/-- An element of a list that is not finite is a number. -/
lemma number_of_element {cs rest : List Char} {value : Scalar}
    (h : element cs = .ok (value, rest)) (hvalue : value.isFinite = false) :
    number cs = .ok (value, rest) := by
  simp only [element] at h
  split at h
  · cases h
  · split at h
    · rw [isFinite_of_string h] at hvalue
      cases hvalue
    · split at h
      · exact h
      · split at h
        · split at h
          · rename_i found hfound
            obtain rfl : found = (value, rest) := by simpa using h
            rw [isFinite_of_wordLiteral? hfound] at hvalue
            cases hvalue
          · cases h
        · cases h

/-- Every item of a list is read somewhere in its text. -/
lemma exists_element {start cs rest : List Char} {rounds : Nat} {items : List Scalar}
    (h : elements start rounds cs = .ok (items, rest)) {item : Scalar} (hitem : item ∈ items) :
    ∃ cs' rest', cs' <:+ cs ∧ element cs' = .ok (item, rest') := by
  induction rounds generalizing cs items rest with
  | zero => exact absurd h (by simp [elements])
  | succ rounds ih =>
    simp only [elements] at h
    split at h
    · cases h
    · rename_i first behind hfirst
      have hbehind : behind <:+ cs := (element_suffix hfirst).trans (List.tail_suffix cs)
      split at h
      · cases h
      · obtain ⟨rfl, -⟩ := Prod.mk.inj (Except.ok.inj h)
        rw [List.mem_singleton.1 hitem]
        exact ⟨cs, behind, List.suffix_rfl, hfirst⟩
      · rename_i more hsep
        split at h
        · cases h
        · rename_i items' rest' hitems
          obtain ⟨rfl, -⟩ := Prod.mk.inj (Except.ok.inj h)
          rcases List.mem_cons.1 hitem with rfl | hitem
          · exact ⟨cs, behind, List.suffix_rfl, hfirst⟩
          · obtain ⟨cs', rest', hsuffix, helement⟩ := ih hitems hitem
            exact ⟨cs', rest', hsuffix.trans ((separator_suffix hsep).trans hbehind), helement⟩

/-- A literal of a token that is not finite is a number in its text. -/
lemma exists_number_of_token {cs rest : List Char} {value : Value}
    (h : token cs = .ok (.literal value, rest)) {s : Scalar} (hs : s ∈ value.literals)
    (hfinite : s.isFinite = false) : ∃ cs' rest', cs' <:+ cs ∧ number cs' = .ok (s, rest') := by
  rcases token_cases h with ⟨-, hu, -⟩ | ⟨-, -, hu⟩ | ⟨quote, literal, hstring, hu⟩ |
    ⟨items, hlist, hu⟩ | ⟨literal, -, hnumber, hu⟩ | ⟨c, tail, -, -, -, hword⟩
  · cases hu
  · simp at hu
  · obtain rfl : value = .scalar literal := by simpa using hu
    rw [List.mem_singleton.1 hs, isFinite_of_string hstring] at hfinite
    cases hfinite
  · obtain rfl : value = .list items := by simpa using hu
    have hstart : Text.skipBlanks cs.tail <:+ cs :=
      (skipBlanks_suffix _).trans (List.tail_suffix cs)
    simp only [list] at hlist
    split at hlist
    · obtain ⟨rfl, -⟩ := Prod.mk.inj (Except.ok.inj hlist)
      cases hs
    · obtain ⟨cs', rest', hsuffix, helement⟩ := exists_element hlist hs
      exact ⟨cs', rest', hsuffix.trans hstart, number_of_element helement hfinite⟩
  · obtain rfl : value = .scalar literal := by simpa using hu
    rw [List.mem_singleton.1 hs]
    exact ⟨cs, rest, List.suffix_rfl, hnumber⟩
  · rcases word_cases hword with ⟨entry, hmem, hu, -⟩ | ⟨-, ⟨literal, hliteral, hu⟩ | ⟨-, hu, -⟩⟩
    · exact absurd hu ((keyword_ne hmem).2 _)
    · obtain rfl : value = .scalar literal := by simpa using hu
      rw [List.mem_singleton.1 hs, isFinite_of_wordLiteral? hliteral] at hfinite
      cases hfinite
    · cases hu

end Lexer

lemma Operator.Reads.literals {op : Operator} {literal value : Value} (h : op.Reads literal value) :
    value.literals = literal.literals := by
  cases h <;> rfl

/-- A literal of an accepted query that is not finite is written in it as a number. -/
lemma Filter.exists_numeral {maxNesting : Nat} {text : String} {t : Filter}
    (h : parseWithin maxNesting text = .ok t) {s : Scalar} (hs : s ∈ t.literals)
    (hfinite : s.isFinite = false) :
    ∃ negative run, (signText negative ++ run) <:+: text.toList ∧
      s = Lexer.numberValue negative run := by
  obtain ⟨phrase, rfl, -, hlexes⟩ := parseWithin_eq_ok_iff_lexes.mp h
  obtain ⟨c, hc, hs⟩ := List.mem_flatMap.1 hs
  obtain ⟨literal, -, hliteral, hreads⟩ := phrase.mentions hc
  obtain ⟨cs, rest, hsuffix, htoken⟩ := hlexes.exists_token (List.mem_append_left _ hliteral)
  rw [hreads.literals] at hs
  obtain ⟨cs', rest', hsuffix', hnumber⟩ := Lexer.exists_number_of_token htoken hs hfinite
  obtain ⟨negative, run, hrun, hvalue⟩ := Lexer.number_eq_ok hnumber
  exact ⟨negative, run, hrun.isInfix.trans (hsuffix'.trans hsuffix).isInfix, hvalue⟩

end FilterLang
