import FilterLang.Proofs.Number.Order
import FilterLang.Proofs.Number.Written
import FilterLang.Proofs.Text.Classes

/-!
# Numerals

A numeral is a sign, digits, and digits behind a point if there is one.  The reader of decimal texts takes much
more, exponents and the words for infinities among it, and it answers by the size of the exponent alone where
that decides the result.  On a numeral it never fails, and it gives the number that is nearest to the numeral
(`Numeral.ofText?_text`).
-/

namespace FilterLang

/-- Digits, with a sign in front of them and more digits behind a point; both may be missing. -/
structure Numeral where
  negative : Bool
  /-- The digits in front of the point. -/
  whole : List Char
  /-- The digits behind the point; without any of them there is no point. -/
  fraction : List Char
  whole_ne_nil : whole ≠ []
  isDigit : ∀ c ∈ whole ++ fraction, c.isDigit = true

/-! ### Exponents that decide the result -/

lemma divRoundEven_eq_zero {num den : Nat} (hden : 0 < den) (h : 2 * num ≤ den) :
    divRoundEven num den = 0 := by
  by_contra hne
  have hmore := (lt_divRoundEven_iff hden 0).1 (Nat.pos_of_ne_zero hne)
  omega

namespace Magnitude

/-- Less than half of the smallest positive number is rounded to zero. -/
lemma nearest?_eq_zero {num den : Nat} (hden : 0 < den) (h : 2 * (num * resolution) ≤ den) :
    nearest? num den = some zero := by
  have hshift : shiftOf num den = 0 := by
    have hquotient : num * resolution / den = 0 := Nat.div_eq_of_lt (by omega)
    rw [shiftOf, hquotient]
    rfl
  have hmantissa : roundedMantissa num den = 0 := by
    rw [roundedMantissa, hshift, show Nat.pow 2 0 = 1 from rfl, Nat.mul_one]
    exact divRoundEven_eq_zero hden h
  rw [nearest?_eq, hmantissa, hshift, if_neg (Nat.ne_of_lt (two_pow_pos 53))]
  rfl

lemma two_mul_le_ten_pow {coefficient shift places : Nat}
    (h : coefficient.log2 + shift + 2 ≤ 3 * places) :
    2 * (coefficient * Nat.pow 2 shift) ≤ Nat.pow 10 places := by
  simp only [Nat.pow_eq]
  calc 2 * (coefficient * 2 ^ shift)
      ≤ 2 * (2 ^ (coefficient.log2 + 1) * 2 ^ shift) :=
        Nat.mul_le_mul_left _ (Nat.mul_le_mul_right _ Nat.lt_log2_self.le)
    _ = 2 ^ (coefficient.log2 + shift + 2) := by ring
    _ ≤ 2 ^ (3 * places) := Nat.pow_le_pow_right (by decide) h
    _ = (2 ^ 3) ^ places := pow_mul 2 3 places
    _ ≤ 10 ^ places := Nat.pow_le_pow_left (by decide) _

/-- So many places behind the point leave nothing of the digits. -/
lemma ofPlaces?_eq_zero {coefficient places : Nat} (h : 400 + coefficient.log2 < places) :
    ofPlaces? coefficient places = some zero := by
  have hplaces : coefficient.log2 + 1074 + 2 ≤ 3 * places := by omega
  refine nearest?_eq_zero (Nat.pow_pos (by decide)) ?_
  rw [resolution]
  exact two_mul_le_ten_pow hplaces

/-- Digits with some of them behind the point. -/
lemma ofDecimal?_neg (coefficient places : Nat) :
    ofDecimal? coefficient (-(places : Int)) = ofPlaces? coefficient places := by
  unfold ofDecimal?
  split_ifs with hzero htiny hneg hlarge
  · rw [hzero]
    exact (nearest?_eq_zero (Nat.pow_pos (by decide)) (by simp)).symm
  · exact (ofPlaces?_eq_zero (by omega)).symm
  · rw [neg_neg, Int.toNat_natCast]
  · omega
  · obtain rfl : places = 0 := by omega
    exact congrArg (ofPlaces? · 0) (Nat.mul_one coefficient)

end Magnitude

/-! ### Numerals as texts -/

namespace Numeral

variable (n : Numeral)

/-- The numeral without its sign. -/
def run : List Char := n.whole ++ if n.fraction = [] then [] else '.' :: n.fraction

/-- The numeral as it is written. -/
def text : List Char := signText n.negative ++ n.run

/-- The whole number that a numeral without a point is. -/
def exact : Int := if n.negative then -(natOfDigits n.whole : Int) else natOfDigits n.whole

/-- The number of the 64-bit format that is nearest to the numeral. -/
def double : Binary64 :=
  .ofRatio n.negative (natOfDigits (n.whole ++ n.fraction)) (Nat.pow 10 n.fraction.length)

lemma run_cases :
    n.fraction = [] ∧ n.run = n.whole ∨ n.fraction ≠ [] ∧ n.run = n.whole ++ '.' :: n.fraction := by
  by_cases hpoint : n.fraction = []
  · exact .inl ⟨hpoint, by rw [run, if_pos hpoint, List.append_nil]⟩
  · exact .inr ⟨hpoint, by rw [run, if_neg hpoint]⟩

lemma point_notMem : '.' ∉ n.whole ∧ '.' ∉ n.fraction := by
  rw [← not_or, ← List.mem_append]
  exact fun hmem => absurd (n.isDigit '.' hmem) (by decide)

lemma exists_run_eq_cons : ∃ d ds, n.run = d :: ds ∧ d.isDigit = true := by
  obtain ⟨d, ds, hwhole⟩ := List.exists_cons_of_ne_nil n.whole_ne_nil
  refine ⟨d, ds ++ if n.fraction = [] then [] else '.' :: n.fraction, ?_, n.isDigit d (by simp [hwhole])⟩
  rw [run, hwhole, List.cons_append]

lemma toLower_of_isDigit {d : Char} (h : d.isDigit = true) : d.toLower = d := by
  have hupper : ¬ (d.val ≥ 'A'.val ∧ d.val ≤ 'Z'.val) := by
    intro hupper
    have hlow := UInt32.le_iff_toNat_le.1 hupper.1
    have hhigh := (Char.isDigit_iff_toNat.1 h).2
    exact absurd (hlow.trans hhigh) (by decide)
  exact dif_neg hupper

/-- A numeral is no word, because it starts with a digit. -/
lemma sameWord_run {word : String} (h : Lexer.startsDigit word.toList = false) :
    Binary64.sameWord n.run word = false := by
  obtain ⟨d, ds, hrun, hd⟩ := n.exists_run_eq_cons
  rw [Binary64.sameWord, hrun, List.map_cons, toLower_of_isDigit hd, beq_eq_false_iff_ne]
  intro hword
  rw [← hword, Lexer.startsDigit, hd] at h
  cases h

lemma decimal?_run : Binary64.decimal? n.run =
    some (Magnitude.ofPlaces? (natOfDigits (n.whole ++ n.fraction)) n.fraction.length) := by
  have hwhole : ∀ c ∈ n.whole, c.isDigit = true := fun c hc => n.isDigit c (by simp [hc])
  have hfraction : ∀ c ∈ n.fraction, c.isDigit = true := fun c hc => n.isDigit c (by simp [hc])
  have hnil : n.whole.isEmpty = false := by simp [n.whole_ne_nil]
  rw [← Magnitude.ofDecimal?_neg, Binary64.decimal?]
  rcases n.run_cases with ⟨hpoint, hrun⟩ | ⟨-, hrun⟩
  · have hspan := @Lexer.span_append Char.isDigit _ [] hwhole (by simp)
    rw [List.append_nil] at hspan
    rw [hrun, hspan]
    dsimp only
    rw [hnil, hpoint]
    rfl
  · have hspan := @Lexer.span_append Char.isDigit _ [] hfraction (by simp)
    rw [List.append_nil] at hspan
    rw [hrun, Lexer.span_append hwhole (by simp)]
    simp only [hspan, hnil]
    rfl

/-- Behind its sign a text that starts with a digit is read as it is. -/
lemma ofText?_signText (negative : Bool) {d : Char} {ds : List Char} (hd : d.isDigit = true) :
    Binary64.ofText? (String.ofList (signText negative ++ d :: ds)) =
      if Binary64.sameWord (d :: ds) "nan" then some .nan
      else if Binary64.sameWord (d :: ds) "inf" || Binary64.sameWord (d :: ds) "infinity" then
        some (.infinite negative)
      else (Binary64.decimal? (d :: ds)).map (.signed negative) := by
  unfold Binary64.ofText?
  rw [String.toList_ofList]
  cases negative with
  | true => rfl
  | false =>
    have hne {c : Char} {rest : List Char} (hc : c.isDigit = false) :
        signText false ++ d :: ds ≠ c :: rest := by
      intro heq
      obtain rfl : d = c := (List.cons.inj heq).1
      rw [hd] at hc
      cases hc
    split
    rename_i negative cs hsign
    split at hsign
    · rename_i heq
      exact absurd heq (hne rfl)
    · rename_i heq
      exact absurd heq (hne rfl)
    · obtain ⟨rfl, rfl⟩ := Prod.mk.inj hsign
      rfl

/-- Every numeral is a text that the reader of decimal texts takes, and it is read as the nearest number. -/
lemma ofText?_text : Binary64.ofText? (String.ofList n.text) = some n.double := by
  have hnan : Binary64.sameWord n.run "nan" = false := n.sameWord_run (by decide)
  have hinf : Binary64.sameWord n.run "inf" = false := n.sameWord_run (by decide)
  have hinfinity : Binary64.sameWord n.run "infinity" = false := n.sameWord_run (by decide)
  have hdecimal := n.decimal?_run
  obtain ⟨d, ds, hrun, hd⟩ := n.exists_run_eq_cons
  rw [hrun] at hnan hinf hinfinity hdecimal
  rw [text, hrun, ofText?_signText n.negative hd, hnan, hinf, hinfinity, hdecimal]
  rfl

end Numeral

end FilterLang
