import FilterLang.Proofs.Number.Nearest

/-!
# Rounding keeps the order

A larger quotient is not rounded to a smaller number (`rounded_mono`), and a quotient is too large for the
format exactly from the middle between the largest number of the format and the power of two above it on
(`nearest?_eq_none_iff`).

Both come from one fact about rounded division: which quotients are rounded to at least a given number.
-/

namespace FilterLang

/-- A quotient is rounded to more than `n` if it is nearer to what follows `n`, or if it is halfway and
`n` is odd. -/
lemma lt_divRoundEven_iff {num den : Nat} (hden : 0 < den) (n : Nat) :
    n < divRoundEven num den ↔
      (2 * n + 1) * den < 2 * num ∨ (2 * n + 1) * den = 2 * num ∧ n % 2 = 1 := by
  have hnum := Nat.div_add_mod num den
  have hmod := Nat.mod_lt num hden
  simp only [divRoundEven]
  generalize num / den = q at *
  generalize num % den = r at *
  subst hnum
  rcases Nat.lt_trichotomy q n with hlt | rfl | hgt
  · have hle : den * (q + 1) ≤ den * n := Nat.mul_le_mul_left den hlt
    have hmul : (2 * n + 1) * den = 2 * (den * n) + den := by ring
    rw [Nat.mul_add, Nat.mul_one] at hle
    rw [hmul]
    split <;> omega
  · have hmul : (2 * q + 1) * den = 2 * (den * q) + den := by ring
    rw [hmul]
    split <;> omega
  · have hle : den * (n + 1) ≤ den * q := Nat.mul_le_mul_left den hgt
    have hmul : (2 * n + 1) * den = 2 * (den * n) + den := by ring
    rw [Nat.mul_add, Nat.mul_one] at hle
    rw [hmul]
    split <;> omega

/-- Rounded division keeps the order of quotients. -/
lemma divRoundEven_mono {a b c d : Nat} (hb : 0 < b) (hd : 0 < d) (h : a * d ≤ c * b) :
    divRoundEven a b ≤ divRoundEven c d := by
  by_contra hlt
  have hmore := (lt_divRoundEven_iff hb (divRoundEven c d)).1 (not_le.1 hlt)
  have hnot := mt (lt_divRoundEven_iff hd (divRoundEven c d)).2 (lt_irrefl _)
  generalize 2 * divRoundEven c d + 1 = k at hmore hnot
  -- From `k * b ≤ 2 * a` and `2 * c ≤ k * d` the two quotients are equal, and so are the ties.
  have hle : k * b ≤ 2 * a := hmore.elim le_of_lt fun h => h.1.le
  have hge : 2 * c ≤ k * d := by
    by_contra hgt
    exact hnot (.inl (not_le.1 hgt))
  have heq : k * d = 2 * c := by nlinarith
  have heq' : k * b = 2 * a := by nlinarith
  exact hnot (.inr ⟨heq, (hmore.resolve_left heq'.not_lt).2⟩)

namespace Magnitude

variable {num den : Nat}

lemma two_pow_le_iff {a b : Nat} : Nat.pow 2 a ≤ Nat.pow 2 b ↔ a ≤ b :=
  Nat.pow_le_pow_iff_right (by decide)

/-- The step between the largest numbers of the format, as a multiple of the smallest positive number. -/
def topStep : Nat := Nat.pow 2 2045

lemma topStep_pos : 0 < topStep := two_pow_pos 2045

lemma topStep_le_iff {shift : Nat} : topStep ≤ Nat.pow 2 shift ↔ 2045 ≤ shift :=
  @two_pow_le_iff 2045 shift

lemma le_topStep_iff {shift : Nat} : Nat.pow 2 shift ≤ topStep ↔ shift ≤ 2045 :=
  @two_pow_le_iff shift 2045

attribute [irreducible] topStep

/-- From the next shift on, steps are at least twice as large. -/
lemma topStep_mul_two_le {shift : Nat} (h : 2045 < shift) : topStep * 2 ≤ Nat.pow 2 shift := by
  obtain ⟨k, rfl⟩ : ∃ k, shift = k + 1 := ⟨shift - 1, by omega⟩
  exact Nat.mul_le_mul_right 2 (topStep_le_iff.2 (Nat.le_of_lt_succ h))

/-- The power of two above all numbers of the format. -/
def ceiling : Nat := 2 ^ 53 * topStep

/-- A quotient rounded to the precision of the format, as a multiple of the smallest positive number, but
however large. -/
def rounded (num den : Nat) : Nat := roundedMantissa num den * Nat.pow 2 (shiftOf num den)

lemma units_eq_rounded {x : Magnitude} (h : nearest? num den = some x) : x.units = rounded num den :=
  units_of_nearest? h

lemma lt_two_pow_shiftOf (hden : 0 < den) :
    num * resolution < 2 ^ 53 * (den * Nat.pow 2 (shiftOf num den)) := by
  have hlog : num * resolution / den < 2 ^ (53 + shiftOf num den) := by
    refine lt_of_lt_of_le Nat.lt_log2_self (Nat.pow_le_pow_right (by decide) ?_)
    simp only [shiftOf]
    omega
  rw [Nat.div_lt_iff_lt_mul hden, pow_add] at hlog
  simp only [Nat.pow_eq]
  linarith

lemma two_pow_shiftOf_le (hden : 0 < den) (hshift : shiftOf num den ≠ 0) :
    2 ^ 52 * (den * Nat.pow 2 (shiftOf num den)) ≤ num * resolution := by
  have hlog : 52 + shiftOf num den ≤ (num * resolution / den).log2 := by
    simp only [shiftOf] at *
    omega
  have hne : num * resolution / den ≠ 0 := by
    intro hzero
    simp [shiftOf, hzero] at hshift
  rw [Nat.le_log2 hne, Nat.le_div_iff_mul_le hden, pow_add] at hlog
  simp only [Nat.pow_eq]
  linarith

lemma roundedMantissa_le (hden : 0 < den) : roundedMantissa num den ≤ 2 ^ 53 := by
  have hpos : 0 < den * Nat.pow 2 (shiftOf num den) := Nat.mul_pos hden (two_pow_pos _)
  calc roundedMantissa num den
      ≤ divRoundEven (2 ^ 53 * (den * Nat.pow 2 (shiftOf num den)))
          (den * Nat.pow 2 (shiftOf num den)) :=
        divRoundEven_mono hpos hpos (Nat.mul_le_mul_right _ (lt_two_pow_shiftOf hden).le)
    _ = 2 ^ 53 := divRoundEven_mul_self hpos _

lemma le_roundedMantissa (hden : 0 < den) (hshift : shiftOf num den ≠ 0) :
    2 ^ 52 ≤ roundedMantissa num den := by
  have hpos : 0 < den * Nat.pow 2 (shiftOf num den) := Nat.mul_pos hden (two_pow_pos _)
  calc 2 ^ 52
      = divRoundEven (2 ^ 52 * (den * Nat.pow 2 (shiftOf num den)))
          (den * Nat.pow 2 (shiftOf num den)) := (divRoundEven_mul_self hpos _).symm
    _ ≤ roundedMantissa num den :=
        divRoundEven_mono hpos hpos (Nat.mul_le_mul_right _ (two_pow_shiftOf_le hden hshift))

lemma shiftOf_mono {num' den' : Nat} (hden : 0 < den) (hden' : 0 < den')
    (h : num * den' ≤ num' * den) : shiftOf num den ≤ shiftOf num' den' := by
  have hquotient : num * resolution / den ≤ num' * resolution / den' := by
    rw [Nat.le_div_iff_mul_le hden']
    have hle := Nat.div_mul_le_self (num * resolution) den
    have hscaled := Nat.mul_le_mul_right resolution h
    refine Nat.le_of_mul_le_mul_right ?_ hden
    calc num * resolution / den * den' * den
        = num * resolution / den * den * den' := by ring
      _ ≤ num * resolution * den' := Nat.mul_le_mul_right _ hle
      _ = num * den' * resolution := by ring
      _ ≤ num' * den * resolution := hscaled
      _ = num' * resolution * den := by ring
  have hlog := Nat.log_mono_right (b := 2) hquotient
  simp only [shiftOf, Nat.log2_eq_log_two]
  omega

/-- A larger quotient is not rounded to a smaller number. -/
lemma rounded_mono {num' den' : Nat} (hden : 0 < den) (hden' : 0 < den')
    (h : num * den' ≤ num' * den) : rounded num den ≤ rounded num' den' := by
  rcases (shiftOf_mono hden hden' h).lt_or_eq with hlt | heq
  · -- The smaller shift cannot make up for the larger one, even with all bits set.
    calc rounded num den
        ≤ 2 ^ 53 * Nat.pow 2 (shiftOf num den) :=
          Nat.mul_le_mul_right _ (roundedMantissa_le hden)
      _ = 2 ^ 52 * Nat.pow 2 (shiftOf num den + 1) := by simp only [Nat.pow_eq]; ring
      _ ≤ 2 ^ 52 * Nat.pow 2 (shiftOf num' den') :=
          Nat.mul_le_mul_left _ (Nat.pow_le_pow_right (by decide) hlt)
      _ ≤ rounded num' den' := Nat.mul_le_mul_right _ (le_roundedMantissa hden' (by omega))
  · simp only [rounded, roundedMantissa, heq]
    refine Nat.mul_le_mul_right _ (divRoundEven_mono (Nat.mul_pos hden (two_pow_pos _))
      (Nat.mul_pos hden' (two_pow_pos _)) ?_)
    calc num * resolution * (den' * Nat.pow 2 (shiftOf num' den'))
        = num * den' * (resolution * Nat.pow 2 (shiftOf num' den')) := by ring
      _ ≤ num' * den * (resolution * Nat.pow 2 (shiftOf num' den')) := Nat.mul_le_mul_right _ h
      _ = num' * resolution * (den * Nat.pow 2 (shiftOf num' den')) := by ring

/-- The same of magnitudes. -/
lemma units_le_units {num' den' : Nat} {x y : Magnitude} (hden : 0 < den) (hden' : 0 < den')
    (hx : nearest? num den = some x) (hy : nearest? num' den' = some y)
    (h : num * den' ≤ num' * den) : x.units ≤ y.units := by
  rw [units_eq_rounded hx, units_eq_rounded hy]
  exact rounded_mono hden hden' h

lemma ofParts?_eq_none_iff {mantissa shift : Nat} :
    ofParts? mantissa shift = none ↔ ¬ Canonical mantissa shift := by
  unfold ofParts?
  split <;> simp_all

/-- There is no nearest number exactly if the rounded quotient needs a larger shift than there is. -/
lemma nearest?_eq_none_iff_rounded (hden : 0 < den) :
    nearest? num den = none ↔ ceiling ≤ rounded num den := by
  have hle : roundedMantissa num den ≤ 2 ^ 53 := roundedMantissa_le hden
  have hfull : shiftOf num den = 0 ∨ 2 ^ 52 ≤ roundedMantissa num den := by
    by_cases hshift : shiftOf num den = 0
    · exact .inl hshift
    · exact .inr (le_roundedMantissa hden hshift)
  rw [nearest?_eq, rounded, ceiling]
  generalize roundedMantissa num den = mantissa at *
  generalize shiftOf num den = shift at *
  split
  · rename_i hcarry
    have hbeyond : 2 ^ 53 * topStep ≤ mantissa * Nat.pow 2 shift ↔ 2045 ≤ shift := by
      rw [hcarry]
      exact (Nat.mul_le_mul_left_iff (by decide)).trans topStep_le_iff
    have hlt : Nat.pow 2 52 < Nat.pow 2 53 := by decide
    rw [ofParts?_eq_none_iff, hbeyond]
    simp only [Canonical, hlt, le_refl, or_true, and_true, true_and]
    omega
  · rename_i hcarry
    have hlt : mantissa < Nat.pow 2 53 := lt_of_le_of_ne hle hcarry
    replace hfull : shift = 0 ∨ Nat.pow 2 52 ≤ mantissa := hfull
    rw [ofParts?_eq_none_iff, Canonical]
    simp only [hlt, hfull, and_true, true_and, not_le]
    constructor
    · intro hshift
      have hmantissa := hfull.resolve_left (by omega)
      calc 2 ^ 53 * topStep = 2 ^ 52 * (topStep * 2) := by ring
        _ ≤ mantissa * Nat.pow 2 shift := Nat.mul_le_mul hmantissa (topStep_mul_two_le hshift)
    · intro hbeyond
      by_contra hshift
      refine absurd hbeyond (not_le.2 ?_)
      exact Nat.mul_lt_mul_of_lt_of_le hlt (le_topStep_iff.2 (not_lt.1 hshift)) topStep_pos

/-- The middle between the largest number of the format, `(2 ^ 53 - 1) * 2 ^ 971`, and `2 ^ 1024`. -/
def overflow : Nat := (2 ^ 54 - 1) * Nat.pow 2 970

lemma overflow_mul_resolution : 2 * (overflow * resolution) = (2 ^ 54 - 1) * topStep := by
  decide +kernel

/-- Just below `2 ^ 1024` only a carry can lead out of the format. -/
lemma carry_of_ceiling_le (hden : 0 < den) (hnum : num < overflow * den)
    (hbeyond : ceiling ≤ rounded num den) :
    Nat.pow 2 (shiftOf num den) = topStep ∧ 2 ^ 53 ≤ roundedMantissa num den := by
  have hscaled : 2 * (num * resolution) < (2 ^ 54 - 1) * (den * topStep) := by
    calc 2 * (num * resolution) < 2 * (overflow * den * resolution) :=
          Nat.mul_lt_mul_of_pos_left (Nat.mul_lt_mul_of_pos_right hnum resolution_pos) two_pos
      _ = 2 * (overflow * resolution) * den := by ring
      _ = (2 ^ 54 - 1) * (den * topStep) := by
          rw [overflow_mul_resolution]
          ring
  have hupper : Nat.pow 2 (shiftOf num den) ≤ topStep := by
    rw [le_topStep_iff]
    by_contra hshift
    have hlow := two_pow_shiftOf_le hden (show shiftOf num den ≠ 0 by omega)
    have hstep := Nat.mul_le_mul_left den (topStep_mul_two_le (not_le.1 hshift))
    rw [← Nat.mul_assoc] at hstep
    omega
  have hlower : topStep ≤ Nat.pow 2 (shiftOf num den) := by
    refine Nat.le_of_mul_le_mul_left ?_ (show 0 < 2 ^ 53 by decide)
    exact hbeyond.trans (Nat.mul_le_mul_right _ (roundedMantissa_le hden))
  have hshift := le_antisymm hupper hlower
  refine ⟨hshift, Nat.le_of_mul_le_mul_right ?_ topStep_pos⟩
  rwa [rounded, hshift] at hbeyond

/-- **Too large for the format.**  A quotient is too large exactly from `overflow` on. -/
lemma nearest?_eq_none_iff (hden : 0 < den) : nearest? num den = none ↔ overflow * den ≤ num := by
  rw [nearest?_eq_none_iff_rounded hden]
  constructor
  · intro hbeyond
    by_contra hlt
    obtain ⟨hshift, hmantissa⟩ := carry_of_ceiling_le hden (not_le.1 hlt) hbeyond
    -- A carry takes half a step, and that is what `overflow` is.
    have hpos : 0 < den * topStep := Nat.mul_pos hden topStep_pos
    rw [roundedMantissa, hshift] at hmantissa
    have hhalf : (2 ^ 54 - 1) * (den * topStep) ≤ 2 * (num * resolution) :=
      ((lt_divRoundEven_iff hpos (2 ^ 53 - 1)).1 hmantissa).elim le_of_lt fun h => h.1.le
    have htwice : 2 * (overflow * den * resolution) ≤ 2 * (num * resolution) := by
      calc 2 * (overflow * den * resolution) = 2 * (overflow * resolution) * den := by ring
        _ = (2 ^ 54 - 1) * (den * topStep) := by
            rw [overflow_mul_resolution]
            ring
        _ ≤ 2 * (num * resolution) := hhalf
    exact hlt (Nat.le_of_mul_le_mul_right (Nat.le_of_mul_le_mul_left htwice two_pos) resolution_pos)
  · intro hle
    have hshift : Nat.pow 2 (shiftOf overflow 1) = topStep := by decide +kernel
    have hmantissa : roundedMantissa overflow 1 = 2 ^ 53 := by decide +kernel
    have hleast : rounded overflow 1 = ceiling := by
      rw [rounded, hshift, hmantissa, ceiling]
    rw [← hleast]
    exact rounded_mono one_pos hden (by rwa [Nat.mul_one])

end Magnitude

end FilterLang
