import FilterLang.Number.Binary64
import Mathlib.Tactic

/-!
# Rounding to the nearest number

What the rest of the library needs to know of rounding: it depends on the quotient and not on the way
the quotient is written (`nearest?_mul_right`), it leaves alone a magnitude of the format
(`nearest?_units`), and it takes a whole number to a whole number (`isWhole_of_nearest?`).
-/

namespace FilterLang

lemma divRoundEven_mul_right {k : Nat} (hk : 0 < k) (num den : Nat) :
    divRoundEven (num * k) (den * k) = divRoundEven num den := by
  have hquotient : num * k / (den * k) = num / den := Nat.mul_div_mul_right num den hk
  have htwice : 2 * (num * k % (den * k)) = 2 * (num % den) * k := by
    rw [Nat.mul_mod_mul_right, Nat.mul_assoc]
  have hlt : den * k < 2 * (num % den) * k ↔ den < 2 * (num % den) := Nat.mul_lt_mul_right hk
  have heq : den * k = 2 * (num % den) * k ↔ den = 2 * (num % den) := Nat.mul_left_inj hk.ne'
  simp only [divRoundEven, hquotient, htwice, hlt, heq]

/-- A quotient without a remainder is not rounded. -/
lemma divRoundEven_mul_self {den : Nat} (hden : 0 < den) (n : Nat) :
    divRoundEven (n * den) den = n := by
  simp only [divRoundEven, Nat.mul_mod_left, Nat.mul_div_cancel n hden, Nat.mul_zero]
  rw [if_neg]
  omega

namespace Magnitude

lemma two_pow_pos (e : Nat) : 0 < Nat.pow 2 e := Nat.pow_pos (by decide)

lemma two_pow_split {k e : Nat} (h : k ≤ e) : Nat.pow 2 e = Nat.pow 2 (e - k) * Nat.pow 2 k := by
  simp only [Nat.pow_eq]
  rw [← pow_add, Nat.sub_add_cancel h]

/-- How many times the smallest positive number goes into one. -/
def resolution : Nat := Nat.pow 2 1074

lemma resolution_pos : 0 < resolution := two_pow_pos _

lemma resolution_split {k : Nat} (h : k ≤ 1074) :
    resolution = Nat.pow 2 (1074 - k) * Nat.pow 2 k :=
  two_pow_split h

lemma resolution_dvd {k : Nat} (h : 1074 ≤ k) : resolution ∣ Nat.pow 2 k := Nat.pow_dvd_pow 2 h

/-- The least shift at which `num / den` has at most 53 bits. -/
def shiftOf (num den : Nat) : Nat := (num * resolution / den).log2 - 52

/-- `num / den` at that shift, rounded. -/
def roundedMantissa (num den : Nat) : Nat :=
  divRoundEven (num * resolution) (den * Nat.pow 2 (shiftOf num den))

lemma nearest?_eq (num den : Nat) :
    nearest? num den =
      if roundedMantissa num den = Nat.pow 2 53 then
        ofParts? (Nat.pow 2 52) (shiftOf num den + 1)
      else ofParts? (roundedMantissa num den) (shiftOf num den) := rfl

lemma ofParts?_eq_some {mantissa shift : Nat} {x : Magnitude}
    (h : ofParts? mantissa shift = some x) : x.mantissa = mantissa ∧ x.shift = shift := by
  unfold ofParts? at h
  split at h
  · obtain rfl := Option.some.inj h
    exact ⟨rfl, rfl⟩
  · exact absurd h (by simp)

/-- Only the quotient counts. -/
lemma nearest?_mul_right {k : Nat} (hk : 0 < k) (num den : Nat) :
    nearest? (num * k) (den * k) = nearest? num den := by
  have hshift : shiftOf (num * k) (den * k) = shiftOf num den := by
    simp only [shiftOf]
    rw [Nat.mul_right_comm, Nat.mul_div_mul_right _ _ hk]
  have hmantissa : roundedMantissa (num * k) (den * k) = roundedMantissa num den := by
    simp only [roundedMantissa, hshift]
    rw [Nat.mul_right_comm num, Nat.mul_right_comm den, divRoundEven_mul_right hk]
  rw [nearest?_eq, nearest?_eq, hshift, hmantissa]

/-- A carry out of the mantissa does not change the number. -/
lemma units_of_nearest? {num den : Nat} {x : Magnitude} (h : nearest? num den = some x) :
    x.units = roundedMantissa num den * Nat.pow 2 (shiftOf num den) := by
  rw [nearest?_eq] at h
  split at h
  · rename_i hcarry
    obtain ⟨hmantissa, hshift⟩ := ofParts?_eq_some h
    rw [units, hmantissa, hshift, hcarry, Nat.pow_eq, Nat.pow_eq, Nat.pow_eq, Nat.pow_eq, pow_succ]
    ring
  · obtain ⟨hmantissa, hshift⟩ := ofParts?_eq_some h
    rw [units, hmantissa, hshift]

/-- The shift of a magnitude is the one that rounding gives it. -/
lemma log2_units (x : Magnitude) : x.units.log2 - 52 = x.shift := by
  obtain ⟨mantissa, shift, hlt, -, hfull⟩ := x
  simp only [units, Nat.pow_eq] at *
  rcases hfull with rfl | hfull
  · by_cases hzero : mantissa = 0
    · simp [hzero]
    · have hlog : mantissa.log2 < 53 := (Nat.log2_lt hzero).mpr hlt
      simp only [pow_zero, mul_one]
      omega
  · have hpos : 0 < mantissa := lt_of_lt_of_le (two_pow_pos 52) hfull
    have hne : mantissa * 2 ^ shift ≠ 0 := by positivity
    have hlow : 52 + shift ≤ (mantissa * 2 ^ shift).log2 := by
      rw [Nat.le_log2 hne, pow_add]
      exact Nat.mul_le_mul_right _ hfull
    have hhigh : (mantissa * 2 ^ shift).log2 < 53 + shift := by
      rw [Nat.log2_lt hne, pow_add]
      exact Nat.mul_lt_mul_of_pos_right hlt (by positivity)
    omega

/-- A magnitude of the format is nearest to itself. -/
lemma nearest?_units (x : Magnitude) : nearest? x.units resolution = some x := by
  have hshift : shiftOf x.units resolution = x.shift := by
    rw [shiftOf, Nat.mul_div_cancel _ resolution_pos, log2_units]
  have hmantissa : roundedMantissa x.units resolution = x.mantissa := by
    rw [roundedMantissa, hshift, units, Nat.mul_assoc, Nat.mul_comm (Nat.pow 2 x.shift)]
    exact divRoundEven_mul_self (Nat.mul_pos resolution_pos (two_pow_pos _)) _
  rw [nearest?_eq, hmantissa, hshift, if_neg x.canonical.1.ne, ofParts?, dif_pos x.canonical]

lemma units_injective {x y : Magnitude} (h : x.units = y.units) : x = y :=
  Option.some.inj (by rw [← nearest?_units x, ← nearest?_units y, h])

lemma isWhole_iff {x : Magnitude} : x.isWhole = true ↔ resolution ∣ x.units :=
  beq_iff_eq.trans Nat.dvd_iff_mod_eq_zero.symm

/-- So few bits does a whole number have that nothing is rounded away. -/
lemma roundedMantissa_mul_of_shiftOf_le {n : Nat} (h : shiftOf n 1 ≤ 1074) :
    roundedMantissa n 1 * Nat.pow 2 (shiftOf n 1) = n * resolution := by
  have hexact : roundedMantissa n 1 = n * Nat.pow 2 (1074 - shiftOf n 1) := by
    rw [roundedMantissa, resolution_split h, ← Nat.mul_assoc, Nat.one_mul]
    exact divRoundEven_mul_self (two_pow_pos _) _
  rw [hexact, Nat.mul_assoc, ← resolution_split h]

/-- A whole number is rounded to a whole number. -/
lemma isWhole_of_nearest? {n : Nat} {x : Magnitude} (h : nearest? n 1 = some x) :
    x.isWhole = true := by
  rw [isWhole_iff, units_of_nearest? h]
  rcases Nat.le_total 1074 (shiftOf n 1) with hshift | hshift
  · exact (resolution_dvd hshift).mul_left _
  · rw [roundedMantissa_mul_of_shiftOf_le hshift]
    exact Nat.dvd_mul_left _ _

end Magnitude

end FilterLang
