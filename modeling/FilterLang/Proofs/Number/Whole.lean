import FilterLang.Proofs.Number.Order

/-!
# Whole numbers as doubles

A whole number of more than 53 bits need not be a number of the format, and then it is rounded to another
whole number.  `nearestWhole` says to which, without leaving the whole numbers.  Every number from `2 ^ 53`
up to `2 ^ 63` shares its double with another one (`exists_same_nearestWhole`), except for a few below
`2 ^ 54` (`eq_of_nearestWhole_eq`).
-/

namespace FilterLang

/-- How far apart the numbers of the format are around a whole number, at least one. -/
def wholeStep (n : Nat) : Nat := 2 ^ (n.log2 - 52)

/-- A whole number rounded to 53 bits. -/
def nearestWhole (n : Nat) : Nat := divRoundEven n (wholeStep n) * wholeStep n

variable {m n : Nat}

lemma nearestWhole_of_log2_le (h : n.log2 ≤ 52) : nearestWhole n = n := by
  have hstep : wholeStep n = 1 := by rw [wholeStep, Nat.sub_eq_zero_of_le h, pow_zero]
  rw [nearestWhole, hstep, Nat.mul_one]
  simpa using divRoundEven_mul_self one_pos n

/-- Up to 53 bits nothing is rounded away. -/
lemma nearestWhole_of_lt (h : n < 2 ^ 53) : nearestWhole n = n := by
  by_cases hn : n = 0
  · subst hn
    rfl
  · exact nearestWhole_of_log2_le (Nat.le_of_lt_succ ((Nat.log2_lt hn).2 h))

/-! ## Rounding to the format -/

lemma log2_mul_two_pow (hn : n ≠ 0) (e : Nat) : (n * 2 ^ e).log2 = n.log2 + e := by
  have hpos : 0 < 2 ^ e := Nat.two_pow_pos e
  rw [Nat.log2_eq_iff (Nat.mul_ne_zero hn hpos.ne')]
  constructor
  · rw [pow_add]
    exact Nat.mul_le_mul_right _ (Nat.log2_self_le hn)
  · rw [Nat.add_right_comm, pow_add]
    exact Nat.mul_lt_mul_of_pos_right Nat.lt_log2_self hpos

namespace Magnitude

lemma shiftOf_one (hn : n ≠ 0) : shiftOf n 1 = n.log2 + 1074 - 52 := by
  rw [shiftOf, Nat.div_one]
  exact congrArg (· - 52) (log2_mul_two_pow hn 1074)

/-- Rounding a whole number gives a whole number. -/
lemma rounded_one (n : Nat) : rounded n 1 = nearestWhole n * resolution := by
  rcases Nat.lt_or_ge 52 n.log2 with hlog | hlog
  · have hn : n ≠ 0 := by
      rintro rfl
      simp at hlog
    have hsplit : Nat.pow 2 (shiftOf n 1) = wholeStep n * resolution := by
      have hshift : shiftOf n 1 = n.log2 - 52 + 1074 := by
        have := shiftOf_one hn
        omega
      rw [hshift]
      exact Nat.pow_add 2 _ 1074
    rw [rounded, roundedMantissa, hsplit, Nat.one_mul, divRoundEven_mul_right resolution_pos,
      nearestWhole, Nat.mul_assoc]
  · have hshift : shiftOf n 1 ≤ 1074 := by
      by_cases hn : n = 0
      · subst hn
        simp [shiftOf]
      · have := shiftOf_one hn
        omega
    rw [rounded, roundedMantissa_mul_of_shiftOf_le hshift, nearestWhole_of_log2_le hlog]

/-- Below the middle above the largest number there is a nearest one. -/
lemma exists_nearest?_one (h : n < overflow) :
    ∃ x, nearest? n 1 = some x ∧ x.units = nearestWhole n * resolution := by
  have hne : nearest? n 1 ≠ none := by
    rw [Ne, nearest?_eq_none_iff one_pos, Nat.mul_one]
    exact Nat.not_le.2 h
  obtain ⟨x, hx⟩ := Option.ne_none_iff_exists'.1 hne
  exact ⟨x, hx, (units_eq_rounded hx).trans (rounded_one n)⟩

end Magnitude

lemma nearestWhole_mono (h : m ≤ n) : nearestWhole m ≤ nearestWhole n := by
  have hle := Magnitude.rounded_mono one_pos one_pos (Nat.mul_le_mul_right 1 h)
  rw [Magnitude.rounded_one, Magnitude.rounded_one] at hle
  exact Nat.le_of_mul_le_mul_right hle Magnitude.resolution_pos

/-- What has been rounded is not rounded again. -/
lemma nearestWhole_nearestWhole (h : n < Magnitude.overflow) :
    nearestWhole (nearestWhole n) = nearestWhole n := by
  obtain ⟨x, hx, hunits⟩ := Magnitude.exists_nearest?_one h
  have hagain : Magnitude.nearest? (nearestWhole n) 1 = some x := by
    rw [← Magnitude.nearest?_mul_right Magnitude.resolution_pos, Nat.one_mul, ← hunits,
      Magnitude.nearest?_units]
  have heq := Magnitude.units_eq_rounded hagain
  rw [Magnitude.rounded_one, hunits] at heq
  exact (Nat.eq_of_mul_eq_mul_right Magnitude.resolution_pos heq).symm

/-! ## Neighbours -/

/-- Between `2 ^ 53` and `2 ^ 54` the even numbers are left. -/
lemma nearestWhole_of_log2_eq (hlow : 2 ^ 53 ≤ n) (hhigh : n < 2 ^ 54) :
    nearestWhole n = divRoundEven n 2 * 2 := by
  have hlog : n.log2 = 53 := (Nat.log2_eq_iff (by omega)).2 ⟨hlow, hhigh⟩
  have hstep : wholeStep n = 2 := by rw [wholeStep, hlog]; rfl
  rw [nearestWhole, hstep]

lemma wholeStep_dvd_of_le (h : m ≤ n) : wholeStep m ∣ wholeStep n := by
  have hlog : m.log2 ≤ n.log2 := by
    rw [Nat.log2_eq_log_two, Nat.log2_eq_log_two]
    exact Nat.log_mono_right h
  exact pow_dvd_pow 2 (Nat.sub_le_sub_right hlog 52)

/-- A number in front of a multiple is rounded up, if it is nearer to it, or halfway in front of an even
multiple. -/
lemma divRoundEven_pred {step k : Nat} (hk : 0 < k) (h : 2 < step ∨ step = 2 ∧ k % 2 = 0) :
    divRoundEven (step * k - 1) step = k := by
  have hstep : 0 < step := by omega
  have hpos : step ≤ step * k := Nat.le_mul_of_pos_right step hk
  have hlower : k - 1 < divRoundEven (step * k - 1) step := by
    rw [lt_divRoundEven_iff hstep]
    have hmul : (2 * (k - 1) + 1) * step = 2 * (step * k) - step := by
      obtain ⟨j, rfl⟩ : ∃ j, k = j + 1 := ⟨k - 1, by omega⟩
      rw [Nat.add_sub_cancel, show 2 * (step * (j + 1)) = (2 * j + 1) * step + step by ring,
        Nat.add_sub_cancel]
    rw [hmul]
    omega
  have hupper : ¬ k < divRoundEven (step * k - 1) step := by
    rw [lt_divRoundEven_iff hstep]
    have hmul : (2 * k + 1) * step = 2 * (step * k) + step := by ring
    rw [hmul]
    omega
  omega

/-- From `2 ^ 54` on, the number in front of one that is kept is rounded up to it. -/
lemma nearestWhole_pred (hlow : 2 ^ 54 ≤ n) (h : nearestWhole n = n) : nearestWhole (n - 1) = n := by
  -- what is kept is a multiple of the step, also of the smaller one in front of a power of two
  have hdvd : wholeStep (n - 1) ∣ n := by
    rw [← h]
    exact (wholeStep_dvd_of_le (by omega)).mul_left _
  obtain ⟨k, hk⟩ := hdvd
  have hkpos : 0 < k := by
    rcases Nat.eq_zero_or_pos k with rfl | hpos
    · omega
    · exact hpos
  have hlog : 53 ≤ (n - 1).log2 := (Nat.le_log2 (by omega)).2 (by omega)
  have hstep : 2 < wholeStep (n - 1) ∨ wholeStep (n - 1) = 2 ∧ k % 2 = 0 := by
    rcases hlog.lt_or_eq with hlt | heq
    · left
      calc 2 < 2 ^ 2 := by decide
        _ ≤ wholeStep (n - 1) := Nat.pow_le_pow_right two_pos (by omega)
    · right
      have htwo : wholeStep (n - 1) = 2 := by rw [wholeStep, ← heq]; rfl
      have hhigh : n - 1 < 2 ^ 54 := (Nat.log2_lt (by omega)).1 (by omega)
      rw [htwo] at hk
      omega
  have hround : divRoundEven (n - 1) (wholeStep (n - 1)) = k := by
    have hpred := divRoundEven_pred hkpos hstep
    rwa [← hk] at hpred
  rw [nearestWhole, hround, Nat.mul_comm, ← hk]

/-! ## Numbers that share their double -/

/-- The largest word is rounded out of the words, and so is the word in front of it. -/
lemma nearestWhole_top : nearestWhole (2 ^ 63) = 2 ^ 63 ∧ nearestWhole (2 ^ 63 - 1) = 2 ^ 63 ∧
    nearestWhole (2 ^ 63 - 2) = 2 ^ 63 := by
  decide +kernel

lemma lt_overflow (h : n ≤ 2 ^ 63) : n < Magnitude.overflow :=
  lt_of_le_of_lt h (by decide +kernel)

/-- A number of more than 53 bits shares its double with another one, except for every fourth number of
54 bits. -/
lemma exists_same_nearestWhole (hlow : 2 ^ 53 ≤ n) (hhigh : n ≤ 2 ^ 63)
    (hn : ¬ (n < 2 ^ 54 ∧ n % 4 = 2)) : ∃ m < 2 ^ 63, m ≠ n ∧ nearestWhole m = nearestWhole n := by
  obtain ⟨htop, hlast, hsecond⟩ := nearestWhole_top
  have hle : nearestWhole n ≤ 2 ^ 63 := (nearestWhole_mono hhigh).trans_eq htop
  by_cases hkept : nearestWhole n = n
  · -- a neighbour is rounded to a number that is kept
    rcases Nat.lt_or_ge n (2 ^ 54) with hlt | hge
    · have heven := nearestWhole_of_log2_eq hlow hlt
      refine ⟨n + 1, by omega, by omega, ?_⟩
      rw [nearestWhole_of_log2_eq (by omega) (by omega), hkept]
      simp only [divRoundEven]
      split <;> omega
    · exact ⟨n - 1, by omega, by omega, (nearestWhole_pred hge hkept).trans hkept.symm⟩
  · rcases hle.lt_or_eq with hlt | htop'
    · exact ⟨nearestWhole n, hlt, hkept, nearestWhole_nearestWhole (lt_overflow hhigh)⟩
    · by_cases hmax : n = 2 ^ 63 - 1
      · exact ⟨2 ^ 63 - 2, by decide, by omega, hsecond.trans htop'.symm⟩
      · exact ⟨2 ^ 63 - 1, by decide, Ne.symm hmax, hlast.trans htop'.symm⟩

/-- A number that shares its double with no other. -/
lemma eq_of_nearestWhole_eq (h : n < 2 ^ 53 ∨ n < 2 ^ 54 ∧ n % 4 = 2)
    (heq : nearestWhole m = nearestWhole n) : m = n := by
  have htwo53 : nearestWhole (2 ^ 53) = 2 ^ 53 := by decide +kernel
  have htwo54 : nearestWhole (2 ^ 54) = 2 ^ 54 := by decide +kernel
  have hbound : ∀ {k b : Nat}, nearestWhole b = b → nearestWhole k < b → k < b := by
    intro k b hb hlt
    by_contra hge
    have := nearestWhole_mono (Nat.not_lt.1 hge)
    omega
  rcases Nat.lt_or_ge n (2 ^ 53) with hlt | hge
  · rw [nearestWhole_of_lt hlt] at heq
    have hm : m < 2 ^ 53 := hbound htwo53 (by omega)
    rwa [nearestWhole_of_lt hm] at heq
  · have hn : n < 2 ^ 54 ∧ n % 4 = 2 := h.resolve_left (by omega)
    rw [nearestWhole_of_log2_eq hge hn.1] at heq
    have hkept : divRoundEven n 2 * 2 = n := by
      simp only [divRoundEven]
      split <;> omega
    rw [hkept] at heq
    have hm : m < 2 ^ 54 := hbound htwo54 (by omega)
    rcases Nat.lt_or_ge m (2 ^ 53) with hmlt | hmge
    · rw [nearestWhole_of_lt hmlt] at heq
      omega
    · rw [nearestWhole_of_log2_eq hmge hm] at heq
      simp only [divRoundEven] at heq
      split at heq <;> omega

/-! ## Signs -/

/-- A whole number with a sign, rounded to 53 bits. -/
def keptWhole (n : Int) : Int := n.sign * nearestWhole n.natAbs

lemma nearestWhole_eq_zero_iff : nearestWhole n = 0 ↔ n = 0 := by
  have hzero : nearestWhole 0 = 0 := nearestWhole_of_lt (by decide)
  constructor
  · intro h
    exact eq_of_nearestWhole_eq (.inl (by decide)) (h.trans hzero.symm)
  · rintro rfl
    exact hzero

lemma sign_keptWhole (n : Int) : (keptWhole n).sign = n.sign := by
  rw [keptWhole, Int.sign_mul, Int.sign_sign]
  rcases eq_or_ne n 0 with rfl | hn
  · rfl
  · have hpos : 0 < nearestWhole n.natAbs := by
      rw [Nat.pos_iff_ne_zero, Ne, nearestWhole_eq_zero_iff]
      exact Int.natAbs_ne_zero.2 hn
    have hsign : (nearestWhole n.natAbs : Int).sign = 1 := Int.sign_eq_one_of_pos (by exact_mod_cast hpos)
    rw [hsign, mul_one]

lemma natAbs_keptWhole (n : Int) : (keptWhole n).natAbs = nearestWhole n.natAbs := by
  rw [keptWhole, Int.natAbs_mul, Int.natAbs_natCast]
  rcases eq_or_ne n 0 with rfl | hn
  · rfl
  · rw [Int.natAbs_sign_of_ne_zero hn, one_mul]

lemma keptWhole_eq_iff {a b : Int} :
    keptWhole a = keptWhole b ↔ a.sign = b.sign ∧ nearestWhole a.natAbs = nearestWhole b.natAbs := by
  constructor
  · intro h
    rw [← sign_keptWhole a, ← natAbs_keptWhole a, h, sign_keptWhole, natAbs_keptWhole]
    exact ⟨rfl, rfl⟩
  · rintro ⟨hsign, hnearest⟩
    rw [keptWhole, keptWhole, hsign, hnearest]

lemma sign_eq_sign_iff {a b : Int} (h : a = 0 ↔ b = 0) :
    a.sign = b.sign ↔ (a < 0 ↔ b < 0) ∨ a = 0 := by
  rcases lt_trichotomy a 0 with ha | ha | ha
  · rw [Int.sign_eq_neg_one_of_neg ha, eq_comm, Int.sign_eq_neg_one_iff_neg]
    simp only [ha, true_iff, ha.ne, or_false]
  · rw [ha, h.1 ha]
    simp
  · rw [Int.sign_eq_one_of_pos ha, eq_comm, Int.sign_eq_one_iff_pos]
    omega

/-- Whole numbers within the range of words are the same double if they are rounded to the same number. -/
lemma Binary64.ofInt_same_iff {a b : Int} (ha : a.natAbs ≤ 2 ^ 63) (hb : b.natAbs ≤ 2 ^ 63) :
    (Binary64.ofInt a).same (Binary64.ofInt b) = true ↔ keptWhole a = keptWhole b := by
  obtain ⟨x, hx, hxunits⟩ := Magnitude.exists_nearest?_one (lt_overflow ha)
  obtain ⟨y, hy, hyunits⟩ := Magnitude.exists_nearest?_one (lt_overflow hb)
  have hsame : x = y ↔ nearestWhole a.natAbs = nearestWhole b.natAbs := by
    rw [← Nat.mul_left_inj Magnitude.resolution_pos.ne', ← hxunits, ← hyunits]
    exact ⟨congrArg _, Magnitude.units_injective⟩
  have hzero : x.mantissa = 0 ↔ a = 0 := by
    have hmantissa : x.units = 0 ↔ x.mantissa = 0 := by
      rw [Magnitude.units, Nat.mul_eq_zero, or_iff_left (Magnitude.two_pow_pos _).ne']
    have hnearest : x.units = 0 ↔ nearestWhole a.natAbs = 0 := by
      rw [hxunits, Nat.mul_eq_zero, or_iff_left Magnitude.resolution_pos.ne']
    rw [← hmantissa, hnearest, nearestWhole_eq_zero_iff, Int.natAbs_eq_zero]
  have hofInt : (Binary64.ofInt a).same (Binary64.ofInt b) =
      (x == y && (decide (a < 0) == decide (b < 0) || x.mantissa == 0)) := by
    rw [Binary64.ofInt, Binary64.ofInt, Binary64.ofRatio, Binary64.ofRatio, hx, hy]
    rfl
  rw [hofInt, keptWhole_eq_iff, Bool.and_eq_true, Bool.or_eq_true, beq_iff_eq, beq_iff_eq, beq_iff_eq, hzero,
    hsame, decide_eq_decide, and_comm]
  refine and_congr_left fun hnearest => ?_
  have hboth : a = 0 ↔ b = 0 := by
    rw [← Int.natAbs_eq_zero, ← Int.natAbs_eq_zero, ← nearestWhole_eq_zero_iff, hnearest,
      nearestWhole_eq_zero_iff]
  exact (sign_eq_sign_iff hboth).symm

end FilterLang
