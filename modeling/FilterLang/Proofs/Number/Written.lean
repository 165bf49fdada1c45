import FilterLang.Number.Decimal
import FilterLang.Proofs.Number.Nearest
import Mathlib.Data.List.TakeWhile

/-!
# A number that is written reads back

Every finite number has a written form with digits on both sides of a point, and rounding that form
gives the number back (`Binary64.literal_reads_back`).  A whole number is written with all its digits.
Any other number is written with digits that were tested by rounding them, so what is left to show is
that laying the digits out around the point does not change their value, and that the point is there:
digits that name a whole number would have been rounded to a whole number.
-/

namespace FilterLang

/-! ### The value of digits -/

lemma natOfDigits_eq (digits : List Char) : natOfDigits digits = Nat.ofDigitChars 10 digits 0 := rfl

lemma natOfDigits_append (front back : List Char) :
    natOfDigits (front ++ back) = natOfDigits front * 10 ^ back.length + natOfDigits back := by
  simp only [natOfDigits_eq]
  rw [Nat.ofDigitChars_append, Nat.ofDigitChars_eq_ofDigitChars_zero, Nat.mul_comm]

@[simp] lemma natOfDigits_replicate_zero (n : Nat) : natOfDigits (List.replicate n '0') = 0 := by
  simp [natOfDigits_eq]

@[simp] lemma natOfDigits_digitsOfNat (n : Nat) : natOfDigits (digitsOfNat n) = n :=
  Nat.ofDigitChars_ten_toDigits

lemma isDigit_of_mem_digitsOfNat {n : Nat} {c : Char} (h : c ∈ digitsOfNat n) :
    c.isDigit = true :=
  Nat.isDigit_of_mem_toDigits (by decide) (by decide) h

/-- A run of digits is what is left of it without its last zeros, and zeros. -/
lemma exists_eq_append_zeros (digits : List Char) :
    ∃ zeros, digits = (digits.reverse.dropWhile (· == '0')).reverse ++ List.replicate zeros '0' := by
  refine ⟨(digits.reverse.takeWhile (· == '0')).length, ?_⟩
  have hzeros : digits.reverse.takeWhile (· == '0') =
      List.replicate (digits.reverse.takeWhile (· == '0')).length '0' := by
    refine List.eq_replicate_iff.mpr ⟨rfl, fun c hc => ?_⟩
    simpa using List.mem_takeWhile_imp hc
  have hsplit := List.takeWhile_append_dropWhile (p := (· == '0')) (l := digits.reverse)
  apply List.reverse_injective
  rw [List.reverse_append, List.reverse_reverse, List.reverse_replicate, ← hzeros]
  exact hsplit.symm

lemma ten_pow_eq (e : Nat) : Nat.pow 10 e = Nat.pow 2 e * Nat.pow 5 e := by
  simp only [Nat.pow_eq, ← mul_pow]
  rfl

lemma five_pow_pos (e : Nat) : 0 < Nat.pow 5 e := Nat.pow_pos (by decide)

namespace Decimal

variable (digits : List Char) (zeros places : Nat)

/-- Digits with `zeros` zeros behind them, cut `places` places from the right. -/
abbrev cut : Decimal := ⟨digits, ((digits.length + zeros : Nat) : Int) - places⟩

variable {digits zeros places}

/-- The layout of a number below one. -/
lemma positional_below (h : digits.length + zeros ≤ places) :
    (cut digits zeros places).positional =
      (['0'], List.replicate (places - (digits.length + zeros)) '0' ++ digits) := by
  have hpoint : ((digits.length + zeros : Nat) : Int) - places ≤ 0 := by omega
  have hzeros : (-(((digits.length + zeros : Nat) : Int) - places)).toNat =
      places - (digits.length + zeros) := by omega
  rw [positional, if_pos hpoint, hzeros]

/-- The layout of a number whose digits all stand in front of the point. -/
lemma positional_whole (h : places < digits.length + zeros) (hzeros : places ≤ zeros) :
    (cut digits zeros places).positional =
      (digits ++ List.replicate (zeros - places) '0', []) := by
  have hpoint : ¬ ((digits.length + zeros : Nat) : Int) - places ≤ 0 := by omega
  have hfront : (((digits.length + zeros : Nat) : Int) - places).toNat =
      digits.length + (zeros - places) := by omega
  simp only [positional, if_neg hpoint, hfront]
  rw [if_pos (by omega), Nat.add_sub_cancel_left]

/-- The layout of a number with digits on both sides of the point. -/
lemma positional_inside (h : places < digits.length + zeros) (hzeros : zeros < places) :
    (cut digits zeros places).positional =
      (digits.take (digits.length + zeros - places),
        digits.drop (digits.length + zeros - places)) := by
  have hpoint : ¬ ((digits.length + zeros : Nat) : Int) - places ≤ 0 := by omega
  have hfront : (((digits.length + zeros : Nat) : Int) - places).toNat =
      digits.length + zeros - places := by omega
  simp only [positional, if_neg hpoint, hfront]
  rw [if_neg (by omega)]

variable (digits zeros places)

/-- The layout around the point names the same fraction as the digits. -/
lemma value_positional :
    natOfDigits ((cut digits zeros places).positional.1 ++ (cut digits zeros places).positional.2) *
        10 ^ places =
      natOfDigits digits * 10 ^ zeros *
        10 ^ (cut digits zeros places).positional.2.length := by
  by_cases hbelow : digits.length + zeros ≤ places
  · have hvalue : natOfDigits (['0'] ++ (List.replicate (places - (digits.length + zeros)) '0' ++
        digits)) = natOfDigits digits := by
      rw [← List.append_assoc, natOfDigits_append]
      rw [show ['0'] = List.replicate 1 '0' from rfl, ← List.replicate_add]
      simp
    rw [positional_below hbelow, hvalue, Nat.mul_assoc, ← pow_add, List.length_append,
      List.length_replicate]
    congr 2
    omega
  by_cases hwhole : places ≤ zeros
  · rw [positional_whole (by omega) hwhole, List.append_nil, natOfDigits_append,
      natOfDigits_replicate_zero, List.length_replicate, List.length_nil, Nat.add_zero,
      Nat.mul_assoc, ← pow_add, Nat.sub_add_cancel hwhole, pow_zero, Nat.mul_one]
  · rw [positional_inside (by omega) (by omega), List.take_append_drop, Nat.mul_assoc, ← pow_add,
      List.length_drop]
    congr 2
    omega

/-- There is a digit in front of the point. -/
lemma positional_front_ne_nil : (cut digits zeros places).positional.1 ≠ [] := by
  by_cases hbelow : digits.length + zeros ≤ places
  · simp [positional_below hbelow]
  by_cases hwhole : places ≤ zeros
  · rw [positional_whole (by omega) hwhole, ← List.length_pos_iff, List.length_append,
      List.length_replicate]
    omega
  · rw [positional_inside (by omega) (by omega), ← List.length_pos_iff, List.length_take]
    omega

variable {digits}

/-- Nothing but digits is laid out. -/
lemma isDigit_of_mem_positional (hdigits : ∀ c ∈ digits, c.isDigit = true) :
    ∀ c ∈ (cut digits zeros places).positional.1 ++ (cut digits zeros places).positional.2,
      c.isDigit = true := by
  have hzero : ∀ (n : Nat) (c : Char), c ∈ List.replicate n '0' → c.isDigit = true := by
    intro n c hc
    rw [List.eq_of_mem_replicate hc]
    rfl
  by_cases hbelow : digits.length + zeros ≤ places
  · rw [positional_below hbelow, ← List.append_assoc]
    intro c hc
    rcases List.mem_append.mp hc with hc | hc
    · rcases List.mem_append.mp hc with hc | hc
      · exact hzero 1 c hc
      · exact hzero _ c hc
    · exact hdigits c hc
  by_cases hwhole : places ≤ zeros
  · rw [positional_whole (by omega) hwhole, List.append_nil]
    intro c hc
    rcases List.mem_append.mp hc with hc | hc
    · exact hdigits c hc
    · exact hzero _ c hc
  · rw [positional_inside (by omega) (by omega), List.take_append_drop]
    exact hdigits

end Decimal

/-! ### Digits that round to a magnitude -/

namespace Magnitude

/-- Equal fractions are rounded alike. -/
lemma ofPlaces?_congr {a b p q : Nat} (h : a * 10 ^ q = b * 10 ^ p) :
    ofPlaces? a p = ofPlaces? b q := by
  have hp : 0 < 10 ^ p := by positivity
  have hq : 0 < 10 ^ q := by positivity
  calc ofPlaces? a p = nearest? (a * 10 ^ q) (10 ^ p * 10 ^ q) := (nearest?_mul_right hq _ _).symm
    _ = nearest? (b * 10 ^ p) (10 ^ q * 10 ^ p) := by rw [h, Nat.mul_comm (10 ^ p)]
    _ = ofPlaces? b q := nearest?_mul_right hp _ _

/-- All the digits of a magnitude round to it. -/
lemma ofPlaces?_decimalUnits (x : Magnitude) : ofPlaces? x.decimalUnits 1074 = some x := by
  rw [ofPlaces?, decimalUnits, ten_pow_eq, nearest?_mul_right (five_pow_pos _)]
  exact nearest?_units x

lemma reads_iff {x : Magnitude} {grid n : Nat} :
    reads x grid n = true ↔ ofPlaces? (n * grid) 1074 = some x := by
  rw [reads, beq_iff_eq]

/-- The neighbour that is written is one that reads back. -/
lemma neighbour?_eq_some {tie : Tie} {grid units n : Nat} {belowReads aboveReads : Bool}
    (h : neighbour? tie grid units belowReads aboveReads = some n) :
    (n = units / grid ∧ belowReads = true) ∨ (n = units / grid + 1 ∧ aboveReads = true) := by
  unfold neighbour? at h
  cases belowReads <;> cases aboveReads <;> simp only [Option.some.injEq] at h
  · exact absurd h (by simp)
  · exact Or.inr ⟨h.symm, rfl⟩
  · exact Or.inl ⟨h.symm, rfl⟩
  · rw [← h]
    split_ifs <;> simp

/-- Digits on a grid are only chosen if they round to the magnitude. -/
lemma ofPlaces?_of_nearestOn? {x : Magnitude} {tie : Tie} {grid n : Nat}
    (h : nearestOn? x tie grid = some n) : ofPlaces? (n * grid) 1074 = some x := by
  rw [← reads_iff]
  unfold nearestOn? at h
  rcases neighbour?_eq_some h with ⟨rfl, hreads⟩ | ⟨rfl, hreads⟩
  · exact hreads
  · exact hreads

/-- The digits that are written, as a number of steps of `10 ^ (-1074)`. -/
def written (x : Magnitude) (tie : Tie) : Nat :=
  let width := (digitsOfNat x.decimalUnits).length
  let grids := (List.range 17).map fun n => Nat.pow 10 (width - (n + 1))
  (grids.findSome? fun grid => (nearestOn? x tie grid).map (· * grid)).getD x.decimalUnits

lemma ofPlaces?_written (x : Magnitude) (tie : Tie) : ofPlaces? (x.written tie) 1074 = some x := by
  simp only [written]
  cases hfound : List.findSome? (fun grid => (nearestOn? x tie grid).map (· * grid))
      ((List.range 17).map fun n => Nat.pow 10 ((digitsOfNat x.decimalUnits).length - (n + 1))) with
  | none => exact ofPlaces?_decimalUnits x
  | some n =>
    obtain ⟨grid, -, hgrid⟩ := List.exists_of_findSome?_eq_some hfound
    obtain ⟨steps, hsteps, rfl⟩ := Option.map_eq_some_iff.mp hgrid
    exact ofPlaces?_of_nearestOn? hsteps

/-- The shortest form is made of the digits that are written, without their last zeros. -/
lemma shortest_eq_cut {x : Magnitude} (h : x.mantissa ≠ 0) (tie : Tie) :
    ∃ digits zeros, x.shortest tie = Decimal.cut digits zeros 1074 ∧
      digits ++ List.replicate zeros '0' = digitsOfNat (x.written tie) := by
  obtain ⟨zeros, hzeros⟩ := exists_eq_append_zeros (digitsOfNat (x.written tie))
  set digits := ((digitsOfNat (x.written tie)).reverse.dropWhile (· == '0')).reverse with hdigits
  refine ⟨digits, zeros, ?_, hzeros.symm⟩
  have hlength : (digitsOfNat (x.written tie)).length = digits.length + zeros := by
    rw [hzeros, List.length_append, List.length_replicate]
  rw [shortest, if_neg h]
  simp only [Decimal.cut, ← hlength]
  rfl

/-- The digits `front` and `back`, with a point between them, are a way to write a magnitude. -/
structure Numeral (x : Magnitude) (front back : List Char) : Prop where
  front_ne_nil : front ≠ []
  back_ne_nil : back ≠ []
  isDigit : ∀ c ∈ front ++ back, c.isDigit = true
  reads : ofPlaces? (natOfDigits (front ++ back)) back.length = some x

/-- A whole number is written with all its digits and a zero behind the point. -/
lemma numeral_floor {x : Magnitude} (h : x.isWhole = true) :
    x.Numeral (digitsOfNat x.floor) ['0'] where
  front_ne_nil := Nat.toDigits_ne_nil
  back_ne_nil := by simp
  isDigit := by
    intro c hc
    rcases List.mem_append.mp hc with hc | hc
    · exact isDigit_of_mem_digitsOfNat hc
    · rw [List.mem_singleton.mp hc]
      rfl
  reads := by
    have hvalue : natOfDigits (digitsOfNat x.floor ++ ['0']) = x.floor * 10 := by
      rw [natOfDigits_append, natOfDigits_digitsOfNat]
      rfl
    have hunits : x.floor * resolution = x.units := Nat.div_mul_cancel (isWhole_iff.mp h)
    calc ofPlaces? (natOfDigits (digitsOfNat x.floor ++ ['0'])) 1
        = nearest? (x.floor * 10) (1 * 10) := by rw [hvalue]; rfl
      _ = nearest? (x.floor * resolution) (1 * resolution) := by
        rw [nearest?_mul_right (by decide), nearest?_mul_right resolution_pos]
      _ = some x := by rw [hunits, Nat.one_mul, nearest?_units]

/-- The layout of the shortest form around the point names what is written. -/
lemma value_shortest {x : Magnitude} (h : x.mantissa ≠ 0) (tie : Tie) :
    natOfDigits ((x.shortest tie).positional.1 ++ (x.shortest tie).positional.2) * 10 ^ 1074 =
      x.written tie * 10 ^ (x.shortest tie).positional.2.length := by
  obtain ⟨digits, zeros, hcut, hdigits⟩ := shortest_eq_cut h tie
  have hvalue : natOfDigits digits * 10 ^ zeros = x.written tie := by
    rw [← natOfDigits_digitsOfNat (x.written tie), ← hdigits, natOfDigits_append]
    simp
  rw [hcut, ← hvalue]
  exact Decimal.value_positional digits zeros 1074

/-- Nothing but digits is laid out. -/
lemma isDigit_shortest (x : Magnitude) (tie : Tie) :
    ∀ c ∈ (x.shortest tie).positional.1 ++ (x.shortest tie).positional.2, c.isDigit = true := by
  by_cases h : x.mantissa = 0
  · rw [shortest, if_pos h]
    exact List.all_eq_true.1 (by decide)
  · obtain ⟨digits, zeros, hcut, hdigits⟩ := shortest_eq_cut h tie
    rw [hcut]
    refine Decimal.isDigit_of_mem_positional _ _ fun c hc => ?_
    have hmem : c ∈ digitsOfNat (x.written tie) := by
      rw [← hdigits]
      exact List.mem_append_left _ hc
    exact isDigit_of_mem_digitsOfNat hmem

lemma mantissa_ne_zero {x : Magnitude} (h : x.isWhole = false) : x.mantissa ≠ 0 := by
  intro hzero
  have hwhole : x.isWhole = true := by simp [isWhole_iff, units, hzero]
  simp [hwhole] at h

/-- A number that is not whole is written with its shortest digits, and some of them stand behind the
point. -/
lemma numeral_shortest {x : Magnitude} (h : x.isWhole = false) (tie : Tie) :
    x.Numeral (x.shortest tie).positional.1 (x.shortest tie).positional.2 := by
  have hmantissa := mantissa_ne_zero h
  have hreads : ofPlaces? (natOfDigits ((x.shortest tie).positional.1 ++
      (x.shortest tie).positional.2)) (x.shortest tie).positional.2.length = some x :=
    (ofPlaces?_congr (value_shortest hmantissa tie)).trans (ofPlaces?_written x tie)
  refine ⟨?_, ?_, isDigit_shortest x tie, hreads⟩
  · obtain ⟨digits, zeros, hcut, -⟩ := shortest_eq_cut hmantissa tie
    rw [hcut]
    exact Decimal.positional_front_ne_nil _ _ _
  · -- without a digit behind the point the number would have been rounded to a whole one
    intro hback
    rw [hback] at hreads
    have hwhole := isWhole_of_nearest? hreads
    exact absurd h (by simp [hwhole])

end Magnitude

/-- The sign of a number as it is written. -/
def signText (negative : Bool) : List Char := if negative then ['-'] else []

lemma sign_toList (negative : Bool) :
    (if negative then "-" else "" : String).toList = signText negative := by
  cases negative <;> rfl

lemma NumberStyle.plain_toList (style : NumberStyle) {d : Decimal} (h : d.positional.2 ≠ []) :
    (style.plain d).toList = d.positional.1 ++ '.' :: d.positional.2 := by
  unfold plain
  split
  · rename_i front hpositional
    exact absurd (by rw [hpositional]) h
  · rename_i front back _ hpositional
    simp [hpositional]

namespace Binary64

/-- A finite number is written with digits on both sides of a point, and these read back as it. -/
lemma literal_reads_back (negative : Bool) (x : Magnitude) :
    ∃ front back, x.Numeral front back ∧
      (finite negative x).literal.toList = signText negative ++ (front ++ '.' :: back) := by
  cases hwhole : x.isWhole with
  | true =>
    refine ⟨_, _, Magnitude.numeral_floor hwhole, ?_⟩
    simp only [literal, hwhole, if_true, String.toList_append, Nat.toString_eq_repr,
      Nat.toList_repr, sign_toList, List.append_assoc]
    rfl
  | false =>
    have hnumeral := Magnitude.numeral_shortest hwhole .up
    refine ⟨_, _, hnumeral, ?_⟩
    have hliteral : (finite negative x).literal =
        (if negative then "-" else "") ++ textStyle.plain (x.shortest .up) := by
      simp only [literal, hwhole]
      rfl
    rw [hliteral, String.toList_append, sign_toList,
      NumberStyle.plain_toList textStyle hnumeral.back_ne_nil]

end Binary64

end FilterLang
