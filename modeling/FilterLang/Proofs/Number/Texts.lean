import FilterLang.Json.Basic
import FilterLang.Proofs.Number.Order
import FilterLang.Proofs.Number.Written

/-!
# A number in running text and in a document

The same number is written in two styles: in running text without an exponent and without a point in whole
numbers, and in a document always with one of the two.  The main statement says exactly for which numbers
the two texts agree (`Magnitude.text_eq_iff`).
-/

namespace FilterLang

lemma lt_length_digitsOfNat_iff {n k : Nat} (hk : 0 < k) :
    k < (digitsOfNat n).length ↔ Nat.pow 10 k ≤ n := by
  rw [← not_le, digitsOfNat, Nat.length_toDigits_le_iff (by decide) hk, not_lt]
  rfl

namespace Decimal

/-- A number of steps of `10 ^ (-1074)` in decimal, without the zeros at its end. -/
def ofSteps (steps : Nat) : Decimal :=
  ⟨((digitsOfNat steps).reverse.dropWhile (· == '0')).reverse, (digitsOfNat steps).length - 1074⟩

lemma getLast?_ofSteps (steps : Nat) : (ofSteps steps).digits.getLast? ≠ some '0' := by
  rw [ofSteps, List.getLast?_reverse]
  intro hzero
  have hhead := List.head?_dropWhile_not (· == '0') (digitsOfNat steps).reverse
  rw [hzero] at hhead
  cases hhead

/-- Digits that do not end with a zero are not divisible by ten. -/
lemma not_ten_dvd {digits : List Char} (hdigits : ∀ c ∈ digits, c.isDigit = true)
    (hlast : digits.getLast? ≠ some '0') (hne : natOfDigits digits ≠ 0) :
    ¬ 10 ∣ natOfDigits digits := by
  obtain rfl | ⟨init, c, rfl⟩ := List.eq_nil_or_concat' digits
  · exact absurd rfl hne
  intro hdvd
  have hrange : 48 ≤ c.toNat ∧ c.toNat ≤ 57 := by
    simpa [Char.isDigit, UInt32.le_iff_toNat_le] using hdigits c (by simp)
  have hvalue : natOfDigits [c] = c.toNat - 48 := by simp [natOfDigits]
  rw [natOfDigits_append, hvalue, List.length_singleton, pow_one,
    Nat.dvd_add_right (Nat.dvd_mul_left 10 _)] at hdvd
  have hzero : c.toNat = '0'.toNat := by
    have := Nat.eq_zero_of_dvd_of_lt hdvd (by omega)
    change c.toNat = 48
    omega
  exact hlast (by rw [List.getLast?_concat, Char.toNat_inj.1 hzero])

/-- Zeros that are cut off are all the zeros there are. -/
lemma le_zeros_of_dvd {digits : List Char} {zeros places : Nat}
    (hten : ¬ 10 ∣ natOfDigits digits) (hdvd : 10 ^ places ∣ natOfDigits digits * 10 ^ zeros) :
    places ≤ zeros := by
  by_contra hlt
  have hstep : 10 ^ (zeros + 1) ∣ natOfDigits digits * 10 ^ zeros :=
    (Nat.pow_dvd_pow 10 (not_le.1 hlt)).trans hdvd
  rw [pow_succ', Nat.mul_dvd_mul_iff_right (by positivity)] at hstep
  exact hten hstep

end Decimal

namespace Magnitude

variable {x : Magnitude} {tie : Tie}

/-! ### Whole numbers -/

lemma neighbour?_ne_none {grid n : Nat} (aboveReads : Bool) :
    neighbour? tie grid n true aboveReads ≠ none := by
  cases aboveReads <;> simp [neighbour?]

/-- A number on a grid is written with the digits of the grid at the latest. -/
lemma nearestOn?_ne_none {grid : Nat} (h : grid ∣ x.decimalUnits) : nearestOn? x tie grid ≠ none := by
  have hbelow : reads x grid (x.decimalUnits / grid) = true := by
    rw [reads_iff, Nat.div_mul_cancel h]
    exact ofPlaces?_decimalUnits x
  have hneighbour : nearestOn? x tie grid = neighbour? tie grid x.decimalUnits
      (reads x grid (x.decimalUnits / grid)) (reads x grid (x.decimalUnits / grid + 1)) := rfl
  rw [hneighbour, hbelow]
  exact neighbour?_ne_none _

lemma decimalUnits_ne_zero (h : x.mantissa ≠ 0) : x.decimalUnits ≠ 0 := by
  have hunits : x.units ≠ 0 := Nat.mul_ne_zero h (two_pow_pos _).ne'
  exact Nat.mul_ne_zero hunits (five_pow_pos _).ne'

/-- The first of the numbers below a bound that has a property has none before it. -/
lemma mem_of_range_eq_append {bound j k : Nat} {before behind : List Nat}
    (h : List.range bound = before ++ k :: behind) (hj : j < k) : j ∈ before := by
  have hk : k ∈ List.range bound := by simp [h]
  have hmem : j ∈ before ++ k :: behind := by
    rw [← h]
    simp only [List.mem_range] at hk ⊢
    omega
  have hsorted : (before ++ k :: behind).Pairwise (· < ·) := h ▸ List.pairwise_lt_range
  rw [List.pairwise_append, List.pairwise_cons] at hsorted
  rcases List.mem_append.1 hmem with hmem | hmem
  · exact hmem
  rcases List.mem_cons.1 hmem with rfl | hmem
  · exact absurd hj (lt_irrefl j)
  · exact absurd (hsorted.2.1.1 j hmem) hj.asymm

/-- The grids are tried from coarse to fine, so what is found lies on each grid that has something. -/
lemma pow_dvd_of_findSome? {on? : Nat → Option Nat} {bound width places found : Nat}
    (hplaces : places < width) (hsome : on? (Nat.pow 10 places) ≠ none)
    (h : ((List.range bound).map fun n => Nat.pow 10 (width - (n + 1))).findSome?
      (fun grid => (on? grid).map (· * grid)) = some found) : Nat.pow 10 places ∣ found := by
  rw [List.findSome?_map] at h
  obtain ⟨before, k, behind, hrange, hk, hbefore⟩ := List.findSome?_eq_some_iff.1 h
  rw [Function.comp_apply] at hk
  obtain ⟨steps, -, rfl⟩ := Option.map_eq_some_iff.1 hk
  by_cases hgrid : places ≤ width - (k + 1)
  · exact (Nat.pow_dvd_pow 10 hgrid).mul_left steps
  · have hfirst := hbefore (width - (places + 1)) (mem_of_range_eq_append hrange (by omega))
    have hexponent : width - (width - (places + 1) + 1) = places := by omega
    rw [Function.comp_apply, hexponent, Option.map_eq_none_iff] at hfirst
    exact absurd hfirst hsome

/-- Zeros at the end of the exact digits are not replaced by other digits: the digits in front of them
suffice, and they are tried before any longer ones. -/
lemma pow_dvd_written {places : Nat} (hplaces : 0 < places)
    (hdvd : Nat.pow 10 places ∣ x.decimalUnits) (hne : x.decimalUnits ≠ 0) :
    Nat.pow 10 places ∣ x.written tie := by
  have hwidth : places < (digitsOfNat x.decimalUnits).length :=
    (lt_length_digitsOfNat_iff hplaces).2 (Nat.le_of_dvd (Nat.pos_of_ne_zero hne) hdvd)
  simp only [written]
  cases hfound : List.findSome? (fun grid => (nearestOn? x tie grid).map (· * grid))
      ((List.range 17).map fun n => Nat.pow 10 ((digitsOfNat x.decimalUnits).length - (n + 1))) with
  | none => exact hdvd
  | some n => exact pow_dvd_of_findSome? hwidth (nearestOn?_ne_none hdvd) hfound

lemma ten_pow_dvd_mul {e n : Nat} (h : Nat.pow 2 e ∣ n) : Nat.pow 10 e ∣ n * Nat.pow 5 e := by
  rw [ten_pow_eq]
  exact Nat.mul_dvd_mul h dvd_rfl

lemma shortest_eq (hmantissa : x.mantissa ≠ 0) (tie : Tie) :
    x.shortest tie = .ofSteps (x.written tie) := by
  rw [shortest, if_neg hmantissa]
  rfl

/-- Zero is not rounded to anything else. -/
lemma ne_zero_of_nearest? {num den : Nat} (h : nearest? num den = some x) (hmantissa : x.mantissa ≠ 0) :
    num ≠ 0 := by
  rintro rfl
  have hunits : x.units = roundedMantissa 0 den * Nat.pow 2 (shiftOf 0 den) := units_of_nearest? h
  have hzero : roundedMantissa 0 den = 0 := by simp [roundedMantissa, divRoundEven]
  rw [hzero, Nat.zero_mul] at hunits
  exact Nat.mul_ne_zero hmantissa (two_pow_pos _).ne' hunits

lemma written_ne_zero (hmantissa : x.mantissa ≠ 0) : x.written tie ≠ 0 :=
  ne_zero_of_nearest? (ofPlaces?_written x tie) hmantissa

/-- A whole number is laid out without digits behind the point. -/
lemma positional_of_isWhole (h : x.isWhole = true) : (x.shortest tie).positional.2 = [] := by
  by_cases hmantissa : x.mantissa = 0
  · rw [shortest, if_pos hmantissa]
    rfl
  obtain ⟨digits, zeros, hcut, hdigits⟩ := shortest_eq_cut hmantissa tie
  have hvalue : natOfDigits digits * 10 ^ zeros = x.written tie := by
    rw [← natOfDigits_digitsOfNat (x.written tie), ← hdigits, natOfDigits_append]
    simp
  have hlast : digits.getLast? ≠ some '0' := by
    have hshortest := Decimal.getLast?_ofSteps (x.written tie)
    rwa [← shortest_eq hmantissa tie, hcut] at hshortest
  have hne : natOfDigits digits ≠ 0 := by
    intro hzero
    rw [hzero, Nat.zero_mul] at hvalue
    exact written_ne_zero hmantissa hvalue.symm
  have hisDigit : ∀ c ∈ digits, c.isDigit = true := by
    intro c hc
    exact isDigit_of_mem_digitsOfNat (hdigits ▸ List.mem_append_left _ hc)
  have hzeros : 1074 ≤ zeros := by
    refine Decimal.le_zeros_of_dvd (Decimal.not_ten_dvd hisDigit hlast hne) ?_
    rw [hvalue]
    exact pow_dvd_written (by decide) (@ten_pow_dvd_mul 1074 x.units (isWhole_iff.1 h))
      (decimalUnits_ne_zero hmantissa)
  have hlength : 0 < digits.length := by
    rw [List.length_pos_iff]
    rintro rfl
    exact hne rfl
  rw [hcut, Decimal.positional_whole (by omega) hzeros]

/-! ### The place of the point -/

/-- A number that is rounded from something large is whole. -/
lemma isWhole_of_le {num den : Nat} (hden : 0 < den) (hle : 2 ^ 53 * den ≤ num)
    (h : nearest? num den = some x) : x.isWhole = true := by
  have hleast : shiftOf (2 ^ 53) 1 = 1075 := by decide +kernel
  have hshift : shiftOf (2 ^ 53) 1 ≤ shiftOf num den :=
    shiftOf_mono one_pos hden (by rwa [Nat.mul_one])
  rw [isWhole_iff, units_of_nearest? h]
  exact (resolution_dvd (by omega)).mul_left _

/-- So is one that is rounded from more than 16 digits in front of the point. -/
lemma isWhole_of_length {places n : Nat} (hlength : 16 + places < (digitsOfNat n).length)
    (h : ofPlaces? n places = some x) : x.isWhole = true := by
  refine isWhole_of_le (Nat.pow_pos (by decide)) ?_ h
  calc 2 ^ 53 * 10 ^ places ≤ 10 ^ 16 * 10 ^ places := Nat.mul_le_mul_right _ (by decide)
    _ = 10 ^ (16 + places) := (pow_add 10 16 places).symm
    _ ≤ n := (lt_length_digitsOfNat_iff (by omega)).1 hlength

/-- A number with digits behind the point has at most 16 of them in front of it. -/
lemma point_le_of_not_isWhole (h : x.isWhole = false) : (x.shortest tie).point ≤ 16 := by
  have hmantissa := mantissa_ne_zero h
  rw [shortest_eq hmantissa, Decimal.ofSteps]
  dsimp only
  by_contra hlarge
  have hlength : 16 + 1074 < (digitsOfNat (x.written tie)).length := by omega
  have hwhole := isWhole_of_length hlength (ofPlaces?_written x tie)
  exact absurd h (by simp [hwhole])

/-- The magnitude nearest to `0.00001`. -/
def hundredThousandth : Magnitude := ⟨5902958103587057, 1005, by decide⟩

lemma nearest?_hundredThousandth : nearest? 1 100000 = some hundredThousandth := by decide +kernel

lemma resolution_le_hundredThousandth : resolution ≤ hundredThousandth.units * 100000 :=
  Nat.le_of_ble_eq_true (by decide +kernel)

lemma ten_pow_add_five {e f : Nat} (h : f = e + 5) : Nat.pow 10 f = Nat.pow 10 e * 100000 := by
  subst h
  exact Nat.pow_add 10 e 5

/-- There are at most four zeros behind the point exactly from `0.00001` on. -/
lemma le_point_iff (hmantissa : x.mantissa ≠ 0) :
    -4 ≤ (x.shortest .even).point ↔ resolution ≤ x.units * 100000 := by
  have hpos : 0 < Nat.pow 10 1074 := Nat.pow_pos (by decide)
  have hpow : Nat.pow 10 1074 = Nat.pow 10 1069 * 100000 := ten_pow_add_five (by decide)
  have hwritten := ofPlaces?_written x .even
  have hleast := nearest?_hundredThousandth
  have hpoint : -4 ≤ (x.shortest .even).point ↔ Nat.pow 10 1069 ≤ x.written .even := by
    rw [shortest_eq hmantissa, ← lt_length_digitsOfNat_iff (by decide), Decimal.ofSteps]
    dsimp only
    omega
  rw [hpoint]
  constructor
  · intro hle
    have hunits : hundredThousandth.units ≤ x.units := by
      refine units_le_units (by decide) hpos hleast hwritten ?_
      rw [hpow, Nat.one_mul]
      exact Nat.mul_le_mul_right _ hle
    exact resolution_le_hundredThousandth.trans (Nat.mul_le_mul_right _ hunits)
  · intro hle
    by_contra hlt
    have hupper : x.units ≤ hundredThousandth.units := by
      refine units_le_units hpos (by decide) hwritten hleast ?_
      rw [hpow, Nat.one_mul]
      exact Nat.mul_le_mul_right _ (not_le.1 hlt).le
    have hlower : hundredThousandth.units ≤ x.units :=
      units_le_units (by decide) resolution_pos hleast (nearest?_units x)
        ((Nat.one_mul resolution).le.trans hle)
    -- Only the nearest magnitude itself is left, and it is written as `0.00001`.
    have hx : x = hundredThousandth := units_injective (le_antisymm hupper hlower)
    have hexact : hundredThousandth.written .even = Nat.pow 10 1069 := by decide +kernel
    rw [hx, hexact] at hlt
    exact hlt le_rfl

end Magnitude

/-! ### Texts -/

namespace NumberStyle

lemma plain_toList_of_nil (style : NumberStyle) {d : Decimal} (h : d.positional.2 = []) :
    (style.plain d).toList = d.positional.1 ++ if style.pointZero then ['.', '0'] else [] := by
  unfold plain
  split
  · rename_i front hpositional
    rw [hpositional]
    cases style.pointZero <;> simp
  · rename_i front back hback hpositional
    rw [hpositional] at h
    exact absurd h hback

lemma mem_scientific (style : NumberStyle) (d : Decimal) : 'e' ∈ (style.scientific d).toList := by
  simp only [scientific, String.toList_append, List.mem_append]
  exact .inl (.inl (.inr (by decide)))

end NumberStyle

namespace Magnitude

variable {x : Magnitude}

lemma document_eq (x : Magnitude) :
    Json.numberStyle.magnitude x =
      if -4 ≤ (x.shortest .even).point ∧ (x.shortest .even).point ≤ 16 then
        Json.numberStyle.plain (x.shortest .even)
      else Json.numberStyle.scientific (x.shortest .even) := rfl

/-- Every number in a document has a point or an exponent. -/
lemma mark_mem_document (x : Magnitude) :
    '.' ∈ (Json.numberStyle.magnitude x).toList ∨ 'e' ∈ (Json.numberStyle.magnitude x).toList := by
  rw [document_eq]
  split
  · left
    by_cases hback : (x.shortest .even).positional.2 = []
    · rw [NumberStyle.plain_toList_of_nil _ hback]
      simp [Json.numberStyle]
    · rw [NumberStyle.plain_toList _ hback]
      simp
  · exact .inr (NumberStyle.mem_scientific _ _)

/-- In running text a number has no exponent, and a whole number has no point. -/
lemma text_toList (x : Magnitude) :
    (Binary64.textStyle.magnitude x).toList =
      (x.shortest .up).positional.1 ++
        if x.isWhole then [] else '.' :: (x.shortest .up).positional.2 := by
  have hmagnitude : Binary64.textStyle.magnitude x = Binary64.textStyle.plain (x.shortest .up) := rfl
  rw [hmagnitude]
  cases hwhole : x.isWhole with
  | true => exact NumberStyle.plain_toList_of_nil _ (positional_of_isWhole hwhole)
  | false => exact NumberStyle.plain_toList _ (numeral_shortest hwhole .up).back_ne_nil

lemma mem_text {c : Char} (h : c ∈ (Binary64.textStyle.magnitude x).toList) :
    c.isDigit = true ∨ c = '.' ∧ x.isWhole = false := by
  have hdigit := isDigit_shortest x .up
  rw [text_toList] at h
  rcases List.mem_append.1 h with hfront | hback
  · exact .inl (hdigit c (List.mem_append_left _ hfront))
  · cases hwhole : x.isWhole with
    | true => simp [hwhole] at hback
    | false =>
      rw [hwhole] at hback
      rcases List.mem_cons.1 hback with rfl | hback
      · exact .inr ⟨rfl, rfl⟩
      · exact .inl (hdigit c (List.mem_append_right _ hback))

/-- The layout around the point tells the digits that are written. -/
lemma shortest_eq_of_positional (hmantissa : x.mantissa ≠ 0)
    (h : (x.shortest .up).positional = (x.shortest .even).positional) :
    x.shortest .up = x.shortest .even := by
  have hup := value_shortest hmantissa .up
  have heven := value_shortest hmantissa .even
  rw [h, heven] at hup
  have hwritten := Nat.eq_of_mul_eq_mul_right (Nat.pow_pos (by decide)) hup
  rw [shortest_eq hmantissa, shortest_eq hmantissa, hwritten]

lemma not_mem_text_e : 'e' ∉ (Binary64.textStyle.magnitude x).toList := by
  intro h
  rcases mem_text h with hdigit | ⟨hpoint, -⟩
  · exact absurd hdigit (by decide)
  · exact absurd hpoint (by decide)

/-- Two layouts with digits behind the point are the same text only if they are the same layout. -/
lemma plain_eq_iff (hwhole : x.isWhole = false) :
    Binary64.textStyle.magnitude x = Json.numberStyle.plain (x.shortest .even) ↔
      x.shortest .up = x.shortest .even := by
  have hmantissa := mantissa_ne_zero hwhole
  have hpoint : ∀ {c}, c ∈ (x.shortest .up).positional.1 ++ (x.shortest .up).positional.2 →
      c ≠ '.' := by
    rintro c hc rfl
    exact absurd (isDigit_shortest x .up '.' hc) (by decide)
  have hdocument := NumberStyle.plain_toList Json.numberStyle
    (numeral_shortest hwhole .even).back_ne_nil
  rw [← String.toList_inj, text_toList, hwhole, hdocument]
  constructor
  · intro h
    obtain ⟨hfront, -, hback⟩ := (List.append_cons_inj_of_notMem
      (fun hc => hpoint (List.mem_append_left _ hc) rfl)
      (fun hc => hpoint (List.mem_append_right _ hc) rfl)).1 h
    exact shortest_eq_of_positional hmantissa (Prod.ext hfront hback)
  · intro h
    rw [h]
    rfl

/-- **When the two texts agree.**  A number is written alike in running text and in a document exactly if it
is not whole, is at least `0.00001`, and has shortest digits that do not depend on how ties are broken. -/
theorem text_eq_iff (x : Magnitude) :
    Binary64.textStyle.magnitude x = Json.numberStyle.magnitude x ↔
      x.isWhole = false ∧ resolution ≤ x.units * 100000 ∧ x.shortest .up = x.shortest .even := by
  cases hwhole : x.isWhole with
  | true =>
    refine iff_of_false (fun h => ?_) (by simp)
    rcases mark_mem_document x with hmark | hmark
    · rw [← h] at hmark
      rcases mem_text hmark with hdigit | ⟨-, hfraction⟩
      · exact absurd hdigit (by decide)
      · rw [hwhole] at hfraction
        cases hfraction
    · rw [← h] at hmark
      exact not_mem_text_e hmark
  | false =>
    have hmantissa := mantissa_ne_zero hwhole
    rw [← le_point_iff hmantissa, document_eq]
    by_cases hpoint : -4 ≤ (x.shortest .even).point
    · rw [if_pos ⟨hpoint, point_le_of_not_isWhole hwhole⟩, plain_eq_iff hwhole]
      exact ⟨fun h => ⟨rfl, hpoint, h⟩, fun h => h.2.2⟩
    · rw [if_neg fun h => hpoint h.1]
      refine iff_of_false (fun h => ?_) fun h => hpoint h.2.1
      have hmark := NumberStyle.mem_scientific Json.numberStyle (x.shortest .even)
      rw [← h] at hmark
      exact not_mem_text_e hmark

end Magnitude

end FilterLang
