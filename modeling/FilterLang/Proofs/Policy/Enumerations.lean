import FilterLang.Proofs.Number.Whole
import FilterLang.Proofs.Policy.Requirements

/-!
# Enumerations of whole numbers

A rule may list the values of a field.  A number is compared with them as a double, so that it does not
matter whether it was written with a point.  Two whole numbers that are rounded to the same double are
therefore taken for one value, and an enumeration accepts a number beside the ones that it lists.

This file says which numbers are accepted, and which enumerations are exact: those of numbers that share
their double with no other (`HasOwnDouble`).
-/

namespace FilterLang

/-! ## Words as doubles -/

/-- The word is of at most 53 bits, or one of every four words of 54 bits. -/
def HasOwnDouble (n : Int64) : Prop :=
  n.toInt.natAbs < 2 ^ 53 ∨ n.toInt.natAbs < 2 ^ 54 ∧ n.toInt.natAbs % 4 = 2

instance (n : Int64) : Decidable (HasOwnDouble n) := inferInstanceAs (Decidable (_ ∨ _ ∧ _))

lemma natAbs_toInt_le (n : Int64) : n.toInt.natAbs ≤ 2 ^ 63 := by
  have hlow := Int64.le_toInt n
  have hhigh := Int64.toInt_lt n
  omega

lemma int_sameValue_iff {a b : Int64} :
    (Scalar.int a).sameValue (.int b) = true ↔ keptWhole a.toInt = keptWhole b.toInt := by
  simp only [Scalar.sameValue, Scalar.asFloat?]
  exact Binary64.ofInt_same_iff (natAbs_toInt_le a) (natAbs_toInt_le b)

/-- A word with the sign of another and a magnitude of its own. -/
lemma exists_toInt {m : Int64} {k : Nat} (hm : m.toInt ≠ 0) (hk : k < 2 ^ 63) (hpos : 0 < k) :
    ∃ n : Int64, n.toInt.sign = m.toInt.sign ∧ n.toInt.natAbs = k := by
  rcases lt_or_gt_of_ne hm with hneg | hpos'
  · refine ⟨.ofInt (-k), ?_⟩
    rw [Int64.toInt_ofInt_of_le (by omega) (by omega), Int.sign_eq_neg_one_of_neg hneg,
      Int.sign_eq_neg_one_of_neg (by omega)]
    exact ⟨rfl, by omega⟩
  · refine ⟨.ofInt k, ?_⟩
    rw [Int64.toInt_ofInt_of_le (by omega) (by omega), Int.sign_eq_one_of_pos hpos',
      Int.sign_eq_one_of_pos (by omega)]
    exact ⟨rfl, by omega⟩

/-- The words that share their double with no other. -/
lemma hasOwnDouble_iff {m : Int64} :
    HasOwnDouble m ↔ ∀ n : Int64, keptWhole m.toInt = keptWhole n.toInt → n = m := by
  constructor
  · intro h n heq
    obtain ⟨hsign, hnearest⟩ := keptWhole_eq_iff.1 heq
    have habs := eq_of_nearestWhole_eq h hnearest.symm
    rw [← Int64.toInt_inj, ← Int.sign_mul_natAbs n.toInt, ← Int.sign_mul_natAbs m.toInt, habs, hsign]
  · intro h
    by_contra hown
    rw [HasOwnDouble, not_or] at hown
    obtain ⟨k, hk, hne, hnearest⟩ :=
      exists_same_nearestWhole (Nat.not_lt.1 hown.1) (natAbs_toInt_le m) hown.2
    have hpos : 0 < k := by
      rw [Nat.pos_iff_ne_zero, Ne, ← nearestWhole_eq_zero_iff, hnearest, nearestWhole_eq_zero_iff]
      omega
    obtain ⟨n, hsign, habs⟩ := exists_toInt (m := m) (by omega) hk hpos
    have heq := h n (keptWhole_eq_iff.2 ⟨hsign.symm, by rw [habs, hnearest]⟩)
    exact hne (by rw [← habs, heq])

/-! ## Enumerations -/

/-- The rule that a field is one of some whole numbers. -/
def enumeration (values : List Int64) : FieldRule :=
  FieldRule.withEnumValues { fieldType := .enum } (values.map .int)

/-- The whitelist with this rule for a field and nothing else. -/
def Whitelist.enumerating (field : String) (values : List Int64) : Whitelist :=
  Whitelist.withRule {} field (enumeration values)

/-- An enumeration accepts a word: it lists one that is rounded to the same whole number. -/
def Enumerates (values : List Int64) (n : Int64) : Prop :=
  ∃ m ∈ values, keptWhole m.toInt = keptWhole n.toInt

variable {field : String} {values : List Int64} {op : Operator} {value : Value}

lemma enumeration_suits_iff {n : Int64} :
    (enumeration values).Suits .enum (.int n) ↔ Enumerates values n := by
  constructor
  · intro h
    cases h with
    | enum _ listed same =>
      obtain ⟨m, hm, rfl⟩ := List.mem_map.1 listed
      exact ⟨m, hm, int_sameValue_iff.1 same⟩
  · rintro ⟨m, hm, heq⟩
    exact .enum (by simp) (List.mem_map_of_mem hm) (int_sameValue_iff.2 heq)

/-- The rule is all that the whitelist asks for beyond the kind of value. -/
lemma enumerating_check_eq_ok_iff (accepts : op.accepts value = true) :
    (Whitelist.enumerating field values).check (.comparison field op value) = .ok () ↔
      (enumeration values).Fits op value := by
  have hrule : (Whitelist.enumerating field values).rule? field = some (enumeration values) := by
    simp [Whitelist.enumerating, Whitelist.rule?, Whitelist.withRule, insertRule]
  rw [Whitelist.check, ← Whitelist.accepts_iff_check]
  constructor
  · exact fun h => h.fits _ hrule
  · intro h
    refine ⟨nofun, nofun, accepts, fun rule hrule' => ?_, fun rule hrule' => ?_⟩
    · obtain rfl := Option.some.inj (hrule.symm.trans hrule')
      exact nofun
    · obtain rfl := Option.some.inj (hrule.symm.trans hrule')
      exact h

lemma enumerating_check_single_iff (isPlain : op.isPlain = true) {n : Int64} :
    (Whitelist.enumerating field values).check (.comparison field op (.scalar (.int n))) = .ok () ↔
      Enumerates values n := by
  have accepts : op.accepts (.scalar (.int n)) = true := by
    simp_all [Operator.isPlain, Operator.accepts_scalar]
  rw [enumerating_check_eq_ok_iff accepts, ← enumeration_suits_iff]
  constructor
  · intro h
    cases h with
    | single _ suits => exact suits
  · exact .single isPlain

lemma enumerating_check_members_iff (takesList : op.takesList = true) {items : List Int64} :
    (Whitelist.enumerating field values).check (.comparison field op (.list (items.map .int))) = .ok () ↔
      ∀ n ∈ items, Enumerates values n := by
  have accepts : op.accepts (.list (items.map .int)) = true := by
    cases op <;> first | rfl | cases takesList
  rw [enumerating_check_eq_ok_iff accepts]
  simp only [← enumeration_suits_iff]
  constructor
  · intro h n hn
    cases h with
    | members _ suit => exact suit _ (List.mem_map_of_mem hn)
    | array isPlain => simp_all [Operator.isPlain]
  · intro h
    refine .members takesList ?_
    rw [List.forall_mem_map]
    exact h

/-- An end of a range, which may be open. -/
def boundOf (bound : Option Int64) : Scalar := bound.elim .null .int

lemma enumerating_check_bounds_iff {lower upper : Option Int64} :
    (Whitelist.enumerating field values).check
        (.comparison field .between (.range (boundOf lower) (boundOf upper))) = .ok () ↔
      ∀ bound ∈ [lower, upper], ∀ n, bound = some n → Enumerates values n := by
  have hends : [boundOf lower, boundOf upper] = [lower, upper].map boundOf := rfl
  rw [enumerating_check_eq_ok_iff rfl]
  simp only [← enumeration_suits_iff]
  constructor
  · intro h bound hbound n hn
    cases h with
    | bounds suit =>
      subst hn
      rw [hends] at suit
      exact suit (.int n) (List.mem_map.2 ⟨some n, hbound, rfl⟩) (by simp)
  · intro h
    refine .bounds fun literal hliteral hnull => ?_
    rw [hends] at hliteral
    obtain ⟨bound, hbound, rfl⟩ := List.mem_map.1 hliteral
    cases bound with
    | none => exact absurd rfl hnull
    | some n => exact h (some n) hbound n rfl

/-- Numbers that share their double with no other are enumerated exactly. -/
lemma enumerates_iff_mem (h : ∀ m ∈ values, HasOwnDouble m) {n : Int64} :
    Enumerates values n ↔ n ∈ values := by
  constructor
  · rintro ⟨m, hm, heq⟩
    rwa [hasOwnDouble_iff.1 (h m hm) n heq]
  · intro hn
    exact ⟨n, hn, rfl⟩

lemma sameValue_iff_eq_iff {m : Int64} :
    (∀ n, (Scalar.int m).sameValue (.int n) = true ↔ n = m) ↔ HasOwnDouble m := by
  simp only [int_sameValue_iff]
  rw [hasOwnDouble_iff]
  refine forall_congr' fun n => ⟨Iff.mp, fun h => ⟨h, ?_⟩⟩
  rintro rfl
  rfl

/-- **Which whole numbers an enumeration accepts.**  Under the rule that a field is one of some words, a word
is accepted if it is rounded to the same whole number of 53 bits as one of them: as a single value, and as
each item of a list and each end of a range.  So the enumeration is exact if its words share their double
with no other, and these are the words of 53 bits and one of every four words of 54 bits: for no other word
is being the same value the same as being equal. -/
theorem enumerating_accepts_iff (field : String) (values : List Int64) :
    (∀ (op : Operator) (n : Int64), op.isPlain = true →
      ((Whitelist.enumerating field values).check (.comparison field op (.scalar (.int n))) = .ok () ↔
        Enumerates values n)) ∧
    (∀ (op : Operator) (items : List Int64), op.takesList = true →
      ((Whitelist.enumerating field values).check
          (.comparison field op (.list (items.map .int))) = .ok () ↔
        ∀ n ∈ items, Enumerates values n)) ∧
    (∀ lower upper : Option Int64,
      (Whitelist.enumerating field values).check
          (.comparison field .between (.range (boundOf lower) (boundOf upper))) = .ok () ↔
        ∀ bound ∈ [lower, upper], ∀ n, bound = some n → Enumerates values n) ∧
    ((∀ m ∈ values, HasOwnDouble m) → ∀ n, Enumerates values n ↔ n ∈ values) ∧
    ∀ m : Int64, (∀ n, (Scalar.int m).sameValue (.int n) = true ↔ n = m) ↔ HasOwnDouble m := by
  refine ⟨fun op n isPlain => ?_, fun op items takesList => ?_, fun lower upper => ?_, fun h n => ?_,
    fun m => ?_⟩
  · exact enumerating_check_single_iff isPlain
  · exact enumerating_check_members_iff takesList
  · exact enumerating_check_bounds_iff
  · exact enumerates_iff_mem h
  · exact sameValue_iff_eq_iff

/-- The least word of more than 53 bits is not told from the next one; the one behind that shares its double
with no other. -/
theorem enumerating_accepts_iff_twoPow53 :
    ((9007199254740993 : Int64) ∉ [(9007199254740992 : Int64)] ∧
      (Whitelist.enumerating "f" [9007199254740992]).check
        (.comparison "f" .eq (.scalar (.int 9007199254740993))) = .ok ()) ∧
    ((Whitelist.enumerating "f" [9223372036854775807]).check
      (.comparison "f" .between (.range .null (.int 9223372036854775806))) = .ok ()) ∧
    (∀ n, (Whitelist.enumerating "f" [-9007199254740991, 9007199254740994]).check
      (.comparison "f" .ne (.scalar (.int n))) = .ok () ↔ n ∈ [-9007199254740991, 9007199254740994]) := by
  obtain ⟨single, -, -, -, -⟩ := enumerating_accepts_iff "f" [9007199254740992]
  obtain ⟨-, -, bounds, -, -⟩ := enumerating_accepts_iff "f" [9223372036854775807]
  obtain ⟨plain, -, -, hexact, -⟩ := enumerating_accepts_iff "f" [-9007199254740991, 9007199254740994]
  refine ⟨⟨by decide, (single .eq _ rfl).2 ?_⟩, (bounds none (some 9223372036854775806)).2 ?_, fun n => ?_⟩
  · exact ⟨_, List.mem_singleton_self _, by decide +kernel⟩
  · rintro bound hbound n rfl
    obtain rfl : n = 9223372036854775806 := by simpa using hbound
    exact ⟨_, List.mem_singleton_self _, by decide +kernel⟩
  · have hown : ∀ m ∈ [(-9007199254740991 : Int64), 9007199254740994], HasOwnDouble m :=
      List.forall_mem_cons.2 ⟨by decide, List.forall_mem_singleton.2 (by decide)⟩
    exact (plain .ne n rfl).trans (hexact hown n)

end FilterLang
