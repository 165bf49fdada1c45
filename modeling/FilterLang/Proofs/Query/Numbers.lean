import FilterLang.Proofs.Number.Numeral
import FilterLang.Proofs.Query.Spacing

/-!
# Numbers are numerals

The reader of numbers collects digits and points as long as there are any and judges the run afterwards: how many
points it has, what stands at its two ends, and what stands behind it.  What passes is a numeral, with nothing
behind it that could go on with it (`Lexer.number_eq_ok_iff`).

The reader gives the value of a run without another look at its text.  `Lexer.numberByText?` hands the text to the
reader of decimal texts instead, which refuses many texts but never one that passes (`Lexer.numberByText?_eq`).
-/

namespace FilterLang

/-- The numeral without a point is a whole number that fits into a signed word. -/
def Numeral.FitsWord (n : Numeral) : Prop := -2 ^ 63 ≤ n.exact ∧ n.exact ≤ 2 ^ 63 - 1

/-- The literal that a numeral is: the whole number itself if there is no point and the number fits into a word,
and otherwise the nearest number of the 64-bit format. -/
inductive Numeral.Denotes (n : Numeral) : Scalar → Prop
  | int {k : Int64} : n.fraction = [] → k.toInt = n.exact → n.Denotes (.int k)
  | float : (n.fraction = [] → ¬ n.FitsWord) → n.Denotes (.float n.double)

namespace Lexer

/-! ### The run of a numeral -/

section

variable (n : Numeral)

lemma isNumberChar_run : ∀ c ∈ n.run, isNumberChar c = true := by
  intro c hc
  have hdigit : c ∈ n.whole ++ n.fraction → isNumberChar c = true :=
    fun hc => isNumberChar_of_isDigit (n.isDigit c hc)
  rcases n.run_cases with ⟨-, hrun⟩ | ⟨-, hrun⟩
  · exact hdigit (List.mem_append_left _ (hrun ▸ hc))
  · rw [hrun, List.mem_append, List.mem_cons] at hc
    rcases hc with hc | rfl | hc
    · exact hdigit (List.mem_append_left _ hc)
    · rfl
    · exact hdigit (List.mem_append_right _ hc)

lemma wellFormedNumber_run : wellFormedNumber n.run = true := by
  rcases n.run_cases with ⟨-, hrun⟩ | ⟨hpoint, hrun⟩
  · rw [hrun]
    exact wellFormedNumber_of_notMem n.point_notMem.1
  · rw [hrun]
    exact wellFormedNumber_point n.whole_ne_nil hpoint n.point_notMem

lemma contains_run : n.run.contains '.' = !decide (n.fraction = []) := by
  rcases n.run_cases with ⟨hpoint, hrun⟩ | ⟨hpoint, hrun⟩
  · rw [hrun]
    simpa [hpoint] using n.point_notMem.1
  · rw [hrun]
    simp [hpoint]

/-- The value of a run is the whole number, if there is no point and it fits, and else the nearest number. -/
lemma numberValue_run : numberValue n.negative n.run =
    (if n.fraction = [] then Scalar.ofInt? n.exact else none).getD (.float n.double) := by
  rcases n.run_cases with ⟨hpoint, hrun⟩ | ⟨hpoint, hrun⟩
  · have hdouble : Binary64.signed n.negative (Magnitude.ofPlaces? (natOfDigits n.whole) 0) = n.double := by
      rw [Numeral.double, hpoint, List.append_nil]
      rfl
    have hcontains : n.run.contains '.' = false := by rw [contains_run, hpoint]; rfl
    rw [numberValue, hcontains, hrun, if_neg Bool.false_ne_true, if_pos hpoint]
    dsimp only
    rw [hdouble, ← Numeral.exact]
    cases Scalar.ofInt? n.exact <;> rfl
  · -- the first point that is met is the one between the digits
    have hspan : (n.whole ++ '.' :: n.fraction).span (· != '.') = (n.whole, '.' :: n.fraction) := by
      refine span_append (fun c hc => bne_iff_ne.mpr ?_) (by simp)
      rintro rfl
      exact n.point_notMem.1 hc
    rw [List.span_eq_takeWhile_dropWhile, Prod.mk.injEq] at hspan
    have hcontains : n.run.contains '.' = true := by rw [contains_run, decide_eq_false hpoint]; rfl
    rw [numberValue, if_pos hcontains, if_neg hpoint, hrun]
    dsimp only
    rw [hspan.1, hspan.2]
    rfl

lemma fitsWord_iff :
    n.FitsWord ↔ Int64.minValue.toInt ≤ n.exact ∧ n.exact ≤ Int64.maxValue.toInt := by
  have hmin : Int64.minValue.toInt = -2 ^ 63 := by decide
  have hmax : Int64.maxValue.toInt = 2 ^ 63 - 1 := by decide
  rw [Numeral.FitsWord, hmin, hmax]

lemma denotes_iff {v : Scalar} : n.Denotes v ↔ v = numberValue n.negative n.run := by
  rw [numberValue_run]
  constructor
  · intro h
    cases h with
    | int hpoint hk =>
      rw [if_pos hpoint, ← hk, ofInt?_toInt]
      rfl
    | float hlarge =>
      split_ifs with hpoint
      · rw [Scalar.ofInt?, if_neg (mt (fitsWord_iff n).2 (hlarge hpoint))]
        rfl
      · rfl
  · rintro rfl
    split_ifs with hpoint
    · by_cases hfits : n.FitsWord
      · rw [Scalar.ofInt?, if_pos ((fitsWord_iff n).1 hfits)]
        exact .int hpoint (Int64.toInt_ofInt_of_le hfits.1 (Int.lt_of_le_sub_one hfits.2))
      · rw [Scalar.ofInt?, if_neg (mt (fitsWord_iff n).2 hfits)]
        exact .float fun _ => hfits
    · exact .float fun hnil => absurd hnil hpoint

lemma startsNumber_text (rest : List Char) : startsNumber (n.text ++ rest) = true := by
  obtain ⟨d, ds, hrun, hd⟩ := n.exists_run_eq_cons
  rw [Numeral.text, hrun, List.append_assoc]
  exact startsNumber_signText n.negative hd _

lemma number_text {rest : List Char} (hrest : Apart rest) :
    number (n.text ++ rest) = .ok (numberValue n.negative n.run, rest) := by
  rw [Numeral.text, List.append_assoc]
  refine number_signText (isNumberChar_run n) (wellFormedNumber_run n) ?_ hrest.isNumberChar hrest.startsWord
  obtain ⟨d, ds, hrun, hd⟩ := n.exists_run_eq_cons
  simpa [hrun] using ne_sign_of_isDigit hd

end

/-- A run that starts with a digit and passes the tests is a numeral. -/
lemma exists_numeral_of_run (negative : Bool) {d : Char} {ds : List Char}
    (hrun : ∀ c ∈ d :: ds, isNumberChar c = true) (hform : wellFormedNumber (d :: ds) = true) :
    ∃ n : Numeral, n.negative = negative ∧ n.run = d :: ds := by
  have hdigit : ∀ c ∈ d :: ds, c ≠ '.' → c.isDigit = true := by
    intro c hc hpoint
    simpa [isNumberChar, hpoint] using hrun c hc
  simp only [wellFormedNumber, Bool.and_eq_true, decide_eq_true_eq, bne_iff_ne] at hform
  obtain ⟨⟨hcount, hhead⟩, hlast⟩ := hform
  by_cases hpoint : '.' ∈ d :: ds
  · obtain ⟨whole, fraction, hsplit⟩ := List.append_of_mem hpoint
    rw [hsplit] at hdigit hcount hhead hlast ⊢
    have hone : '.' ∉ whole ++ fraction := by
      rw [List.count_append, List.count_cons_self] at hcount
      rw [← List.count_eq_zero, List.count_append]
      omega
    have hwhole : whole ≠ [] := by
      rintro rfl
      exact hhead rfl
    have hfraction : fraction ≠ [] := by
      rintro rfl
      exact hlast (by simp)
    refine ⟨⟨negative, whole, fraction, hwhole, ?_⟩, rfl, ?_⟩
    · intro c hc
      refine hdigit c ?_ fun heq => hone (heq ▸ hc)
      rw [List.mem_append] at hc ⊢
      exact hc.imp_right (List.mem_cons_of_mem _)
    · rw [Numeral.run, if_neg hfraction]
  · refine ⟨⟨negative, d :: ds, [], List.cons_ne_nil _ _, ?_⟩, rfl, by simp [Numeral.run]⟩
    intro c hc
    rw [List.append_nil] at hc
    exact hdigit c hc fun heq => hpoint (heq ▸ hc)

lemma number_eq_ok_iff {cs rest : List Char} {v : Scalar} (hstart : startsNumber cs = true) :
    number cs = .ok (v, rest) ↔ ∃ n : Numeral, cs = n.text ++ rest ∧ n.Denotes v ∧ Apart rest := by
  constructor
  · intro h
    obtain ⟨negative, d, ds, rfl, -, hrun, hform, rfl, hrest⟩ := exists_run_of_number hstart h
    obtain ⟨n, rfl, hn⟩ := exists_numeral_of_run negative hrun hform
    refine ⟨n, ?_, ?_, hrest⟩
    · rw [Numeral.text, hn, List.append_assoc]
    · rw [denotes_iff, hn]
  · rintro ⟨n, rfl, hv, hrest⟩
    rw [number_text n hrest, ← (denotes_iff n).1 hv]

/-- A numeral is an integer, and then the one that it is, if and only if it has no point and fits into a word. -/
lemma denotes_cases {n : Numeral} {v : Scalar} (h : n.Denotes v) :
    (n.fraction = [] → ((∃ k : Int64, v = .int k ∧ k.toInt = n.exact) ↔ n.FitsWord)) ∧
      (¬ (n.fraction = [] ∧ n.FitsWord) → v = .float n.double) := by
  cases h with
  | @int k hpoint hk =>
    have hfits : n.FitsWord := (fitsWord_iff n).2 (hk ▸ ⟨Int64.le_toInt k, Int64.toInt_le k⟩)
    exact ⟨fun _ => ⟨fun _ => hfits, fun _ => ⟨k, rfl, hk⟩⟩, fun hnot => absurd ⟨hpoint, hfits⟩ hnot⟩
  | float hlarge =>
    refine ⟨fun hpoint => ⟨?_, fun hfits => absurd hfits (hlarge hpoint)⟩, fun _ => rfl⟩
    rintro ⟨k, hk, -⟩
    cases hk

/-! ### Numbers by way of their texts -/

/-- A number read by way of its text: characters are collected and judged; a text without a point is a whole
number, if it fits, and every other text is given to the reader of decimal texts.  If that reader takes no such
text there is no answer. -/
def numberByText? (start : List Char) : Option (Scan Scalar) :=
  let negative := start.head? == some '-'
  let (run, rest) := (if negative then start.tail else start).span isNumberChar
  let lexeme := String.ofList (if negative then '-' :: run else run)
  if wellFormedNumber run && !startsWord rest then
    let whole? := if run.contains '.' then none
      else Scalar.ofInt? (if negative then -natOfDigits run else natOfDigits run)
    (whole?.or ((Binary64.ofText? lexeme).map .float)).map fun v => .ok (v, rest)
  else some (.error ⟨.invalidNumber lexeme, start, rest⟩)

/-- There always is an answer. -/
lemma numberByText?_eq {cs : List Char} (h : startsNumber cs = true) :
    numberByText? cs = some (number cs) := by
  obtain ⟨negative, d, ds, rfl, hd⟩ := exists_sign_of_startsNumber h
  obtain ⟨hsign, hbody⟩ := head_signText negative hd ds
  have hrun : (d :: ds).takeWhile isNumberChar = d :: ds.takeWhile isNumberChar :=
    List.takeWhile_cons_of_pos (isNumberChar_of_isDigit hd)
  simp only [numberByText?, number, hsign, hbody, List.span_eq_takeWhile_dropWhile]
  by_cases hread : (wellFormedNumber ((d :: ds).takeWhile isNumberChar) &&
      !startsWord ((d :: ds).dropWhile isNumberChar)) = true
  · rw [if_pos hread, if_pos hread]
    rw [Bool.and_eq_true, hrun] at hread
    have hchars : ∀ c ∈ d :: ds.takeWhile isNumberChar, isNumberChar c = true :=
      fun c hc => List.mem_takeWhile_imp (hrun ▸ hc)
    obtain ⟨n, rfl, hn⟩ := exists_numeral_of_run negative hchars hread.1
    have hlexeme : (if n.negative then '-' :: n.run else n.run) = n.text := by
      rw [Numeral.text]
      cases n.negative <;> rfl
    have hwhole : (if n.run.contains '.' then none
        else Scalar.ofInt? (if n.negative then -natOfDigits n.run else natOfDigits n.run)) =
        if n.fraction = [] then Scalar.ofInt? n.exact else none := by
      rw [contains_run]
      rcases n.run_cases with ⟨hpoint, hwhole⟩ | ⟨hpoint, -⟩
      · simp [hpoint, hwhole, Numeral.exact]
      · simp [hpoint]
    rw [hrun, ← hn, hlexeme, hwhole, n.ofText?_text, Option.map_some, Option.or_some, Option.map_some,
      numberValue_run]
  · rw [if_neg hread, if_neg hread]

end Lexer

end FilterLang
