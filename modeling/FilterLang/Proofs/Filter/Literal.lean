import FilterLang.Filter.Printer
import FilterLang.Proofs.Number.Written
import FilterLang.Proofs.Query.Progress
import FilterLang.Proofs.Text.Classes

/-!
# Printed literals

Every literal but an infinite number and the missing result is printed in a form that the lexer reads
back as the same literal, and that ends where it should: whatever a printed literal may be followed by
is left for the next token.  The main statement is `Lexer.token_print`.
-/

namespace FilterLang

/-- The literal is neither infinite nor the missing result. -/
def Scalar.isFinite : Scalar → Bool
  | .float value => value.isFinite
  | _ => true

namespace Value

/-- The literals of a value. -/
def literals : Value → List Scalar
  | .scalar value => [value]
  | .list items => items
  | .range lower upper => [lower, upper]

/-- Every literal of the value is finite. -/
def isFinite (value : Value) : Bool := value.literals.all Scalar.isFinite

/-- The literal that the value is written as: a range is written as the list of its ends. -/
def written : Value → Value
  | .range lower upper => .list [lower, upper]
  | value => value

end Value

namespace Lexer

open Text (skipBlanks isBlank)

/-! ### Strings -/

lemma stringBody_escapeLiteral (start : List Char) (c : Char) (cs : List Char) :
    stringBody '"' start (escapeLiteral c ++ cs) =
      match stringBody '"' start cs with
      | .ok (body, rest) => .ok (c :: body, rest)
      | .error fault => .error fault := by
  unfold escapeLiteral
  split
  · rfl
  · rfl
  · rfl
  · rfl
  · rfl
  · rename_i hquote hslash _ _ _
    rw [List.singleton_append, stringBody.eq_def]
    exact (if_neg hquote).trans (if_neg hslash)

lemma stringBody_escaped (start body rest : List Char) :
    stringBody '"' start (body.flatMap escapeLiteral ++ '"' :: rest) = .ok (body, rest) := by
  induction body with
  | nil =>
    rw [List.flatMap_nil, List.nil_append, stringBody.eq_def]
    rfl
  | cons c body ih =>
    rw [List.flatMap_cons, List.append_assoc, stringBody_escapeLiteral, ih]

lemma string_print (value : String) (rest : List Char) :
    string '"' ((Scalar.str value).print.toList ++ rest) = .ok (.str value, rest) := by
  have htext : (Scalar.str value).print.toList ++ rest =
      '"' :: (value.toList.flatMap escapeLiteral ++ '"' :: rest) := by
    simp [Scalar.print]
  rw [htext, string, List.tail_cons, stringBody_escaped]
  simp

/-! ### Numbers -/

lemma head?_ne_sign {run rest : List Char} (hrun : ∀ c ∈ run, isNumberChar c = true)
    (hrest : Ends rest) : (run ++ rest).head? ≠ some '-' := by
  intro hsign
  cases run with
  | nil =>
    rcases hrest '-' hsign with h | h | h | h <;> exact absurd h (by decide)
  | cons c run =>
    obtain rfl : c = '-' := by simpa using hsign
    exact absurd (hrun '-' (by simp)) (by decide)

/-- A run of digits and points is read up to its end, and the sign in front of it is seen. -/
lemma number_signText {negative : Bool} {run rest : List Char}
    (hrun : ∀ c ∈ run, isNumberChar c = true) (hform : wellFormedNumber run = true)
    (hsign : (run ++ rest).head? ≠ some '-') (hnumber : ∀ c ∈ rest.head?, isNumberChar c = false)
    (hword : startsWord rest = false) :
    number (signText negative ++ (run ++ rest)) = .ok (numberValue negative run, rest) := by
  have hspan : (run ++ rest).span isNumberChar = (run, rest) := span_append hrun hnumber
  have hread : (wellFormedNumber run && !startsWord rest) = true := by simp [hform, hword]
  cases negative with
  | true =>
    simp only [number, signText, if_true, List.cons_append, List.nil_append, List.head?_cons,
      beq_self_eq_true, List.tail_cons, hspan, hread]
  | false =>
    have hpositive : ((run ++ rest).head? == some '-') = false := beq_eq_false_iff_ne.mpr hsign
    simp only [number, signText, Bool.false_eq_true, if_false, List.nil_append, hpositive, hspan, hread,
      if_true]

lemma number_run {negative : Bool} {run rest : List Char}
    (hrun : ∀ c ∈ run, isNumberChar c = true) (hform : wellFormedNumber run = true)
    (hrest : Ends rest) :
    number (signText negative ++ (run ++ rest)) = .ok (numberValue negative run, rest) :=
  number_signText hrun hform (head?_ne_sign hrun hrest) hrest.isNumberChar hrest.startsWord

lemma wellFormedNumber_of_notMem {run : List Char} (hpoint : '.' ∉ run) :
    wellFormedNumber run = true := by
  have hhead : run.head? ≠ some '.' := fun h => hpoint (List.mem_of_head? h)
  have hlast : run.getLast? ≠ some '.' := fun h => hpoint (List.mem_of_getLast? h)
  simp [wellFormedNumber, List.count_eq_zero.mpr hpoint, hhead, hlast]

lemma wellFormedNumber_point {front back : List Char} (hfront : front ≠ []) (hback : back ≠ [])
    (hpoint : '.' ∉ front ∧ '.' ∉ back) : wellFormedNumber (front ++ '.' :: back) = true := by
  have hcount : (front ++ '.' :: back).count '.' = 1 := by
    rw [List.count_append, List.count_cons_self, List.count_eq_zero.mpr hpoint.1,
      List.count_eq_zero.mpr hpoint.2]
  have hhead : (front ++ '.' :: back).head? ≠ some '.' := by
    rw [List.head?_append_of_ne_nil _ hfront]
    exact fun h => hpoint.1 (List.mem_of_head? h)
  have hlast : (front ++ '.' :: back).getLast? ≠ some '.' := by
    rw [List.getLast?_append_of_ne_nil _ (List.cons_ne_nil _ _), List.getLast?_cons_of_ne_nil hback]
    exact fun h => hpoint.2 (List.mem_of_getLast? h)
  simp only [wellFormedNumber, Bool.and_eq_true, decide_eq_true_eq, bne_iff_ne]
  exact ⟨⟨by omega, hhead⟩, hlast⟩

/-- Digits on both sides of a point are a number. -/
lemma number_point {negative : Bool} {x : Magnitude} {front back rest : List Char}
    (h : x.Numeral front back) (hrest : Ends rest) :
    number (signText negative ++ ((front ++ '.' :: back) ++ rest)) =
      .ok (.float (.finite negative x), rest) := by
  have hpoint : '.' ∉ front ∧ '.' ∉ back := by
    rw [← not_or, ← List.mem_append]
    exact fun hmem => absurd (h.isDigit '.' hmem) (by decide)
  have hrun : ∀ c ∈ front ++ '.' :: back, isNumberChar c = true := by
    intro c hc
    rw [List.mem_append, List.mem_cons] at hc
    rcases hc with hc | rfl | hc
    · exact isNumberChar_of_isDigit (h.isDigit c (by simp [hc]))
    · rfl
    · exact isNumberChar_of_isDigit (h.isDigit c (by simp [hc]))
  -- the first point that is met is the one between the digits
  have hspan : (front ++ '.' :: back).span (· != '.') = (front, '.' :: back) := by
    refine span_append (fun c hc => bne_iff_ne.mpr ?_) (by simp)
    rintro rfl
    exact hpoint.1 hc
  rw [List.span_eq_takeWhile_dropWhile, Prod.mk.injEq] at hspan
  have hcontains : (front ++ '.' :: back).contains '.' = true := by simp
  have hvalue : numberValue negative (front ++ '.' :: back) = .float (.finite negative x) := by
    -- the places are rewritten one by one: a single `simp` would unfold the rounding
    rw [numberValue, if_pos hcontains]
    dsimp only
    rw [hspan.1, hspan.2, List.tail_cons, h.reads, Binary64.signed]
  rw [number_run hrun (wellFormedNumber_point h.front_ne_nil h.back_ne_nil hpoint) hrest, hvalue]

lemma ofInt?_toInt (value : Int64) : Scalar.ofInt? value.toInt = some (.int value) := by
  have hbounds : Int64.minValue.toInt ≤ value.toInt ∧ value.toInt ≤ Int64.maxValue.toInt :=
    ⟨Int64.le_toInt value, Int64.toInt_le value⟩
  rw [Scalar.ofInt?, if_pos hbounds, Int64.ofInt_toInt]

lemma toList_toString_int (n : Int) :
    (toString n).toList = signText (decide (n < 0)) ++ digitsOfNat n.natAbs := by
  cases n with
  | ofNat n =>
    have hsign : decide (Int.ofNat n < 0) = false := by simp
    rw [hsign]
    change (Nat.repr n).toList = [] ++ Nat.toDigits 10 n
    simp [Nat.repr]
  | negSucc n =>
    have htext : toString (Int.negSucc n) = "-" ++ Nat.repr (n + 1) := by
      simp [toString, Int.repr]
    rw [htext, decide_eq_true (Int.negSucc_lt_zero n)]
    change _ = ['-'] ++ Nat.toDigits 10 (n + 1)
    simp [Nat.repr]

/-- Digits without a point are a whole number, if it fits into a signed word. -/
lemma number_digits (value : Int64) {rest : List Char} (hrest : Ends rest) :
    number (signText (decide (value.toInt < 0)) ++ (digitsOfNat value.toInt.natAbs ++ rest)) =
      .ok (.int value, rest) := by
  have hpoint : '.' ∉ digitsOfNat value.toInt.natAbs :=
    fun h => absurd (isDigit_of_mem_digitsOfNat h) (by decide)
  have hcontains : (digitsOfNat value.toInt.natAbs).contains '.' = false := by
    simpa using hpoint
  have hint : (if decide (value.toInt < 0) then -(value.toInt.natAbs : Int)
      else value.toInt.natAbs) = value.toInt := by
    by_cases hneg : value.toInt < 0
    · simp only [hneg, decide_true, if_true]
      omega
    · simp only [hneg, decide_false, Bool.false_eq_true, if_false]
      omega
  have hvalue : numberValue (decide (value.toInt < 0)) (digitsOfNat value.toInt.natAbs) =
      .int value := by
    simp only [numberValue, hcontains, Bool.false_eq_true, if_false, natOfDigits_digitsOfNat, hint,
      ofInt?_toInt]
  rw [number_run (fun c hc => isNumberChar_of_isDigit (isDigit_of_mem_digitsOfNat hc))
    (wellFormedNumber_of_notMem hpoint) hrest, hvalue]

/-! ### Single literals -/

lemma startsNumber_signText (negative : Bool) {d : Char} (hd : d.isDigit = true) (cs : List Char) :
    startsNumber (signText negative ++ d :: cs) = true := by
  cases negative with
  | true => exact hd
  | false =>
    have hsign : d ≠ '-' := by
      rintro rfl
      exact absurd hd (by decide)
    change startsNumber (d :: cs) = true
    unfold startsNumber
    split
    · rename_i heq
      exact absurd (List.cons.inj heq).1 hsign
    · exact hd

/-- A literal that is a word reads as itself, whatever token it is read for. -/
lemma wordLiteral?_print {word : String} {literal : Scalar} (h : (word, literal) ∈ wordLiterals)
    {rest : List Char} (hrest : Ends rest) :
    wordLiteral? (word.toList ++ rest) = some (literal, rest) ∧
      Lexer.word (word.toList ++ rest) = (.literal (.scalar literal), rest) := by
  have hend := hrest.startsWord
  simp only [wordLiterals, List.mem_cons, Prod.mk.injEq, List.not_mem_nil, or_false] at h
  rcases h with ⟨rfl, rfl⟩ | ⟨rfl, rfl⟩ | ⟨rfl, rfl⟩ <;>
    constructor <;>
    simp [wordLiteral?, wordLiterals, Lexer.word, keywordTokens, Operator.keywords, Operator.name,
      connectives, behindKeyword?, hend]

/-- The three forms of a printed literal, and how each is read. -/
inductive PrintedForm (literal : Scalar) : Prop where
  /-- A text between quotes. -/
  | quoted (body : List Char) (print : literal.print.toList = '"' :: body)
      (reads : ∀ rest, string '"' (literal.print.toList ++ rest) = .ok (literal, rest))
  /-- Digits behind a sign. -/
  | numeric (starts : ∀ rest, startsNumber (literal.print.toList ++ rest) = true)
      (reads : ∀ rest, Ends rest → number (literal.print.toList ++ rest) = .ok (literal, rest))
  /-- A word. -/
  | worded (named : (literal.print, literal) ∈ wordLiterals)

lemma PrintedForm.of_digits {literal : Scalar} {negative : Bool} {run : List Char}
    (htext : literal.print.toList = signText negative ++ run)
    (hrun : ∃ d digits, run = d :: digits ∧ d.isDigit = true)
    (hreads : ∀ rest, Ends rest → number (signText negative ++ (run ++ rest)) = .ok (literal, rest)) :
    PrintedForm literal := by
  obtain ⟨d, digits, rfl, hd⟩ := hrun
  refine .numeric (fun rest => ?_) (fun rest hrest => ?_)
  · rw [htext, List.append_assoc]
    exact startsNumber_signText negative hd (digits ++ rest)
  · rw [htext, List.append_assoc]
    exact hreads rest hrest

/-- Every finite literal is printed in one of the three forms. -/
lemma printedForm {literal : Scalar} (h : literal.isFinite = true) : PrintedForm literal := by
  cases literal with
  | null => exact .worded (by simp [wordLiterals, Scalar.print])
  | bool value => cases value <;> exact .worded (by simp [wordLiterals, Scalar.print])
  | int value =>
    refine .of_digits (toList_toString_int value.toInt) ?_ fun rest hrest =>
      number_digits value hrest
    obtain ⟨d, digits, hdigits⟩ := List.exists_cons_of_ne_nil
      (Nat.toDigits_ne_nil : Nat.toDigits 10 value.toInt.natAbs ≠ [])
    exact ⟨d, digits, hdigits, isDigit_of_mem_digitsOfNat (by rw [digitsOfNat, hdigits]; simp)⟩
  | float value =>
    cases value with
    | nan => exact absurd h (by decide)
    | infinite negative => exact absurd h Bool.false_ne_true
    | finite negative x =>
      obtain ⟨front, back, hnumeral, htext⟩ := Binary64.literal_reads_back negative x
      refine .of_digits htext ?_ fun rest hrest => number_point hnumeral hrest
      obtain ⟨d, digits, rfl⟩ := List.exists_cons_of_ne_nil hnumeral.front_ne_nil
      exact ⟨d, digits ++ '.' :: back, rfl, hnumeral.isDigit d (by simp)⟩
  | str value =>
    exact .quoted (value.toList.flatMap escapeLiteral ++ ['"']) (by simp [Scalar.print])
      (string_print value)

/-- The texts of the numbers that are not finite. -/
lemma print_of_not_isFinite {literal : Scalar} (h : literal.isFinite = false) :
    literal.print = "NaN" ∨ literal.print = "inf" ∨ literal.print = "-inf" := by
  cases literal with
  | float value =>
    cases value with
    | nan => exact Or.inl rfl
    | infinite negative =>
      cases negative with
      | false => exact Or.inr (Or.inl rfl)
      | true => exact Or.inr (Or.inr rfl)
    | finite negative x => exact absurd h (by simp [Scalar.isFinite, Binary64.isFinite])
  | _ => exact absurd h (by simp [Scalar.isFinite])

/-- The first character of a printed literal is not blank and does not close a list. -/
lemma print_head (literal : Scalar) :
    ∃ c cs, literal.print.toList = c :: cs ∧ isBlank c = false ∧ c ≠ ']' := by
  cases hfinite : literal.isFinite with
  | false =>
    rcases print_of_not_isFinite hfinite with htext | htext | htext <;> rw [htext] <;>
      exact ⟨_, _, rfl, by decide, by decide⟩
  | true =>
    cases printedForm hfinite with
    | quoted body print _ => exact ⟨'"', body, print, by decide, by decide⟩
    | numeric starts _ =>
      -- a number starts with its sign or a digit, and neither is blank
      have hstarts := starts []
      rw [List.append_nil] at hstarts
      cases htext : literal.print.toList with
      | nil =>
        rw [htext] at hstarts
        exact absurd hstarts (by decide)
      | cons c cs =>
        rw [htext] at hstarts
        refine ⟨c, cs, rfl, ?_, ne_of_startsNumber hstarts (by decide)⟩
        rcases head_of_startsNumber hstarts with rfl | hdigit
        · rfl
        · exact isBlank_of_isWordChar (isWordChar_of_isDigit hdigit)
    | worded named =>
      simp only [wordLiterals, List.mem_cons, Prod.mk.injEq, List.not_mem_nil, or_false] at named
      rcases named with ⟨htext, -⟩ | ⟨htext, -⟩ | ⟨htext, -⟩ <;> rw [htext] <;>
        exact ⟨_, _, rfl, by decide, by decide⟩

/-- A printed literal is read as an element of a list. -/
lemma element_print {literal : Scalar} (h : PrintedForm literal) {rest : List Char}
    (hrest : Ends rest) : element (literal.print.toList ++ rest) = .ok (literal, rest) := by
  cases h with
  | quoted body print reads =>
    rw [← reads rest, print]
    rfl
  | numeric starts reads => rw [element_number (starts rest), reads rest hrest]
  | worded named =>
    have hreads := (wordLiteral?_print named hrest).1
    simp only [wordLiterals, List.mem_cons, Prod.mk.injEq, List.not_mem_nil, or_false] at named
    rcases named with ⟨htext, -⟩ | ⟨htext, -⟩ | ⟨htext, -⟩ <;> rw [htext] at hreads ⊢ <;>
      exact element_word (by decide) (by decide) hreads

/-- A printed literal is read as a token. -/
lemma token_print_scalar {literal : Scalar} (h : PrintedForm literal) {rest : List Char}
    (hrest : Ends rest) :
    token (literal.print.toList ++ rest) = .ok (.literal (.scalar literal), rest) := by
  cases h with
  | quoted body print reads =>
    have hreads := reads rest
    rw [print] at hreads ⊢
    change literalToken (string '"' ('"' :: body ++ rest)) = _
    rw [hreads, literalToken]
  | numeric starts reads => rw [token_number (starts rest), reads rest hrest, literalToken]
  | worded named =>
    have hreads := (wordLiteral?_print named hrest).2
    simp only [wordLiterals, List.mem_cons, Prod.mk.injEq, List.not_mem_nil, or_false] at named
    rcases named with ⟨htext, -⟩ | ⟨htext, -⟩ | ⟨htext, -⟩ <;> rw [htext] at hreads ⊢ <;>
      exact (token_word (by decide) (by decide)).trans (congrArg Except.ok hreads)

/-! ### Lists -/

/-- Behind a comma and a blank the next literal starts. -/
lemma separator_next (start : List Char) {c : Char} {cs : List Char} (hblank : isBlank c = false)
    (hclose : c ≠ ']') : separator start (',' :: ' ' :: c :: cs) = .ok (.next, c :: cs) := by
  have hskip : skipBlanks (',' :: ' ' :: c :: cs) = ',' :: ' ' :: c :: cs := rfl
  have hmore : skipBlanks (' ' :: c :: cs) = c :: cs := by
    rw [Text.skipBlanks_space, Text.skipBlanks_of_not_blank hblank]
  simp [separator, hskip, hmore, hclose]

/-- The literals of a list as they stand between its brackets. -/
def itemsText (items : List Scalar) : List Char :=
  [',', ' '].intercalate (items.map fun literal => literal.print.toList)

lemma itemsText_cons (literal next : Scalar) (items : List Scalar) :
    itemsText (literal :: next :: items) =
      literal.print.toList ++ ',' :: ' ' :: itemsText (next :: items) := by
  simp [itemsText, List.intercalate_cons_cons]

lemma itemsText_head {items : List Scalar} (hnil : items ≠ []) :
    ∃ c cs, itemsText items = c :: cs ∧ isBlank c = false ∧ c ≠ ']' := by
  obtain ⟨literal, items, rfl⟩ := List.exists_cons_of_ne_nil hnil
  obtain ⟨c, cs, hprint, hblank, hclose⟩ := print_head literal
  cases items with
  | nil => exact ⟨c, cs, by simp [itemsText, hprint], hblank, hclose⟩
  | cons next items => exact ⟨c, _, by rw [itemsText_cons, hprint]; rfl, hblank, hclose⟩

/-- A text that is read as an element of a list, wherever a literal may end. -/
structure IsElement (text : List Char) (literal : Scalar) : Prop where
  head : ∃ c cs, text = c :: cs ∧ isBlank c = false ∧ c ≠ ']'
  reads : ∀ rest, Ends rest → element (text ++ rest) = .ok (literal, rest)

/-- Elements with a comma and a blank between them. -/
inductive Listed : List Char → List Scalar → Prop
  | single {text : List Char} {literal : Scalar} : IsElement text literal → Listed text [literal]
  | cons {text more : List Char} {literal : Scalar} {items : List Scalar} :
      IsElement text literal → Listed more items →
        Listed (text ++ ',' :: ' ' :: more) (literal :: items)

lemma Listed.head {text : List Char} {items : List Scalar} (h : Listed text items) :
    ∃ c cs, text = c :: cs ∧ isBlank c = false ∧ c ≠ ']' := by
  cases h with
  | single hliteral => exact hliteral.head
  | cons hliteral _ =>
    obtain ⟨c, cs, rfl, hc⟩ := hliteral.head
    exact ⟨c, _, rfl, hc⟩

lemma Listed.length_le {text : List Char} {items : List Scalar} (h : Listed text items) :
    items.length ≤ text.length := by
  induction h with
  | single hliteral =>
    obtain ⟨c, cs, rfl, -⟩ := hliteral.head
    simp
  | cons _ _ ih =>
    simp only [List.length_append, List.length_cons]
    omega

/-- The elements are read one after the other up to the closing bracket. -/
lemma Listed.elements {text : List Char} {items : List Scalar} (h : Listed text items)
    (start rest : List Char) {rounds : Nat} (hrounds : items.length ≤ rounds) :
    elements start rounds (text ++ ']' :: rest) = .ok (items, rest) := by
  induction h generalizing rounds with
  | @single text literal hliteral =>
    cases rounds with
    | zero => exact absurd hrounds (Nat.not_succ_le_zero _)
    | succ rounds =>
      rw [Lexer.elements, hliteral.reads _ (ends_cons (by simp) rest)]
      rfl
  | @cons text more literal items hliteral hitems ih =>
    cases rounds with
    | zero => exact absurd hrounds (Nat.not_succ_le_zero _)
    | succ rounds =>
      obtain ⟨c, cs, rfl, hblank, hclose⟩ := hitems.head
      have hmore := ih (Nat.le_of_succ_le_succ hrounds)
      rw [List.cons_append] at hmore
      have hread := hliteral.reads (',' :: ' ' :: c :: (cs ++ ']' :: rest)) (ends_cons (by simp) _)
      rw [Lexer.elements, List.append_assoc]
      simp only [List.cons_append, hread, separator_next start hblank hclose, hmore]

lemma Listed.list {text : List Char} {items : List Scalar} (h : Listed text items)
    (rest : List Char) : list ('[' :: (text ++ ']' :: rest)) = .ok (items, rest) := by
  have hrounds := h.length_le
  obtain ⟨c, cs, hhead, hblank, hclose⟩ := h.head
  have hskip : skipBlanks (text ++ ']' :: rest) = text ++ ']' :: rest := by
    rw [hhead, List.cons_append, Text.skipBlanks_of_not_blank hblank]
  have hopen : (text ++ ']' :: rest).head? ≠ some ']' := by
    rw [hhead]
    simpa using hclose
  rw [Lexer.list, List.tail_cons, hskip, if_neg hopen]
  exact h.elements _ rest (by simp; omega)

/-- The literals of a printed list. -/
lemma listed_print {items : List Scalar} (hnil : items ≠ [])
    (hform : ∀ literal ∈ items, PrintedForm literal) : Listed (itemsText items) items := by
  induction items with
  | nil => exact absurd rfl hnil
  | cons literal items ih =>
    have hliteral : IsElement literal.print.toList literal :=
      ⟨print_head literal, fun _ => element_print (hform literal (by simp))⟩
    cases items with
    | nil => simpa [itemsText] using Listed.single hliteral
    | cons next items =>
      rw [itemsText_cons]
      exact .cons hliteral
        (ih (List.cons_ne_nil _ _) fun other hother => hform other (List.mem_cons_of_mem _ hother))

lemma printList_toList (items : List Scalar) (rest : List Char) :
    (Scalar.printList items).toList ++ rest = '[' :: (itemsText items ++ ']' :: rest) := by
  simp [Scalar.printList, itemsText, String.toList_intercalate, Function.comp_def]

/-- Behind the opening bracket of a printed list its literals are read, unless there are none. -/
lemma list_printList {items : List Scalar} (hnil : items ≠ []) (rest : List Char) :
    list ((Scalar.printList items).toList ++ rest) =
      elements ((Scalar.printList items).toList ++ rest)
        ((Scalar.printList items).toList ++ rest).length (itemsText items ++ ']' :: rest) := by
  obtain ⟨c, cs, hhead, hblank, hclose⟩ := itemsText_head hnil
  have hskip : skipBlanks (itemsText items ++ ']' :: rest) = itemsText items ++ ']' :: rest := by
    rw [hhead, List.cons_append, Text.skipBlanks_of_not_blank hblank]
  have hopen : (itemsText items ++ ']' :: rest).head? ≠ some ']' := by
    rw [hhead]
    simpa using hclose
  rw [printList_toList, list, List.tail_cons, hskip, if_neg hopen]

/-- A printed list is read as a list. -/
lemma list_print {items : List Scalar} (hform : ∀ literal ∈ items, PrintedForm literal)
    (rest : List Char) :
    list ((Scalar.printList items).toList ++ rest) = .ok (items, rest) := by
  by_cases hnil : items = []
  · subst hnil
    rfl
  · rw [printList_toList]
    exact (listed_print hnil hform).list rest

lemma token_printList (items : List Scalar) (rest : List Char) :
    token ((Scalar.printList items).toList ++ rest) =
      match list ((Scalar.printList items).toList ++ rest) with
      | .ok (items, rest) => .ok (.literal (.list items), rest)
      | .error fault => .error fault := by
  rw [printList_toList]
  rfl

/-- A printed value does not start with a blank. -/
lemma skipBlanks_print (value : Value) (rest : List Char) :
    skipBlanks (value.print.toList ++ rest) = value.print.toList ++ rest := by
  have hlist (items : List Scalar) :
      skipBlanks ((Scalar.printList items).toList ++ rest) =
        (Scalar.printList items).toList ++ rest := by
    simp only [Scalar.printList, String.toList_append]
    rfl
  cases value with
  | scalar literal =>
    obtain ⟨c, cs, hprint, hblank, -⟩ := print_head literal
    simp only [Value.print, hprint, List.cons_append, Text.skipBlanks_of_not_blank hblank]
  | list items => exact hlist items
  | range lower upper => exact hlist [lower, upper]

/-- A printed value is read as one token, which ends where the printed text does. -/
lemma token_print {value : Value} (h : value.isFinite = true) {rest : List Char}
    (hrest : Ends rest) : token (value.print.toList ++ rest) = .ok (.literal value.written, rest) := by
  have hform : ∀ literal ∈ value.literals, PrintedForm literal :=
    fun literal hmem => printedForm (List.all_eq_true.mp h literal hmem)
  have hlist {items : List Scalar} (hitems : ∀ literal ∈ items, PrintedForm literal) :
      token ((Scalar.printList items).toList ++ rest) = .ok (.literal (.list items), rest) := by
    rw [token_printList, list_print hitems]
  cases value with
  | scalar literal => exact token_print_scalar (hform literal (by simp [Value.literals])) hrest
  | list items => exact hlist hform
  | range lower upper => exact hlist hform

end Lexer

end FilterLang
