import FilterLang.Proofs.Sql.Reading

/-!
# Placeholders and parameters

A text is scanned for placeholders without knowing how it came about: `scan` goes through the characters
once, keeps track of double quotes, and notes every dollar sign outside of them with the digits behind it.

The text of a clause shows the numbers of its values, in order (`Clause.shows`).  Whatever stands in a name,
dollar signs and quotes included, shows nothing.  A compiled filter numbers its values from one on, so that
its text shows every number once, and its parameters are the literals of its comparisons from left to right.
-/

namespace FilterLang.Sql

/-! ## Scanning a text -/

/-- The placeholders of a text from left to right: a dollar sign and the digits behind it, outside of
double quotes.  The flag says that the text starts inside of them; a doubled quote ends a name and starts
it again. -/
def scan (quoted : Bool) : List Char → List (List Char)
  | [] => []
  | c :: rest =>
    if c = '"' then scan (!quoted) rest
    else if c = '$' ∧ quoted = false then (c :: rest.takeWhile Char.isDigit) :: scan quoted rest
    else scan quoted rest

/-- The placeholders of a text from left to right. -/
def placeholdersIn (text : String) : List String := (scan false text.toList).map String.ofList

/-- No quote and no dollar sign stands in the text. -/
def plain (cs : List Char) : Bool := cs.all fun c => c != '"' && c != '$'

/-- The text shows these placeholders, whatever follows it, unless a digit does. -/
def Shows (cs : List Char) (found : List (List Char)) : Prop :=
  ∀ rest, EndsNumber rest → scan false (cs ++ rest) = found ++ scan false rest

lemma scan_plain {cs : List Char} (h : plain cs = true) (rest : List Char) :
    scan false (cs ++ rest) = scan false rest := by
  induction cs with
  | nil => rfl
  | cons c cs ih =>
    simp only [plain, List.all_cons, Bool.and_eq_true, bne_iff_ne] at h
    obtain ⟨⟨hquote, hdollar⟩, hcs⟩ := h
    rw [List.cons_append, scan, if_neg hquote, if_neg fun hc => hdollar hc.1]
    exact ih hcs

lemma shows_plain {cs : List Char} (h : plain cs = true) : Shows cs [] :=
  fun rest _ => scan_plain h rest

lemma endsNumber_append {a b : List Char} (ha : EndsNumber a) (hb : EndsNumber b) :
    EndsNumber (a ++ b) := by
  cases a with
  | nil => exact hb
  | cons c a => exact ha

namespace Shows

variable {a b : List Char} {x y : List (List Char)}

lemma append (ha : Shows a x) (hb : Shows b y) (hends : EndsNumber b) : Shows (a ++ b) (x ++ y) := by
  intro rest hrest
  rw [List.append_assoc, ha _ (endsNumber_append hends hrest), hb rest hrest, List.append_assoc]

/-- Behind words without placeholders, a digit may follow. -/
lemma behind (hb : Shows b y) (ha : plain a = true) : Shows (a ++ b) y := by
  intro rest hrest
  rw [List.append_assoc, scan_plain ha, hb rest hrest]

/-- A parenthesis behind the text ends its last number. -/
lemma closed (h : Shows a x) : Shows (a ++ [')']) x := by
  have hclosing : Shows [')'] [] := shows_plain rfl
  rw [← List.append_nil x]
  exact h.append hclosing (by simp [EndsNumber])

lemma scan_eq (h : Shows a x) : scan false a = x := by
  have hnil := h [] (by simp [EndsNumber])
  simpa [scan] using hnil

end Shows

/-- Items one after the other, each behind a mark. -/
lemma shows_marked {α : Type} {code : α → List Char} {found : α → List (List Char)} {mark : Char}
    {words : List Char} {items : List α} (hmark : mark.isDigit = false)
    (hwords : plain (mark :: words) = true) (hitems : ∀ item ∈ items, Shows (code item) (found item)) :
    Shows (marked code mark words items) (items.flatMap found) ∧
      EndsNumber (marked code mark words items) := by
  induction items with
  | nil => exact ⟨shows_plain rfl, by simp [marked, EndsNumber]⟩
  | cons item items ih =>
    rw [List.forall_mem_cons] at hitems
    obtain ⟨hshows, hends⟩ := ih hitems.2
    have hsplit : marked code mark words (item :: items) =
        (mark :: words) ++ (code item ++ marked code mark words items) := by
      simp [marked]
    rw [hsplit]
    exact ⟨(hitems.1.append hshows hends).behind hwords, by simpa [EndsNumber] using hmark⟩

/-! ## Names and numbers -/

/-- A name is scanned inside of quotes, up to the quote that ends it. -/
lemma scan_doubled (name rest : List Char) :
    scan true (doubled name ++ '"' :: rest) = scan false rest := by
  induction name with
  | nil => rfl
  | cons c name ih =>
    by_cases hc : c = '"'
    · subst hc
      exact ih
    · rw [doubled_cons hc, List.cons_append, scan, if_neg hc, if_neg (by simp)]
      exact ih

lemma shows_nameChars (name : String) : Shows (nameChars name) [] := by
  intro rest _
  rw [nameChars_eq, List.cons_append, List.append_assoc, scan, if_pos rfl]
  exact scan_doubled name.toList rest

lemma Column.shows (column : Column) : Shows column.chars [] := by
  obtain ⟨path, hpath⟩ := column
  obtain ⟨name, path, rfl⟩ := List.exists_cons_of_ne_nil hpath
  have hrest : Shows (marked nameChars '.' [] path) (path.flatMap fun _ => []) ∧
      EndsNumber (marked nameChars '.' [] path) :=
    shows_marked (by decide) (by decide) fun name _ => shows_nameChars name
  rw [List.flatMap_eq_nil_iff.2 fun _ _ => rfl] at hrest
  rw [Column.chars_cons]
  exact (shows_nameChars name).append hrest.1 hrest.2

lemma shows_placeholderChars (n : Nat) : Shows (placeholderChars n) [placeholderChars n] := by
  intro rest hrest
  have hdigits : plain (digitsOfNat n) = true := by
    refine List.all_eq_true.2 fun c hc => ?_
    have hdigit := isDigit_of_mem_digitsOfNat hc
    have hquote : c ≠ '"' := by
      rintro rfl
      exact absurd hdigit (by decide)
    have hdollar : c ≠ '$' := by
      rintro rfl
      exact absurd hdigit (by decide)
    simp [hquote, hdollar]
  rw [placeholderChars_eq, List.cons_append, scan, if_neg (by decide), if_pos ⟨rfl, rfl⟩,
    takeWhile_digits_append n hrest, scan_plain hdigits]
  rfl

/-! ## Clauses -/

lemma Predicate.shows (p : Predicate Nat) : Shows p.chars (p.values.map placeholderChars) := by
  have hopening : plain p.opening.toList = true := by
    have hall : openings.all (fun opening => plain opening.toList) = true := by decide
    exact List.all_eq_true.1 hall _ p.opening_mem
  have hseparator : (separator p.opening).1.isDigit = false ∧
      plain ((separator p.opening).1 :: (separator p.opening).2) = true := by
    rw [separator]
    split <;> decide
  have hclosing : plain (closing p.opening) = true ∧ EndsNumber (closing p.opening) := by
    rw [closing]
    split <;> exact ⟨rfl, by simp [EndsNumber]⟩
  have hvalues : Shows (((separator p.opening).1 :: (separator p.opening).2).intercalate
      (p.values.map placeholderChars)) (p.values.map placeholderChars) := by
    cases p.values with
    | nil => exact shows_plain rfl
    | cons first rest =>
      have hrest := shows_marked hseparator.1 hseparator.2 fun n (_ : n ∈ rest) => shows_placeholderChars n
      rw [← List.map_eq_flatMap] at hrest
      rw [intercalate_eq_marked]
      exact (shows_placeholderChars first).append hrest.1 hrest.2
  have hclosed := hvalues.append (shows_plain hclosing.1) hclosing.2
  rw [List.append_nil] at hclosed
  rw [chars_eq]
  exact hclosed.behind hopening

lemma Leaf.shows (leaf : Leaf Nat) : Shows leaf.chars (leaf.values.map placeholderChars) := by
  cases leaf with
  | on column predicate =>
    rw [Leaf.chars_on]
    exact column.shows.append (predicate.shows.behind (a := [' ']) rfl) (by simp [EndsNumber])
  | always => exact shows_plain rfl

namespace Clause

lemma valuesIn_eq_flatMap {α : Type} (clauses : List (Clause α)) :
    valuesIn clauses = clauses.flatMap values := by
  induction clauses with
  | nil => rfl
  | cons clause rest ih => rw [valuesIn, ih, List.flatMap_cons]

mutual

/-- The text of a clause shows the numbers of its values from left to right. -/
lemma shows : ∀ clause : Clause Nat, Shows clause.chars (clause.values.map placeholderChars)
  | .single leaf => by
    rw [chars_single, values]
    exact leaf.shows.closed.behind (a := ['(']) rfl
  | .group kind first second rest => by
    have hoperands : ∀ clause ∈ second :: rest, Shows clause.chars (clause.values.map placeholderChars) :=
      List.forall_mem_cons.2 ⟨shows second, showsIn rest⟩
    have hwords : plain (' ' :: joinerWords kind) = true := by cases kind <;> rfl
    obtain ⟨hmarked, hends⟩ := shows_marked (by decide) hwords hoperands
    have hgroup := (shows first).append hmarked.closed (endsNumber_append hends (by simp [EndsNumber]))
    have hvalues : (first.values ++ second.values ++ valuesIn rest).map placeholderChars =
        first.values.map placeholderChars ++
          (second :: rest).flatMap fun clause => clause.values.map placeholderChars := by
      rw [valuesIn_eq_flatMap, List.append_assoc, ← List.flatMap_cons, List.map_append, List.map_flatMap]
    rw [chars_group, values, hvalues]
    exact hgroup.behind (a := ['(']) rfl
  | .not child => by
    rw [chars_not, values]
    exact (shows child).closed.behind (a := ['(', 'N', 'O', 'T', ' ']) rfl

lemma showsIn : ∀ clauses : List (Clause Nat), ∀ clause ∈ clauses,
    Shows clause.chars (clause.values.map placeholderChars)
  | [] => by simp
  | clause :: rest => List.forall_mem_cons.2 ⟨shows clause, showsIn rest⟩

end

lemma placeholdersIn_text (clause : Clause Nat) :
    placeholdersIn clause.text = clause.values.map placeholderText := by
  have hscan : scan false clause.text.toList = clause.values.map placeholderChars := clause.shows.scan_eq
  rw [placeholdersIn, hscan, List.map_map]
  refine List.map_congr_left fun n _ => ?_
  exact String.ofList_toList

end Clause

/-! ## Numbering -/

section

variable {α : Type}

lemma numbers_add (bound m n : Nat) :
    numbers bound (m + n) = numbers bound m ++ numbers (bound + m) n := by
  rw [numbers, numbers, numbers, List.range_add, List.map_append, List.map_map]
  refine congrArg _ (List.map_congr_left fun i _ => ?_)
  simp only [Function.comp_apply]
  omega

lemma Predicate.values_number (bound : Nat) (p : Predicate α) :
    (p.number bound).values = numbers bound p.values.length := by
  cases p with
  | oneOf first rest | noneOf first rest =>
    rw [values, List.length_cons, numbers_succ]
    rfl
  | isNull | isNotNull | compare | between => rfl

lemma Leaf.values_number (bound : Nat) (leaf : Leaf α) :
    (leaf.number bound).values = numbers bound leaf.values.length := by
  cases leaf with
  | on column predicate => exact predicate.values_number bound
  | always => rfl

namespace Clause

mutual

/-- A numbered clause has consecutive numbers. -/
lemma values_number (bound : Nat) : ∀ clause : Clause α,
    (clause.number bound).values = numbers bound clause.values.length
  | .single leaf => leaf.values_number bound
  | .group kind first second rest => by
    simp only [number, values, values_number, valuesIn_numberIn, List.length_append, numbers_add,
      Nat.add_assoc, List.append_assoc]
  | .not child => values_number bound child

lemma valuesIn_numberIn (bound : Nat) : ∀ clauses : List (Clause α),
    valuesIn (numberIn bound clauses) = numbers bound (valuesIn clauses).length
  | [] => rfl
  | clause :: rest => by
    simp only [numberIn, valuesIn, values_number, valuesIn_numberIn, List.length_append, numbers_add]

end

/-! ## The values of a filter -/

lemma values_chain (kind : Connective) (clause : Clause α) :
    (clause.chain kind).1.values ++ valuesIn (clause.chain kind).2 = clause.values := by
  cases clause with
  | single leaf => exact List.append_nil _
  | not child => exact List.append_nil _
  | group k first second rest =>
    rw [chain]
    split
    · rw [values, valuesIn, List.append_assoc]
    · exact List.append_nil _

/-- Joining two clauses leaves their values in order. -/
lemma values_join (kind : Connective) (left right : Clause α) :
    (join kind left right).values = left.values ++ right.values := by
  rw [← values_chain kind left, ← values_chain kind right, join]
  rcases left.chain kind with ⟨first, _ | ⟨second, rest⟩⟩
  · simp [values, valuesIn]
  · simp [values, valuesIn, valuesIn_eq_flatMap]

end Clause

end

/-- The parameters that a comparison binds, from left to right: the items of a list one by one for a list
operator, a pattern for a pattern operator, the ends of a range that are not open, nothing for a comparison
with `null`, and otherwise the value as a whole, be it a list or not. -/
def boundBy : Operator → Value → List Json
  | .isIn, .list items | .notIn, .list items => items.map Scalar.toJson
  | .between, .range lower upper => ([lower, upper].filter (! ·.isNull)).map Scalar.toJson
  | .contains, .scalar literal => [.str ("%" ++ literal.text ++ "%")]
  | .startsWith, .scalar literal => [.str (literal.text ++ "%")]
  | .endsWith, .scalar literal => [.str ("%" ++ literal.text)]
  | .eq, .scalar .null | .ne, .scalar .null => []
  | _, value => [value.toJson]

lemma Leaf.values_range {field : String} {lower upper : Scalar} {leaf : Leaf Json}
    (h : ofComparison? field .between (.range lower upper) = some leaf) :
    leaf.values = boundBy .between (.range lower upper) := by
  simp only [ofComparison?, Scalar.bound?] at h
  cases hlower : lower.isNull <;> cases hupper : upper.isNull <;>
    simp only [hlower, hupper, Bool.false_eq_true, if_true, if_false] at h <;>
    cases h <;> simp [boundBy, values, Predicate.values, hlower, hupper]

lemma Leaf.values_ofComparison {field : String} {op : Operator} {value : Value} {leaf : Leaf Json}
    (h : ofComparison? field op value = some leaf) : leaf.values = boundBy op value := by
  cases value with
  | scalar literal =>
    cases op with
    | eq | ne =>
      cases literal with
      | null | bool | int | float | str =>
        cases h
        rfl
    | gt | gte | lt | lte | contains | startsWith | endsWith =>
      cases h
      rfl
    | isIn | notIn | between => cases h
  | list items =>
    cases op with
    | eq | ne | gt | gte | lt | lte =>
      cases h
      rfl
    | isIn | notIn =>
      cases items with
      | nil => cases h
      | cons first rest =>
        cases h
        rfl
    | contains | startsWith | endsWith | between => cases h
  | range lower upper =>
    cases op with
    | between => exact Leaf.values_range h
    | _ => cases h

lemma Clause.values_ofFilter {t : Filter} {clause : Clause Json} (h : ofFilter? t = some clause) :
    clause.values = t.comparisons.flatMap fun c => boundBy c.2.1 c.2.2 := by
  induction t generalizing clause with
  | comparison field op value =>
    obtain ⟨leaf, hleaf, h⟩ := Option.bind_eq_some_iff.1 h
    cases h
    rw [values, Leaf.values_ofComparison hleaf]
    simp [Filter.comparisons]
  | logical kind left right ihleft ihright =>
    obtain ⟨l, hl, h⟩ := Option.bind_eq_some_iff.1 h
    obtain ⟨r, hr, h⟩ := Option.bind_eq_some_iff.1 h
    cases h
    rw [values_join, ihleft hl, ihright hr, Filter.comparisons, List.flatMap_append]
  | not child ih =>
    obtain ⟨c, hc, h⟩ := Option.bind_eq_some_iff.1 h
    cases h
    rw [values, ih hc, Filter.comparisons]

end FilterLang.Sql

namespace FilterLang.SqlQuery

open Sql

/-- **Placeholders and parameters line up.**  The placeholders of the text of a compiled filter, outside of
quoted names, are the numbers from one to that of its parameters, in this order and each of them once.  The
parameters are those that its comparisons bind, from left to right. -/
theorem compile_placeholders {t : Filter} {query : SqlQuery} (h : compile t = .ok query) :
    placeholdersIn query.text =
        (List.range query.params.length).map (fun n => "$" ++ toString (n + 1)) ∧
      query.params = t.comparisons.flatMap fun c => boundBy c.2.1 c.2.2 := by
  obtain ⟨condition, hcondition, hquery⟩ := bind_eq_ok_iff.mp h
  obtain rfl := Except.ok.inj hquery
  obtain ⟨clause, hclause, rfl⟩ := Clause.exists_clause hcondition
  simp only [Clause.params_toCondition, Clause.text_toCondition]
  refine ⟨?_, Clause.values_ofFilter hclause⟩
  rw [Clause.placeholdersIn_text, Clause.values_number, numbers, List.map_map]
  refine List.map_congr_left fun n _ => ?_
  rw [Function.comp_apply, Nat.zero_add, placeholderText]

/-- Names with dollar signs and quotes in them, values that look like placeholders, and comparisons that
bind several parameters, one, or none. -/
def dollarSigns : Filter :=
  .or
    (.not (.and (.comparison "$1\".$2" .isIn (.list [.int 7, .str "$9"]))
      (.comparison "b" .eq (.scalar .null))))
    (.and (.comparison "\"$3" .ne (.list [.int 1, .null]))
      (.and (.comparison "c" .between (.range .null (.int 5)))
        (.comparison "d" .startsWith (.scalar (.str "$")))))

/-- The text of this filter. -/
def dollarText : String :=
  "((NOT ((\"$1\"\"\".\"$2\" IN ($1, $2)) AND (\"b\" IS NULL)))"
    ++ " OR ((\"\"\"$3\" <> $3) AND (\"c\" <= $4) AND (\"d\" LIKE $5)))"

theorem compile_placeholders_dollarSigns :
    compile dollarSigns =
        .ok ⟨dollarText, [.int 7, .str "$9", .arr [.int 1, .null], .int 5, .str "$%"]⟩ ∧
      placeholdersIn dollarText = ["$1", "$2", "$3", "$4", "$5"] ∧
      [.int 7, .str "$9", .arr [.int 1, .null], .int 5, .str "$%"] =
        dollarSigns.comparisons.flatMap fun c => boundBy c.2.1 c.2.2 := by
  have hcompile : compile dollarSigns =
      .ok ⟨dollarText, [.int 7, .str "$9", .arr [.int 1, .null], .int 5, .str "$%"]⟩ := by
    rfl
  obtain ⟨hfound, hparams⟩ := compile_placeholders hcompile
  exact ⟨hcompile, hfound.trans (by decide +kernel), hparams⟩

end FilterLang.SqlQuery
