import FilterLang.Proofs.Number.Written
import FilterLang.Proofs.Sql.Clause

/-!
# SQL conditions can be read in one way

The text of a clause determines the clause (`Clause.text_injective`), whatever follows it
(`Clause.chars_append_inj`).  Each part of the grammar is followed by a character that cannot go on with
it: behind a quoted name there is no further quote, behind a number no further digit, and a predicate is
told by the words that open it, none of which is the beginning of another.  So every part comes off the
front of the text in one way, and what is left is the same.
-/

namespace FilterLang.Sql

/-! ### Items one after the other -/

/-- Items one after the other, each behind a mark. -/
def marked {α : Type} (code : α → List Char) (mark : Char) (words : List Char) (items : List α) :
    List Char :=
  items.flatMap fun item => mark :: (words ++ code item)

lemma intercalate_eq_marked {α : Type} (code : α → List Char) (mark : Char) (words : List Char)
    (item : α) (items : List α) :
    (mark :: words).intercalate ((item :: items).map code) =
      code item ++ marked code mark words items := by
  induction items generalizing item with
  | nil => simp [marked]
  | cons next items ih =>
    have hnext := ih next
    rw [List.map_cons] at hnext
    rw [List.map_cons, List.map_cons, List.intercalate_cons_cons, hnext]
    simp [marked]

/-- If an item is told by its text wherever it ends, so are all items up to the stop. -/
lemma marked_append_inj {α : Type} {code : α → List Char} {mark stop : Char} {words : List Char}
    (Ends : List Char → Prop) (hne : mark ≠ stop) (hmark : ∀ cs, Ends (mark :: cs))
    (hstop : ∀ cs, Ends (stop :: cs)) {xs ys : List α} {r s : List Char}
    (hcode : ∀ a ∈ xs, ∀ b r s, Ends r → Ends s → code a ++ r = code b ++ s → a = b ∧ r = s)
    (h : marked code mark words xs ++ stop :: r = marked code mark words ys ++ stop :: s) :
    xs = ys ∧ r = s := by
  have hends : ∀ (items : List α) (rest : List Char),
      Ends (marked code mark words items ++ stop :: rest) := by
    intro items rest
    cases items with
    | nil => exact hstop rest
    | cons item items => exact hmark _
  induction xs generalizing ys with
  | nil =>
    cases ys with
    | nil => exact ⟨rfl, (List.cons.inj h).2⟩
    | cons y ys => exact absurd (List.cons.inj h).1.symm hne
  | cons x xs ih =>
    cases ys with
    | nil => exact absurd (List.cons.inj h).1 hne
    | cons y ys =>
      simp only [marked, List.flatMap_cons, List.cons_append, List.append_assoc] at h
      have hitems := List.append_cancel_left (List.cons.inj h).2
      obtain ⟨rfl, htail⟩ := hcode x (by simp) y _ _ (hends xs r) (hends ys s) hitems
      obtain ⟨rfl, hrest⟩ := ih (fun a ha => hcode a (List.mem_cons_of_mem x ha)) htail
      exact ⟨rfl, hrest⟩

/-! ### Names and columns -/

lemma doubled_cons {c : Char} (hc : c ≠ '"') (name : List Char) :
    doubled (c :: name) = c :: doubled name := by
  simp [doubled, hc]

/-- A quote that no other quote follows ends a name. -/
lemma doubled_append_inj {a b r s : List Char} (hr : r.head? ≠ some '"') (hs : s.head? ≠ some '"')
    (h : doubled a ++ '"' :: r = doubled b ++ '"' :: s) : a = b ∧ r = s := by
  induction a generalizing b with
  | nil =>
    cases b with
    | nil => exact ⟨rfl, (List.cons.inj h).2⟩
    | cons d b =>
      by_cases hd : d = '"'
      · subst hd
        have htail : r = '"' :: (doubled b ++ '"' :: s) := (List.cons.inj h).2
        exact absurd (by rw [htail]; rfl) hr
      · rw [doubled_cons hd] at h
        exact absurd (List.cons.inj h).1.symm hd
  | cons c a ih =>
    cases b with
    | nil =>
      by_cases hc : c = '"'
      · subst hc
        have htail : '"' :: (doubled a ++ '"' :: r) = s := (List.cons.inj h).2
        exact absurd (by rw [← htail]; rfl) hs
      · rw [doubled_cons hc] at h
        exact absurd (List.cons.inj h).1 hc
    | cons d b =>
      by_cases hc : c = '"' <;> by_cases hd : d = '"'
      · subst hc hd
        obtain ⟨rfl, hrest⟩ := ih (List.cons.inj (List.cons.inj h).2).2
        exact ⟨rfl, hrest⟩
      · subst hc
        rw [doubled_cons hd] at h
        exact absurd (List.cons.inj h).1.symm hd
      · subst hd
        rw [doubled_cons hc] at h
        exact absurd (List.cons.inj h).1 hc
      · rw [doubled_cons hc, doubled_cons hd] at h
        obtain ⟨rfl, htail⟩ := List.cons.inj h
        obtain ⟨rfl, hrest⟩ := ih htail
        exact ⟨rfl, hrest⟩

/-- The characters of a name. -/
def nameChars (name : String) : List Char := (nameText name).toList

lemma nameChars_eq (name : String) : nameChars name = '"' :: (doubled name.toList ++ ['"']) := by
  simp [nameChars, nameText]

lemma nameChars_append_inj (a b : String) (r s : List Char) (hr : r.head? ≠ some '"')
    (hs : s.head? ≠ some '"') (h : nameChars a ++ r = nameChars b ++ s) : a = b ∧ r = s := by
  simp only [nameChars_eq, List.cons_append, List.append_assoc, List.nil_append] at h
  obtain ⟨hname, hrest⟩ := doubled_append_inj hr hs (List.cons.inj h).2
  exact ⟨String.toList_inj.mp hname, hrest⟩

/-- The characters of a column. -/
def Column.chars (column : Column) : List Char := column.text.toList

lemma Column.chars_cons {name : String} {path : List String} (hpath : name :: path ≠ []) :
    Column.chars ⟨name :: path, hpath⟩ = nameChars name ++ marked nameChars '.' [] path := by
  rw [← intercalate_eq_marked, Column.chars, Column.text, String.toList_intercalate, List.map_map]
  rfl

/-- A column is followed by a blank, which is no part of it outside quotes. -/
lemma Column.chars_append_inj {a b : Column} {r s : List Char}
    (h : a.chars ++ ' ' :: r = b.chars ++ ' ' :: s) : a = b ∧ r = s := by
  obtain ⟨path, hpath⟩ := a
  obtain ⟨path', hpath'⟩ := b
  obtain ⟨name, path, rfl⟩ := List.exists_cons_of_ne_nil hpath
  obtain ⟨name', path', rfl⟩ := List.exists_cons_of_ne_nil hpath'
  have hends : ∀ (path : List String) (rest : List Char),
      (marked nameChars '.' [] path ++ ' ' :: rest).head? ≠ some '"' := by
    intro path rest
    cases path <;> simp [marked]
  rw [Column.chars_cons, Column.chars_cons, List.append_assoc, List.append_assoc] at h
  obtain ⟨rfl, htail⟩ := nameChars_append_inj _ _ _ _ (hends path r) (hends path' s) h
  obtain ⟨rfl, hrest⟩ := marked_append_inj (fun cs => cs.head? ≠ some '"') (by decide)
    (by simp) (by simp) (fun a _ => nameChars_append_inj a) htail
  exact ⟨rfl, hrest⟩

lemma Column.chars_head (column : Column) : ∃ cs, column.chars = '"' :: cs := by
  obtain ⟨path, hpath⟩ := column
  obtain ⟨name, path, rfl⟩ := List.exists_cons_of_ne_nil hpath
  exact ⟨_, by rw [Column.chars_cons, nameChars_eq]; rfl⟩

/-! ### Placeholders -/

/-- The characters of a numbered value. -/
def placeholderChars (n : Nat) : List Char := (placeholderText n).toList

lemma placeholderChars_eq (n : Nat) : placeholderChars n = '$' :: digitsOfNat n := by
  simp [placeholderChars, placeholderText, toString, Nat.repr, digitsOfNat]

/-- No digit follows. -/
def EndsNumber (rest : List Char) : Prop := ∀ c ∈ rest.head?, c.isDigit = false

lemma takeWhile_digits_append (n : Nat) {r : List Char} (hr : EndsNumber r) :
    (digitsOfNat n ++ r).takeWhile Char.isDigit = digitsOfNat n := by
  rw [List.takeWhile_append_of_pos fun c hc => isDigit_of_mem_digitsOfNat hc]
  have hnil : r.takeWhile Char.isDigit = [] := by
    cases r with
    | nil => rfl
    | cons c r => exact List.takeWhile_cons_of_neg (by simp [hr c rfl])
  rw [hnil, List.append_nil]

lemma placeholderChars_append_inj (m n : Nat) (r s : List Char) (hr : EndsNumber r)
    (hs : EndsNumber s) (h : placeholderChars m ++ r = placeholderChars n ++ s) : m = n ∧ r = s := by
  simp only [placeholderChars_eq, List.cons_append] at h
  have htail := (List.cons.inj h).2
  have hdigits : digitsOfNat m = digitsOfNat n := by
    rw [← takeWhile_digits_append m hr, htail, takeWhile_digits_append n hs]
  have hvalue : m = n := by
    rw [← natOfDigits_digitsOfNat m, hdigits, natOfDigits_digitsOfNat]
  subst hvalue
  exact ⟨rfl, List.append_cancel_left htail⟩

/-- Values with the same words between them, up to the closing parenthesis. -/
lemma placeholders_append_inj {mark : Char} {words : List Char} (hmark : mark.isDigit = false)
    (hne : mark ≠ ')') {ms ns : List Nat} {r s : List Char}
    (h : (mark :: words).intercalate (ms.map placeholderChars) ++ ')' :: r =
      (mark :: words).intercalate (ns.map placeholderChars) ++ ')' :: s) : ms = ns ∧ r = s := by
  have hends : ∀ (items : List Nat) (rest : List Char),
      EndsNumber (marked placeholderChars mark words items ++ ')' :: rest) := by
    intro items rest c hc
    cases items with
    | nil =>
      obtain rfl : ')' = c := Option.some.inj hc
      decide
    | cons item items =>
      obtain rfl : mark = c := Option.some.inj hc
      exact hmark
  cases ms with
  | nil =>
    cases ns with
    | nil => exact ⟨rfl, (List.cons.inj h).2⟩
    | cons n ns =>
      rw [intercalate_eq_marked, placeholderChars_eq] at h
      exact absurd (List.cons.inj h).1 (by decide)
  | cons m ms =>
    cases ns with
    | nil =>
      rw [intercalate_eq_marked, placeholderChars_eq] at h
      exact absurd (List.cons.inj h).1 (by decide)
    | cons n ns =>
      rw [intercalate_eq_marked, intercalate_eq_marked, List.append_assoc, List.append_assoc] at h
      obtain ⟨rfl, htail⟩ := placeholderChars_append_inj m n _ _ (hends ms r) (hends ns s) h
      obtain ⟨rfl, hrest⟩ := marked_append_inj EndsNumber hne (by simp [EndsNumber, hmark])
        (by simp [EndsNumber]) (fun m _ => placeholderChars_append_inj m) htail
      exact ⟨rfl, hrest⟩

/-! ### Predicates and leaves

A predicate is the words that open it, its values with other words between them, and what closes it. -/

/-- The words between the values of a predicate, its first character apart. -/
def separator (opening : String) : Char × List Char :=
  if opening = "BETWEEN " then (' ', ['A', 'N', 'D', ' ']) else (',', [' '])

/-- What stands behind the values of a predicate. -/
def closing (opening : String) : List Char :=
  if opening = "IN (" ∨ opening = "NOT IN (" then [')'] else []

lemma closing_append (opening : String) (rest : List Char) :
    closing opening ++ ')' :: rest = ')' :: (closing opening ++ rest) := by
  rw [closing]
  split <;> rfl

namespace Predicate

variable {α : Type}

/-- The words in front of the values. -/
def opening : Predicate α → String
  | isNull => "IS NULL"
  | isNotNull => "IS NOT NULL"
  | compare comparison _ => symbol comparison ++ " "
  | oneOf _ _ => "IN ("
  | noneOf _ _ => "NOT IN ("
  | between _ _ => "BETWEEN "

/-- The words that can open a predicate. -/
def openings : List String :=
  ["IS NULL", "IS NOT NULL", "= ", "<> ", "> ", ">= ", "< ", "<= ", "LIKE ", "IN (", "NOT IN (",
    "BETWEEN "]

lemma opening_mem (p : Predicate α) : p.opening ∈ openings := by
  cases p with
  | compare comparison =>
    cases comparison <;> simp [opening, openings, symbol]
  | _ => simp [opening, openings]

/-- No opening is the beginning of another. -/
lemma openings_prefix_free : ∀ a ∈ openings, ∀ b ∈ openings, a.toList <+: b.toList → a = b := by
  decide

lemma opening_append_inj {p q : Predicate α} {r s : List Char}
    (h : p.opening.toList ++ r = q.opening.toList ++ s) : p.opening = q.opening ∧ r = s := by
  have hopening : p.opening = q.opening := by
    have hp : p.opening.toList <+: q.opening.toList ++ s := ⟨r, h⟩
    rcases List.prefix_or_prefix_of_prefix hp (List.prefix_append _ s) with hpre | hpre
    · exact openings_prefix_free _ p.opening_mem _ q.opening_mem hpre
    · exact (openings_prefix_free _ q.opening_mem _ p.opening_mem hpre).symm
  rw [hopening] at h
  exact ⟨hopening, List.append_cancel_left h⟩

lemma symbol_inj {c d : SqlComparison} (h : symbol c = symbol d) : c = d := by
  cases c <;> cases d <;> first | rfl | exact absurd h (by decide)

lemma symbol_blank_ne (c : SqlComparison) :
    symbol c ++ " " ≠ "IN (" ∧ symbol c ++ " " ≠ "NOT IN (" := by
  cases c <;> decide

/-- A predicate is its opening and its values. -/
lemma eq_of_opening_eq {p q : Predicate α} (hopening : p.opening = q.opening)
    (hvalues : p.values = q.values) : p = q := by
  -- the values tell most pairs of constructors apart, and the opening the others
  cases p <;> cases q <;> simp_all [opening, values]
  case compare.compare => exact symbol_inj hopening
  case compare.oneOf => exact (symbol_blank_ne _).1 hopening
  case compare.noneOf => exact (symbol_blank_ne _).2 hopening
  case oneOf.compare => exact (symbol_blank_ne _).1 hopening.symm
  case noneOf.compare => exact (symbol_blank_ne _).2 hopening.symm

/-- The characters of a predicate. -/
def chars (p : Predicate Nat) : List Char := p.text.toList

lemma chars_eq (p : Predicate Nat) :
    p.chars = p.opening.toList ++
      (((separator p.opening).1 :: (separator p.opening).2).intercalate
        (p.values.map placeholderChars) ++ closing p.opening) := by
  have hcode : placeholderChars = fun n => (placeholderText n).toList := rfl
  cases p with
  | compare comparison value =>
    have hclosing : closing (symbol comparison ++ " ") = [] := by cases comparison <;> decide
    simp [chars, text, opening, values, hclosing, hcode]
  | _ =>
    simp [chars, text, opening, values, separator, closing, hcode, String.toList_intercalate,
      List.intercalate_cons_cons, Function.comp_def]

lemma chars_append_inj {p q : Predicate Nat} {r s : List Char}
    (h : p.chars ++ ')' :: r = q.chars ++ ')' :: s) : p = q ∧ r = s := by
  simp only [chars_eq, List.append_assoc, closing_append] at h
  obtain ⟨hopening, htail⟩ := opening_append_inj h
  rw [hopening] at htail
  have hmark : (separator q.opening).1.isDigit = false ∧ (separator q.opening).1 ≠ ')' := by
    rw [separator]
    split <;> decide
  obtain ⟨hvalues, hrest⟩ := placeholders_append_inj hmark.1 hmark.2 htail
  exact ⟨eq_of_opening_eq hopening hvalues, List.append_cancel_left hrest⟩

end Predicate

/-- The characters of a leaf. -/
def Leaf.chars (leaf : Leaf Nat) : List Char := leaf.text.toList

lemma Leaf.chars_on (column : Column) (predicate : Predicate Nat) :
    (on column predicate).chars = column.chars ++ ' ' :: predicate.chars := by
  simp [chars, text, Column.chars, Predicate.chars]

/-- A leaf is followed by a closing parenthesis, which is no part of it outside quotes and lists. -/
lemma Leaf.chars_append_inj {a b : Leaf Nat} {r s : List Char}
    (h : a.chars ++ ')' :: r = b.chars ++ ')' :: s) : a = b ∧ r = s := by
  cases a with
  | on column predicate =>
    obtain ⟨cs, hcolumn⟩ := column.chars_head
    cases b with
    | on column' predicate' =>
      simp only [Leaf.chars_on, List.append_assoc, List.cons_append] at h
      obtain ⟨rfl, htail⟩ := Column.chars_append_inj h
      obtain ⟨rfl, hrest⟩ := Predicate.chars_append_inj htail
      exact ⟨rfl, hrest⟩
    | always =>
      rw [Leaf.chars_on, hcolumn] at h
      exact absurd (List.cons.inj h).1 (by decide)
  | always =>
    cases b with
    | on column predicate =>
      obtain ⟨cs, hcolumn⟩ := column.chars_head
      rw [Leaf.chars_on, hcolumn] at h
      exact absurd (List.cons.inj h).1 (by decide)
    | always => exact ⟨rfl, (List.cons.inj (List.append_cancel_left h)).2⟩

lemma Leaf.chars_head (leaf : Leaf Nat) : ∃ c cs, leaf.chars = c :: cs ∧ c ≠ '(' ∧ c ≠ 'N' := by
  cases leaf with
  | on column predicate =>
    obtain ⟨cs, hcolumn⟩ := column.chars_head
    refine ⟨'"', cs ++ ' ' :: predicate.chars, ?_, by decide, by decide⟩
    rw [Leaf.chars_on, hcolumn, List.cons_append]
  | always => exact ⟨'1', _, rfl, by decide, by decide⟩

/-! ### Clauses -/

namespace Clause

/-- The characters of a clause. -/
def chars (clause : Clause Nat) : List Char := clause.text.toList

/-- The connective without the blank in front of it. -/
def joinerWords : Connective → List Char
  | .and => ['A', 'N', 'D', ' ']
  | .or => ['O', 'R', ' ']

lemma joiner_toList (kind : Connective) : (joiner kind).toList = ' ' :: joinerWords kind := by
  cases kind <;> rfl

lemma tailText_toList (kind : Connective) (clauses : List (Clause Nat)) :
    (tailText kind clauses).toList = marked chars ' ' (joinerWords kind) clauses := by
  induction clauses with
  | nil => rfl
  | cons clause rest ih =>
    simp only [tailText, String.toList_append, ih, joiner_toList, marked, List.flatMap_cons]
    rfl

lemma chars_single (leaf : Leaf Nat) : (single leaf).chars = '(' :: (leaf.chars ++ [')']) := by
  simp [chars, text, Leaf.chars]

lemma chars_group (kind : Connective) (first second : Clause Nat) (rest : List (Clause Nat)) :
    (group kind first second rest).chars =
      '(' :: (first.chars ++ (marked chars ' ' (joinerWords kind) (second :: rest) ++ [')'])) := by
  simp [chars, text, tailText_toList, joiner_toList, marked]

lemma chars_not (child : Clause Nat) :
    (not child).chars = '(' :: 'N' :: 'O' :: 'T' :: ' ' :: (child.chars ++ [')']) := by
  simp [chars, text]

lemma chars_head (clause : Clause Nat) : ∃ cs, clause.chars = '(' :: cs := by
  cases clause with
  | single leaf => exact ⟨_, chars_single leaf⟩
  | group kind first second rest => exact ⟨_, chars_group kind first second rest⟩
  | not child => exact ⟨_, chars_not child⟩

/-- The text of a clause determines it, whatever follows. -/
theorem chars_append_inj (a b : Clause Nat) (r s : List Char) (h : a.chars ++ r = b.chars ++ s) :
    a = b ∧ r = s := by
  match a with
  | .single leaf =>
    obtain ⟨c, cs, hleaf, hopen, hnot⟩ := leaf.chars_head
    rw [chars_single] at h
    cases b with
    | single leaf' =>
      simp only [chars_single, List.cons_append, List.append_assoc, List.nil_append] at h
      obtain ⟨rfl, hrest⟩ := Leaf.chars_append_inj (List.cons.inj h).2
      exact ⟨rfl, hrest⟩
    | group kind first second rest =>
      obtain ⟨ds, hfirst⟩ := first.chars_head
      rw [chars_group, hfirst, hleaf] at h
      exact absurd (List.cons.inj (List.cons.inj h).2).1 hopen
    | not child =>
      rw [chars_not, hleaf] at h
      exact absurd (List.cons.inj (List.cons.inj h).2).1 hnot
  | .group kind first second rest =>
    obtain ⟨cs, hfirst⟩ := first.chars_head
    rw [chars_group] at h
    cases b with
    | single leaf =>
      obtain ⟨c, ds, hleaf, hopen, -⟩ := leaf.chars_head
      rw [chars_single, hfirst, hleaf] at h
      exact absurd (List.cons.inj (List.cons.inj h).2).1.symm hopen
    | group kind' first' second' rest' =>
      simp only [chars_group, List.cons_append, List.append_assoc, List.nil_append] at h
      obtain ⟨rfl, htail⟩ := chars_append_inj first first' _ _ (List.cons.inj h).2
      -- the first operand is followed by the connective, which tells the kind of the group
      have hkind : kind = kind' := by
        cases kind <;> cases kind' <;> first | rfl | simp [marked, joinerWords] at htail
      subst hkind
      obtain ⟨hitems, hrest⟩ := marked_append_inj (fun _ => True) (by decide) (by simp) (by simp)
        (fun clause hmem b r s _ _ => chars_append_inj clause b r s) htail
      obtain ⟨rfl, rfl⟩ := List.cons.inj hitems
      exact ⟨rfl, hrest⟩
    | not child =>
      rw [chars_not, hfirst] at h
      exact absurd (List.cons.inj (List.cons.inj h).2).1 (by decide)
  | .not child =>
    rw [chars_not] at h
    cases b with
    | single leaf =>
      obtain ⟨c, ds, hleaf, -, hnot⟩ := leaf.chars_head
      rw [chars_single, hleaf] at h
      exact absurd (List.cons.inj (List.cons.inj h).2).1.symm hnot
    | group kind first second rest =>
      obtain ⟨ds, hfirst⟩ := first.chars_head
      rw [chars_group, hfirst] at h
      exact absurd (List.cons.inj (List.cons.inj h).2).1 (by decide)
    | not child' =>
      simp only [chars_not, List.cons_append, List.append_assoc, List.nil_append, List.cons.injEq,
        true_and] at h
      obtain ⟨rfl, hrest⟩ := chars_append_inj child child' _ _ h
      exact ⟨rfl, (List.cons.inj hrest).2⟩
termination_by sizeOf a
decreasing_by
  all_goals simp_wf
  · omega
  · have hsize := List.sizeOf_lt_of_mem hmem
    simp at hsize
    omega

/-- The text of a clause determines it. -/
lemma text_injective : Function.Injective text := by
  intro a b h
  exact (chars_append_inj a b [] [] (by rw [chars, h, chars])).1

end Clause

end FilterLang.Sql
