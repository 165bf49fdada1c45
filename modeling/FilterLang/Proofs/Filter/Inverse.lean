import FilterLang.Proofs.Filter.RoundTrip

/-!
# Printing a filter that was read

A filter that was read off a text has names that can be written and values of the right shape
(`Filter.writable_of_parseWithin`), so `Filter.printNeed` decides whether its printed form is read
again, unless one of its numbers is infinite.  An infinite number comes from too many digits, and it is
printed as a word that is no literal: behind an operator such a word is never read
(`Filter.derails_print`).
-/

namespace FilterLang

open Lexer (Lexable Lexes Ends Closes)

/-! ### What was read can be written -/

namespace Lexer

/-- Every token is read somewhere in the text. -/
lemma Lexes.exists_token {cs rest : List Char} {us : List Token} (h : Lexes cs us rest) {u : Token}
    (hu : u ∈ us) : ∃ cs' rest', cs' <:+ cs ∧ token cs' = .ok (u, rest') := by
  induction h with
  | nil => exact absurd hu (by simp)
  | @cons cs mid rest v vs hv _ ih =>
    have hblanks := skipBlanks_suffix cs
    rcases List.mem_cons.mp hu with rfl | hu
    · exact ⟨_, _, hblanks, hv⟩
    · obtain ⟨cs', rest', hsuffix, htoken⟩ := ih hu
      have hmid : mid <:+ cs := (token_suffix hv).trans ((List.tail_suffix _).trans hblanks)
      exact ⟨cs', rest', hsuffix.trans hmid, htoken⟩

/-- No literal is written as a range. -/
lemma token_ne_range {cs rest : List Char} {lower upper : Scalar} :
    token cs ≠ .ok (.literal (.range lower upper), rest) := by
  intro h
  rcases token_cases h with ⟨-, hu, -⟩ | ⟨-, -, hu⟩ | ⟨quote, value, -, hu⟩ | ⟨items, -, hu⟩ |
    ⟨value, -, -, hu⟩ | ⟨c, tail, -, -, -, hword⟩
  · exact absurd hu (by simp)
  · exact absurd hu (by simp)
  · exact absurd hu (by simp)
  · exact absurd hu (by simp)
  · exact absurd hu (by simp)
  · rcases word_cases hword with ⟨entry, hmem, hu, -⟩ | ⟨-, ⟨value, -, hu⟩ | ⟨-, hu, -⟩⟩
    · exact absurd hu ((keyword_ne hmem).2 _)
    · exact absurd hu (by simp)
    · exact absurd hu (by simp)

end Lexer

/-- An operator reads only values of its kind, if no literal is a range. -/
lemma Operator.Reads.accepts {op : Operator} {literal value : Value} (h : op.Reads literal value)
    (hliteral : ∀ lower upper, literal ≠ .range lower upper) : op.accepts value = true := by
  cases h with
  | list items takes =>
    rw [accepts_list, bne_iff_ne]
    rintro rfl
    exact absurd takes (by decide)
  | range lower upper => rfl
  | plain _ notList notRange =>
    cases literal with
    | scalar value => simp [accepts_scalar, notList, notRange]
    | list items => simp [accepts_list, notRange]
    | range lower upper => exact absurd rfl (hliteral lower upper)

/-- The name and the literal of a comparison are among the tokens. -/
def Mentions (us : List Token) (c : String × Operator × Value) : Prop :=
  ∃ literal, .identifier c.1 ∈ us ∧ .literal literal ∈ us ∧ c.2.1.Reads literal c.2.2

lemma Mentions.mono {us vs : List Token} {c : String × Operator × Value} (h : Mentions us c)
    (hsub : us ⊆ vs) : Mentions vs c := by
  obtain ⟨literal, hfield, hliteral, hreads⟩ := h
  exact ⟨literal, hsub hfield, hsub hliteral, hreads⟩

/-- Every comparison of a phrase stands in its tokens. -/
lemma Phrase.mentions {category : Grammar.Category} (phrase : Phrase category)
    {c : String × Operator × Value} (hc : c ∈ phrase.toFilter.comparisons) :
    Mentions phrase.tokens c := by
  induction phrase with
  | comparison field op literal value reads =>
    obtain rfl : c = (field, op, value) := by simpa [toFilter, Filter.comparisons] using hc
    exact ⟨literal, by simp [tokens], by simp [tokens], reads⟩
  | group inner ih => exact (ih hc).mono (by simp [tokens])
  | not child ih => exact (ih hc).mono (by simp [tokens])
  | operand first ih => exact ih hc
  | conjunction first ih => exact ih hc
  | and left right ihleft ihright =>
    rcases List.mem_append.mp hc with hc | hc
    · exact (ihleft hc).mono (by simp [tokens])
    · exact (ihright hc).mono (by simp [tokens])
  | or left right ihleft ihright =>
    rcases List.mem_append.mp hc with hc | hc
    · exact (ihleft hc).mono (by simp [tokens])
    · exact (ihright hc).mono (by simp [tokens])

namespace Filter

/-- A filter that was read can be written. -/
lemma writable_of_parseWithin {maxNesting : Nat} {text : String} {t : Filter}
    (h : parseWithin maxNesting text = .ok t) : t.Writable := by
  obtain ⟨phrase, rfl, -, hlexes⟩ := parseWithin_eq_ok_iff_lexes.mp h
  constructor
  · intro c hc
    obtain ⟨literal, hfield, -, -⟩ := phrase.mentions hc
    obtain ⟨cs, rest, -, htoken⟩ := hlexes.exists_token (List.mem_append_left _ hfield)
    exact Lexer.lexable_of_token htoken
  · intro c hc
    obtain ⟨literal, -, hliteral, hreads⟩ := phrase.mentions hc
    obtain ⟨cs, rest, -, htoken⟩ := hlexes.exists_token (List.mem_append_left _ hliteral)
    refine hreads.accepts ?_
    rintro lower upper rfl
    exact Lexer.token_ne_range htoken

end Filter

/-! ### Numbers that are not finite -/

namespace Lexer

lemma element_of_not_isFinite {literal : Scalar} (h : literal.isFinite = false) (rest : List Char) :
    ∃ fault, element (literal.print.toList ++ rest) = .error fault := by
  rcases print_of_not_isFinite h with htext | htext | htext <;> rw [htext] <;> exact ⟨_, rfl⟩

lemma exists_itemsText_eq (literal : Scalar) (items : List Scalar) :
    ∃ tail, itemsText (literal :: items) = literal.print.toList ++ tail := by
  cases items with
  | nil => exact ⟨[], by simp [itemsText]⟩
  | cons next items => exact ⟨_, itemsText_cons literal next items⟩

/-- A list with a number that is not finite is refused at that number. -/
lemma elements_of_not_isFinite (start rest : List Char) {items : List Scalar}
    (h : items.all Scalar.isFinite = false) (rounds : Nat) :
    ∃ fault, elements start rounds (itemsText items ++ ']' :: rest) = .error fault := by
  induction items generalizing rounds with
  | nil => exact absurd h (by simp)
  | cons literal items ih =>
    cases rounds with
    | zero => exact ⟨_, rfl⟩
    | succ rounds =>
      cases hliteral : literal.isFinite with
      | false =>
        obtain ⟨tail, htail⟩ := exists_itemsText_eq literal items
        obtain ⟨fault, hfault⟩ := element_of_not_isFinite hliteral (tail ++ ']' :: rest)
        rw [htail, elements, List.append_assoc, hfault]
        exact ⟨fault, rfl⟩
      | true =>
        rw [List.all_cons, hliteral, Bool.true_and] at h
        cases items with
        | nil => exact absurd h (by simp)
        | cons next items =>
          obtain ⟨fault, hfault⟩ := ih h rounds
          obtain ⟨c, cs, hhead, hblank, hclose⟩ := itemsText_head (List.cons_ne_nil next items)
          rw [hhead, List.cons_append] at hfault
          have helement := element_print (printedForm hliteral)
            (ends_cons (by simp) _ : Ends (',' :: ' ' :: c :: (cs ++ ']' :: rest)))
          rw [itemsText_cons, hhead, elements, List.append_assoc]
          simp only [List.cons_append, helement, separator_next start hblank hclose, hfault]
          exact ⟨fault, rfl⟩

lemma list_of_not_isFinite {items : List Scalar} (h : items.all Scalar.isFinite = false)
    (rest : List Char) :
    ∃ fault, list ((Scalar.printList items).toList ++ rest) = .error fault := by
  have hnil : items ≠ [] := by
    rintro rfl
    exact absurd h (by simp)
  rw [list_printList hnil]
  exact elements_of_not_isFinite _ rest h _

/-- Where a value with a number that is not finite is printed, no literal is read. -/
lemma token_of_not_isFinite {value : Value} (h : value.isFinite = false) {rest : List Char}
    (hrest : ∀ c ∈ rest.head?, isNameChar c = false) {u : Token} {rest' : List Char}
    (hread : token (value.print.toList ++ rest) = .ok (u, rest')) : ∃ name, u = .identifier name := by
  have hlist {items : List Scalar} (hitems : items.all Scalar.isFinite = false) :
      token ((Scalar.printList items).toList ++ rest) ≠ .ok (u, rest') := by
    obtain ⟨fault, hfault⟩ := list_of_not_isFinite hitems rest
    rw [token_printList, hfault]
    simp
  have hskip := skipBlanks_print value rest
  have hword (name : String) (hname : Lexable name) (htext : value.print = name) :
      ∃ name, u = .identifier name := by
    have htoken := token_name hname hrest
    rw [← htext, hskip, hread] at htoken
    exact ⟨value.print, by simp_all⟩
  cases value with
  | scalar literal =>
    have hliteral : literal.isFinite = false := by simpa [Value.isFinite, Value.literals] using h
    rcases print_of_not_isFinite hliteral with htext | htext | htext
    · exact hword "NaN" (by decide +kernel) htext
    · exact hword "inf" (by decide +kernel) htext
    · -- a sign without a digit behind it starts no token
      have hfault : ∃ fault, token ((Value.scalar literal).print.toList ++ rest) = .error fault := by
        rw [Value.print, htext]
        exact ⟨_, rfl⟩
      obtain ⟨fault, hfault⟩ := hfault
      rw [hfault] at hread
      exact absurd hread (by simp)
  | list items => exact absurd hread (hlist h)
  | range lower upper => exact absurd hread (hlist h)

/-- Behind some tokens of the text, the last of them an operator, no literal is read. -/
def Derails (cs : List Char) : Prop :=
  ∃ us op rest, Lexes cs (us ++ [.operator op]) rest ∧
    ∀ u rest', token (Text.skipBlanks rest) = .ok (u, rest') → ∃ name, u = .identifier name

lemma Derails.of_lexes {cs mid : List Char} {us : List Token} (h : Lexes cs us mid)
    (hmid : Derails mid) : Derails cs := by
  obtain ⟨vs, op, rest, hvs, hstop⟩ := hmid
  exact ⟨us ++ vs, op, rest, by rw [List.append_assoc]; exact h.append hvs, hstop⟩

lemma Derails.blank {cs : List Char} (h : Derails cs) : Derails (' ' :: cs) := by
  obtain ⟨us, op, rest, hus, hstop⟩ := h
  exact ⟨us, op, rest, hus.blank (by simp), hstop⟩

lemma eq_eof_of_lexes_nil {us : List Token} {rest : List Char} (h : Lexes [] us rest) :
    ∀ u ∈ us, u = .eof := by
  generalize hcs : ([] : List Char) = cs at h
  induction h with
  | nil => simp
  | cons hu _ ih =>
    subst hcs
    obtain ⟨rfl, rfl⟩ := Prod.mk.inj (Except.ok.inj hu)
    intro v hv
    rcases List.mem_cons.mp hv with rfl | hv
    · rfl
    · exact ih rfl v hv

end Lexer

open Lexer (Derails)

/-- Behind every operator stands a literal. -/
structure Paired (us : List Token) : Prop where
  follows : us.IsChain fun u v => ∀ op, u = .operator op → ∃ value, v = .literal value
  last : ∀ u ∈ us.getLast?, ∀ op, u ≠ .operator op

lemma paired_singleton {u : Token} (h : ∀ op, u ≠ .operator op) : Paired [u] :=
  ⟨.singleton u, by simpa using h⟩

lemma Paired.append {us vs : List Token} (hus : Paired us) (hvs : Paired vs) : Paired (us ++ vs) := by
  refine ⟨List.isChain_append.mpr ⟨hus.follows, hvs.follows, ?_⟩, ?_⟩
  · intro u hu v _ op hop
    exact absurd hop (hus.last u hu op)
  · intro u hu
    rw [List.getLast?_append, Option.mem_def, Option.or_eq_some_iff] at hu
    rcases hu with hu | ⟨-, hu⟩
    · exact hvs.last u hu
    · exact hus.last u hu

lemma Phrase.paired {category : Grammar.Category} (phrase : Phrase category) :
    Paired phrase.tokens := by
  induction phrase with
  | comparison field op literal value reads => exact ⟨by simp [tokens], by simp [tokens]⟩
  | group inner ih =>
    exact (paired_singleton (by simp)).append (ih.append (paired_singleton (by simp)))
  | not child ih => exact (paired_singleton (by simp)).append ih
  | operand first ih => exact ih
  | conjunction first ih => exact ih
  | and left right ihleft ihright =>
    exact ihleft.append ((paired_singleton (by simp : ∀ op, Token.and ≠ .operator op)).append ihright)
  | or left right ihleft ihright =>
    exact ihleft.append ((paired_singleton (by simp : ∀ op, Token.or ≠ .operator op)).append ihright)

/-- A text that derails is not read as a filter. -/
lemma Phrase.not_lexes_of_derails (phrase : Phrase .filter) {cs : List Char} (h : Derails cs) :
    ¬ Lexes cs (phrase.tokens ++ [.eof]) [] := by
  intro hlexes
  have hpaired : Paired (phrase.tokens ++ [.eof]) :=
    phrase.paired.append (paired_singleton (by simp))
  obtain ⟨us, op, rest, hus, hstop⟩ := h
  -- both readings of the text go through the same tokens as far as both go
  rcases hus.prefix_or_prefix hlexes with ⟨ws, hws, hrest⟩ | ⟨ws, hws, hrest⟩
  · -- behind the operator the text goes on with a name
    rw [hws] at hpaired
    cases hrest with
    | nil => exact absurd rfl (hpaired.last (.operator op) (by simp) op)
    | cons hu _ =>
      obtain ⟨name, rfl⟩ := hstop _ _ hu
      have hfollows := hpaired.follows
      rw [List.append_assoc] at hfollows
      have hbehind := (List.isChain_append.mp hfollows).2.1
      obtain ⟨value, hvalue⟩ := (List.isChain_cons_cons.mp hbehind).1 op rfl
      exact absurd hvalue (by simp)
  · -- the operator would stand behind the end of the text
    have heof := Lexer.eq_eof_of_lexes_nil hrest
    have hlast := congrArg List.getLast? hws
    rw [List.getLast?_concat, List.getLast?_append, List.getLast?_concat, eq_comm,
      Option.or_eq_some_iff] at hlast
    rcases hlast with hlast | ⟨-, hlast⟩
    · exact absurd (heof _ (List.mem_of_getLast? hlast)) (by simp)
    · exact absurd hlast (by simp)

namespace Filter

/-- The printed form of a filter with a number that is not finite derails, on its own and as an
operand. -/
lemma derails_print (t : Filter) (h : t.Writable) (hfinite : t.isFinite = false) {rest : List Char}
    (hrest : Closes rest) :
    Derails ((operandText t t.print).toList ++ rest) ∧ Derails (t.print.toList ++ rest) := by
  induction t generalizing rest with
  | comparison field op value =>
    have hfield := h.fields (field, op, value) (by simp [comparisons])
    rw [isFinite_comparison] at hfinite
    have hprint : Derails ((comparison field op value).print.toList ++ rest) := by
      rw [comparison_toList]
      refine ⟨[.identifier field], op, _, (Lexer.lexes_name hfield _).append
        ((Lexer.lexes_operator op _).blank (by simp)), ?_⟩
      intro u rest' hread
      rw [Text.skipBlanks_space, Lexer.skipBlanks_print] at hread
      exact Lexer.token_of_not_isFinite hfinite hrest.isNameChar hread
    exact ⟨hprint, hprint⟩
  | not child ih =>
    have hprint : Derails ((not child).print.toList ++ rest) := by
      rw [print, not_toList]
      exact .of_lexes (Lexer.lexes_not _) (ih h.child hfinite hrest).1.blank
    exact ⟨hprint, hprint⟩
  | logical kind left right ihleft ihright =>
    rw [isFinite_logical, Bool.and_eq_false_iff] at hfinite
    have hprint {rest : List Char} (hrest : Closes rest) :
        Derails ((logical kind left right).print.toList ++ rest) := by
      rw [print, logical_toList]
      cases hleft : left.isFinite with
      | false => exact (ihleft h.left hleft (Lexer.closes_cons (by simp) _)).1
      | true =>
        -- the left operand is read, and the right one derails
        obtain ⟨⟨phrase, hphrase⟩, -⟩ := exists_phrase left h.left hleft
        have hright : right.isFinite = false := by simpa [hleft] using hfinite
        exact .of_lexes (hphrase.lexes _ (Lexer.closes_cons (by simp) _))
          (Derails.of_lexes (Lexer.lexes_connective kind _)
            (ihright h.right hright hrest).1.blank).blank
    refine ⟨?_, hprint hrest⟩
    change Derails (("(" ++ (logical kind left right).print ++ ")").toList ++ rest)
    rw [group_toList]
    exact .of_lexes (Lexer.lexes_open _) (hprint (Lexer.closes_cons (by simp) rest))

/-- A filter with a number that is not finite is printed as a text that no limit lets through. -/
lemma parseWithin_print_ne_ok {t : Filter} (h : t.Writable) (hfinite : t.isFinite = false)
    (maxNesting : Nat) (t' : Filter) : parseWithin maxNesting t.print ≠ .ok t' := by
  intro hread
  obtain ⟨phrase, -, -, hlexes⟩ := parseWithin_eq_ok_iff_lexes.mp hread
  have hderails := (derails_print t h hfinite Lexer.closes_nil).2
  rw [List.append_nil] at hderails
  exact phrase.not_lexes_of_derails hderails hlexes

end Filter

/-! ### Equality of what was read -/

lemma Scalar.same_self {literal : Scalar} (h : literal.isFinite = true) :
    literal.same literal = true := by
  cases literal with
  | float value =>
    cases value with
    | nan => exact absurd h (by decide)
    | infinite negative => exact absurd h Bool.false_ne_true
    | finite negative x => simp [same, Binary64.same]
  | _ => simp [same]

lemma Scalar.all_same_self {items : List Scalar} (h : ∀ literal ∈ items, literal.isFinite = true) :
    (items.zip items).all (fun (x, y) => x.same y) = true := by
  induction items with
  | nil => rfl
  | cons literal items ih =>
    rw [List.forall_mem_cons] at h
    simp [same_self h.1, ih h.2]

lemma Value.same_self {value : Value} (h : value.isFinite = true) : value.same value = true := by
  have hliterals := List.all_eq_true.mp h
  cases value with
  | scalar literal => exact Scalar.same_self (hliterals literal (by simp [literals]))
  | list items => simpa [same, literals] using Scalar.all_same_self hliterals
  | range lower upper =>
    simp [same, Scalar.same_self (hliterals lower (by simp [literals])),
      Scalar.same_self (hliterals upper (by simp [literals]))]

namespace Filter

/-- A filter with finite numbers is the same as itself. -/
lemma same_self {t : Filter} (h : t.isFinite = true) : t.same t = true := by
  induction t with
  | comparison field op value =>
    rw [isFinite_comparison] at h
    simp [same, Value.same_self h]
  | not child ih => exact ih h
  | logical kind left right ihleft ihright =>
    rw [isFinite_logical, Bool.and_eq_true] at h
    simp [same, ihleft h.1, ihright h.2]

/-- **When printing undoes reading.**  A filter that was read under a limit on nesting is printed as a
text that reads back as the same filter under the same limit, if its numbers are finite and the
parentheses that the printer adds leave the text within the limit.  In every other case the printed
text is refused. -/
theorem parseWithin_print_of_parseWithin (maxNesting : Nat) (text : String) (t : Filter)
    (h : parseWithin maxNesting text = .ok t) :
    (t.isFinite = true ∧ t.printNeed ≤ maxNesting →
      parseWithin maxNesting t.print = .ok t ∧ t.same t = true) ∧
    (¬ (t.isFinite = true ∧ t.printNeed ≤ maxNesting) →
      ∃ error, parseWithin maxNesting t.print = .error error) := by
  have hwritable := writable_of_parseWithin h
  constructor
  · rintro ⟨hfinite, hneed⟩
    exact ⟨parseWithin_print_eq_ok hwritable hfinite hneed, same_self hfinite⟩
  · intro hfails
    cases hfinite : t.isFinite with
    | true =>
      have hneed : maxNesting < t.printNeed := by
        by_contra hle
        exact hfails ⟨hfinite, by omega⟩
      obtain ⟨position, herror⟩ := parseWithin_print_tooDeep hwritable hfinite hneed
      exact ⟨_, herror⟩
    | false =>
      cases hread : parseWithin maxNesting t.print with
      | ok t' => exact absurd hread (parseWithin_print_ne_ok hwritable hfinite maxNesting t')
      | error error => exact ⟨error, rfl⟩

/-- A name and a literal that is written behind it. -/
lemma parseWithin_eq_literal {field : String} {literal : Scalar} {cs : List Char}
    (hfield : Lexable field) (h : Lexes cs [.literal (.scalar literal)] []) (maxNesting : Nat) :
    parseWithin maxNesting (field ++ " eq " ++ String.ofList cs) =
      .ok (comparison field .eq (.scalar literal)) := by
  have htext : (field ++ " eq " ++ String.ofList cs).toList =
      field.toList ++ ' ' :: (Operator.eq.name.toList ++ ' ' :: cs) := by
    simp [Operator.name]
  refine parseWithin_eq_ok_iff_lexes.mpr ⟨.conjunction (.operand (.comparison field .eq
    (.scalar literal) (.scalar literal) (.plain _ rfl (by decide)))), rfl, Nat.zero_le _, ?_⟩
  rw [htext]
  exact (Lexer.lexes_name hfield _).append (((Lexer.lexes_operator .eq _).blank (by simp)).append
    ((h.blank (by simp)).append (.single rfl)))

/-- Either condition can fail: the printer may add a parenthesis, and a number may be too large. -/
theorem parseWithin_print_refused :
    (∃ t, parseWithin 1 "not x eq 1 and b eq 2 or c eq 3" = .ok t ∧
      ∃ error, parseWithin 1 t.print = .error error) ∧
    ∃ t, parseWithin 256 ("a eq " ++ String.ofList ('1' :: List.replicate 309 '0')) = .ok t ∧
      ∃ error, parseWithin 256 t.print = .error error := by
  constructor
  · have hread : parseWithin 1 "not x eq 1 and b eq 2 or c eq 3" = .ok (.or
        (.and (.not (.comparison "x" .eq (.scalar (.int 1)))) (.comparison "b" .eq (.scalar (.int 2))))
        (.comparison "c" .eq (.scalar (.int 3)))) := rfl
    exact ⟨_, hread, (parseWithin_print_of_parseWithin _ _ _ hread).2 (by decide)⟩
  · have hfield : Lexable "a" := by decide +kernel
    have hlexes : Lexes ('1' :: List.replicate 309 '0')
        [.literal (.scalar (.float (.infinite false)))] [] := .single (by decide +kernel)
    have hread := parseWithin_eq_literal hfield hlexes 256
    exact ⟨_, hread, (parseWithin_print_of_parseWithin _ _ _ hread).2 (by decide)⟩

end Filter

end FilterLang
