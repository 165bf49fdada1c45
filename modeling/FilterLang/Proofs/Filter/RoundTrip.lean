import FilterLang.Proofs.Filter.Literal
import FilterLang.Proofs.Query.Names
import FilterLang.Proofs.Query.Recognition

/-!
# Printed filters read back

A filter whose names can be written, whose values have the shape their operators ask for, and whose
numbers are finite is printed as the tokens of a phrase, and the phrase stands for the filter
(`Filter.exists_phrase`).  What a limit on nesting does to the printed text then follows from what it
does to the phrase.  The printer puts every joined operand in parentheses, so the nesting that the text
needs can be read off the filter: it is `Filter.printNeed`.
-/

namespace FilterLang

open Lexer (Lexable Lexes Ends Closes)

namespace Filter

/-- Every name of the filter can be written, and every operator has a value of its kind. -/
structure Writable (t : Filter) : Prop where
  fields : ∀ c ∈ t.comparisons, Lexable c.1
  shapes : ∀ c ∈ t.comparisons, c.2.1.accepts c.2.2 = true

/-- Every number of the filter is finite. -/
def isFinite (t : Filter) : Bool := t.comparisons.all fun c => c.2.2.isFinite

/-- The nesting that a filter needs in the place of an operand, from what it needs on its own. -/
def operandNeed (filter : Filter) (need : Nat) : Nat := if filter.isLogical then need + 1 else need

/-- The nesting that the printed filter needs. -/
def printNeed : Filter → Nat
  | comparison _ _ _ => 0
  | logical _ left right =>
    max (operandNeed left left.printNeed) (1 + operandNeed right right.printNeed)
  | not child => 1 + operandNeed child child.printNeed

end Filter

/-! ### Parts of a printed filter -/

namespace Operator

lemma accepts_scalar (op : Operator) (literal : Scalar) :
    op.accepts (.scalar literal) = (!op.takesList && op != .between) := by
  cases op <;> rfl

lemma accepts_list (op : Operator) (items : List Scalar) :
    op.accepts (.list items) = (op != .between) := by
  cases op <;> rfl

lemma accepts_range (op : Operator) (lower upper : Scalar) :
    op.accepts (.range lower upper) = (op == .between) := by
  cases op <;> rfl

/-- An operator reads a value of its kind back from the literal that the value is written as. -/
lemma reads_written {op : Operator} {value : Value} (h : op.accepts value = true) :
    op.Reads value.written value := by
  cases value with
  | scalar literal =>
    simp only [accepts_scalar, Bool.and_eq_true, Bool.not_eq_true', bne_iff_ne] at h
    exact .plain _ h.1 h.2
  | list items =>
    rw [accepts_list, bne_iff_ne] at h
    cases htakes : op.takesList with
    | true => exact .list items htakes
    | false => exact .plain _ htakes h
  | range lower upper =>
    rw [accepts_range, beq_iff_eq] at h
    subst h
    exact .range lower upper

end Operator

/-- The token of a connective. -/
def Connective.token : Connective → Token
  | .and => .and
  | .or => .or

namespace Phrase

/-- Two operands with a connective between them. -/
def join (left right : Phrase .operand) : Connective → Phrase .filter
  | .and => .conjunction (.and (.operand left) right)
  | .or => .or (.conjunction (.operand left)) (.operand right)

lemma tokens_join (left right : Phrase .operand) (kind : Connective) :
    (join left right kind).tokens = left.tokens ++ kind.token :: right.tokens := by
  cases kind <;> rfl

lemma toFilter_join (left right : Phrase .operand) (kind : Connective) :
    (join left right kind).toFilter = .logical kind left.toFilter right.toFilter := by
  cases kind <;> rfl

lemma need_join (left right : Phrase .operand) (kind : Connective) :
    (join left right kind).need = max left.need (right.need + 1) := by
  cases kind <;> simp only [join, need, folds] <;> omega

end Phrase

namespace Lexer

/-- A blank in front of a token changes nothing. -/
lemma Lexes.blank {cs rest : List Char} {us : List Token} (hus : us ≠ []) (h : Lexes cs us rest) :
    Lexes (' ' :: cs) us rest := by
  cases h with
  | nil => exact absurd rfl hus
  | cons hu hrest => exact .cons (by rwa [Text.skipBlanks_space]) hrest

lemma lexes_open (rest : List Char) : Lexes ('(' :: rest) [.lparen] rest := .single rfl

lemma lexes_keyword {entry : String × Token} (h : entry ∈ keywordTokens) {rest : List Char}
    (hrest : startsWord rest = false) : Lexes (entry.1.toList ++ rest) [entry.2] rest :=
  .single (token_keyword h hrest)

lemma lexes_operator (op : Operator) (rest : List Char) :
    Lexes (op.name.toList ++ ' ' :: rest) [.operator op] (' ' :: rest) := by
  have hmem : (op.name, .operator op) ∈ keywordTokens := by cases op <;> decide
  exact lexes_keyword hmem rfl

lemma lexes_not (rest : List Char) : Lexes ("not".toList ++ ' ' :: rest) [.not] (' ' :: rest) :=
  lexes_keyword (by decide : ("not", .not) ∈ keywordTokens) rfl

lemma lexes_connective (kind : Connective) (rest : List Char) :
    Lexes (kind.name.toList ++ ' ' :: rest) [kind.token] (' ' :: rest) := by
  have hmem : (kind.name, kind.token) ∈ keywordTokens := by cases kind <;> decide
  exact lexes_keyword hmem rfl

lemma lexes_value {value : Value} (h : value.isFinite = true) {rest : List Char}
    (hrest : Ends rest) : Lexes (value.print.toList ++ rest) [.literal value.written] rest := by
  refine .single ?_
  rw [skipBlanks_print]
  exact token_print h hrest

lemma lexes_name {field : String} (h : Lexable field) (rest : List Char) :
    Lexes (field.toList ++ ' ' :: rest) [.identifier field] (' ' :: rest) := by
  have hblank : ∀ c ∈ (' ' :: rest).head?, isNameChar c = false := by
    rintro c ⟨⟩
    rfl
  exact .single (token_name h hblank)

/-- A name and an operator stand in front of a text. -/
lemma lexes_clause {field : String} (hfield : Lexable field) (op : Operator) {cs rest : List Char}
    {us : List Token} (hus : us ≠ []) (h : Lexes cs us rest) :
    Lexes (field.toList ++ ' ' :: (op.name.toList ++ ' ' :: cs))
      (.identifier field :: .operator op :: us) rest := by
  have hop := (lexes_operator op cs).append (h.blank hus)
  exact (lexes_name hfield _).append (hop.blank (by simp))

end Lexer

/-! ### The phrase of a filter -/

namespace Filter

/-- The text of an operand or of a filter is that of a phrase, wherever a printed text may end. -/
structure Spells {category : Grammar.Category} (phrase : Phrase category) (t : Filter) (need : Nat)
    (text : String) : Prop where
  toFilter : phrase.toFilter = t
  need : phrase.need = need
  lexes : ∀ rest, Closes rest → Lexes (text.toList ++ rest) phrase.tokens rest

lemma comparison_toList (field : String) (op : Operator) (value : Value) (rest : List Char) :
    (comparison field op value).print.toList ++ rest =
      field.toList ++ ' ' :: (op.name.toList ++ ' ' :: (value.print.toList ++ rest)) := by
  simp [print, toString]

lemma group_toList (text : String) (rest : List Char) :
    ("(" ++ text ++ ")").toList ++ rest = '(' :: (text.toList ++ ')' :: rest) := by
  simp

lemma not_toList (text : String) (rest : List Char) :
    ("not " ++ text).toList ++ rest = "not".toList ++ ' ' :: (text.toList ++ rest) := by
  simp

lemma logical_toList (text : String) (kind : Connective) (behind : String) (rest : List Char) :
    s!"{text} {kind} {behind}".toList ++ rest =
      text.toList ++ ' ' :: (kind.name.toList ++ ' ' :: (behind.toList ++ rest)) := by
  simp [toString]

lemma lexes_comparison {field : String} {op : Operator} {value : Value} (hfield : Lexable field)
    (hvalue : value.isFinite = true) {rest : List Char} (hrest : Closes rest) :
    Lexes ((comparison field op value).print.toList ++ rest)
      [.identifier field, .operator op, .literal value.written] rest := by
  rw [comparison_toList]
  exact Lexer.lexes_clause hfield op (by simp) (Lexer.lexes_value hvalue hrest.ends)

lemma Writable.child {child : Filter} (h : (not child).Writable) : child.Writable :=
  ⟨h.fields, h.shapes⟩

lemma Writable.left {kind : Connective} {left right : Filter}
    (h : (logical kind left right).Writable) : left.Writable :=
  ⟨fun c hc => h.fields c (List.mem_append_left _ hc),
    fun c hc => h.shapes c (List.mem_append_left _ hc)⟩

lemma Writable.right {kind : Connective} {left right : Filter}
    (h : (logical kind left right).Writable) : right.Writable :=
  ⟨fun c hc => h.fields c (List.mem_append_right _ hc),
    fun c hc => h.shapes c (List.mem_append_right _ hc)⟩

@[simp] lemma isFinite_comparison (field : String) (op : Operator) (value : Value) :
    (comparison field op value).isFinite = value.isFinite := by
  simp [isFinite, comparisons]

@[simp] lemma isFinite_logical (kind : Connective) (left right : Filter) :
    (logical kind left right).isFinite = (left.isFinite && right.isFinite) :=
  List.all_append

/-- A filter that is not joined stands as an operand as it stands on its own. -/
lemma Spells.single {phrase : Phrase .operand} {t : Filter} {need : Nat} {text : String}
    (h : Spells phrase t need text) : Spells (.conjunction (.operand phrase)) t need text :=
  ⟨h.toFilter, h.need, h.lexes⟩

/-- In parentheses a filter is an operand. -/
lemma Spells.group {phrase : Phrase .filter} {t : Filter} {need : Nat} {text : String}
    (h : Spells phrase t need text) : Spells (.group phrase) t (need + 1) ("(" ++ text ++ ")") where
  toFilter := h.toFilter
  need := congrArg (· + 1) h.need
  lexes := by
    intro rest hrest
    have hclose : Lexes (')' :: rest) [.rparen] rest := .single rfl
    have hinner := h.lexes (')' :: rest) (Lexer.closes_cons (by simp) rest)
    rw [group_toList]
    exact (Lexer.lexes_open _).append (hinner.append hclose)

lemma Spells.not {phrase : Phrase .operand} {t : Filter} {need : Nat} {text : String}
    (h : Spells phrase t need text) : Spells (.not phrase) t.not (1 + need) ("not " ++ text) where
  toFilter := congrArg Filter.not h.toFilter
  need := by rw [Phrase.need, h.need, Nat.add_comm]
  lexes := by
    intro rest hrest
    rw [not_toList]
    exact (Lexer.lexes_not _).append ((h.lexes rest hrest).blank phrase.tokens_ne_nil)

/-- Two operands with a connective between them. -/
lemma Spells.lexes_logical {l r : Phrase .operand} {left right : Filter} {m n : Nat}
    {text behind : String} (hl : Spells l left m text) (hr : Spells r right n behind)
    (kind : Connective) {rest : List Char} (hrest : Closes rest) :
    Lexes (s!"{text} {kind} {behind}".toList ++ rest) (l.tokens ++ kind.token :: r.tokens) rest := by
  have hright := (Lexer.lexes_connective kind _).append
    ((hr.lexes rest hrest).blank r.tokens_ne_nil)
  rw [logical_toList]
  exact (hl.lexes _ (Lexer.closes_cons (by simp) _)).append (hright.blank (by simp))

/-- Two operands with a connective between them are a filter. -/
lemma Spells.logical {l r : Phrase .operand} {left right : Filter} {m n : Nat}
    {text behind : String} (hl : Spells l left m text) (hr : Spells r right n behind)
    (kind : Connective) :
    Spells (.join l r kind) (.logical kind left right) (max m (1 + n)) s!"{text} {kind} {behind}" where
  toFilter := by rw [Phrase.toFilter_join, hl.toFilter, hr.toFilter]
  need := by rw [Phrase.need_join, hl.need, hr.need, Nat.add_comm]
  lexes := by
    intro rest hrest
    rw [Phrase.tokens_join]
    exact hl.lexes_logical hr kind hrest

/-- Every filter that can be written is printed as a phrase, on its own and as an operand. -/
lemma exists_phrase (t : Filter) (h : t.Writable) (hfinite : t.isFinite = true) :
    (∃ phrase : Phrase .operand,
      Spells phrase t (operandNeed t t.printNeed) (operandText t t.print)) ∧
    ∃ phrase : Phrase .filter, Spells phrase t t.printNeed t.print := by
  induction t with
  | comparison field op value =>
    have hfield := h.fields (field, op, value) (by simp [comparisons])
    have hshape := h.shapes (field, op, value) (by simp [comparisons])
    rw [isFinite_comparison] at hfinite
    have hspells : Spells (.comparison field op value.written value (Operator.reads_written hshape))
        (comparison field op value) 0 (comparison field op value).print :=
      ⟨rfl, rfl, fun rest hrest => lexes_comparison hfield hfinite hrest⟩
    exact ⟨⟨_, hspells⟩, _, hspells.single⟩
  | not child ih =>
    obtain ⟨⟨phrase, hphrase⟩, -⟩ := ih h.child hfinite
    exact ⟨⟨_, hphrase.not⟩, _, hphrase.not.single⟩
  | logical kind left right ihleft ihright =>
    rw [isFinite_logical, Bool.and_eq_true] at hfinite
    obtain ⟨⟨l, hl⟩, -⟩ := ihleft h.left hfinite.1
    obtain ⟨⟨r, hr⟩, -⟩ := ihright h.right hfinite.2
    -- only a joined filter looks different as an operand
    have hphrase := hl.logical hr kind
    exact ⟨⟨_, hphrase.group⟩, _, hphrase⟩

/-- The tokens of a printed filter. -/
lemma exists_phrase_lexes {t : Filter} (h : t.Writable) (hfinite : t.isFinite = true) :
    ∃ phrase : Phrase .filter, phrase.toFilter = t ∧ phrase.need = t.printNeed ∧
      Lexes t.print.toList (phrase.tokens ++ [.eof]) [] := by
  obtain ⟨-, phrase, hphrase⟩ := exists_phrase t h hfinite
  have hlexes := hphrase.lexes [] Lexer.closes_nil
  rw [List.append_nil] at hlexes
  exact ⟨phrase, hphrase.toFilter, hphrase.need, hlexes.append (.single rfl)⟩

/-- With the nesting that it needs, a printed filter is read back. -/
lemma parseWithin_print_eq_ok {t : Filter} {maxNesting : Nat} (h : t.Writable)
    (hfinite : t.isFinite = true) (hneed : t.printNeed ≤ maxNesting) :
    parseWithin maxNesting t.print = .ok t := by
  obtain ⟨phrase, htree, hphrase, hlexes⟩ := exists_phrase_lexes h hfinite
  exact parseWithin_eq_ok_iff_lexes.mpr ⟨phrase, htree, by omega, hlexes⟩

/-- With less nesting than it needs, a printed filter is refused for that reason. -/
lemma parseWithin_print_tooDeep {t : Filter} {maxNesting : Nat} (h : t.Writable)
    (hfinite : t.isFinite = true) (hneed : maxNesting < t.printNeed) :
    ∃ position, parseWithin maxNesting t.print = .error (.nestingTooDeep maxNesting position) := by
  obtain ⟨phrase, -, hphrase, hlexes⟩ := exists_phrase_lexes h hfinite
  exact parseWithin_tooDeep phrase (by omega) hlexes

/-- **Printing and reading back.**  A filter whose names can be written, whose values have the shape
that their operators ask for and whose numbers are finite is printed as a text that reads back as the
same filter under every limit on nesting from `printNeed` on.  Under a lower limit the text is refused,
and the limit is the reason. -/
theorem parseWithin_print (t : Filter) (maxNesting : Nat) (h : t.Writable)
    (hfinite : t.isFinite = true) :
    (t.printNeed ≤ maxNesting → parseWithin maxNesting t.print = .ok t) ∧
      (maxNesting < t.printNeed →
        ∃ position, parseWithin maxNesting t.print =
          .error (.nestingTooDeep maxNesting position)) :=
  ⟨parseWithin_print_eq_ok h hfinite, parseWithin_print_tooDeep h hfinite⟩

theorem parseWithin_print_nested :
    let t : Filter := .not (.and
      (.comparison "order.items[0]" .between (.range (.int (-5)) .null))
      (.or (.comparison "note" .eq (.scalar (.str "say \"no\"\n")))
        (.comparison "Nullable" .isIn (.list [.float (.finite true .zero), .bool false]))))
    t.Writable ∧ t.isFinite = true ∧ parseWithin 5 t.print = .ok t ∧
      ∃ position, parseWithin 4 t.print = .error (.nestingTooDeep 4 position) := by
  intro t
  have hwritable : t.Writable := by
    constructor
    · have hlexable : ∀ field ∈ ["order.items[0]", "note", "Nullable"], Lexable field := by
        decide +kernel
      intro c hc
      exact hlexable c.1 (List.mem_map_of_mem (f := (·.1)) hc)
    · decide
  have hfinite : t.isFinite = true := by decide
  exact ⟨hwritable, hfinite, (parseWithin_print t 5 hwritable hfinite).1 (by decide),
    (parseWithin_print t 4 hwritable hfinite).2 (by decide)⟩

end Filter

end FilterLang
