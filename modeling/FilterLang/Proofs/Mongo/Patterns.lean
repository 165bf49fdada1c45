import FilterLang.Proofs.Mongo.Faithful
import FilterLang.Proofs.Target.Patterns

/-!
# Text searches in MongoDB are literal

A text search becomes a regular expression, and the searched text, which comes from the query, stands in the
middle of it.  `pieces?` reads a regular expression piece by piece: a piece is a character that stands for
itself or one that does not.  Of the expression of a text search every piece stands for itself, but for the
anchor that the operator puts at one of the ends (`pieces?_searchPattern`).  A text that ends in backslashes or
holds anchors of its own makes no difference, and so the expression tells the operator and the text.
-/

namespace FilterLang.Mongo

/-! ## Regular expressions, piece by piece -/

/-- The characters that stand for themselves only behind a backslash. -/
def metacharacters : List Char :=
  ['\\', '.', '+', '*', '?', '(', ')', '|', '[', ']', '\x7b', '\x7d', '^', '$', '#', '&', '-', '~']

/-- A piece of a regular expression. -/
inductive Piece where
  /-- A character that stands for itself. -/
  | literal (c : Char)
  /-- A character that means something else, such as an anchor. -/
  | special (c : Char)
deriving DecidableEq

/-- A character without a backslash in front of it. -/
def Piece.plain (c : Char) : Piece := if c ∈ metacharacters then .special c else .literal c

/-- The pieces of a regular expression.  A backslash takes the meaning from the character behind it.  In front
of a character that stands for itself it may give a meaning to it, and at the end it has nothing to act on;
such expressions are not read. -/
def pieces? : List Char → Option (List Piece)
  | [] => some []
  | c :: rest =>
    if c = '\\' then
      match rest with
      | [] => none
      | escaped :: rest =>
        if escaped ∈ metacharacters then (pieces? rest).map (.literal escaped :: ·) else none
    else (pieces? rest).map (.plain c :: ·)

lemma mem_regexSpecials_iff (c : Char) : regexSpecials.contains c = true ↔ c ∈ metacharacters := by
  have hsame : regexSpecials = metacharacters := rfl
  rw [hsame, List.contains_iff_mem]

/-- One character of a searched text is one piece, whatever follows. -/
lemma pieces?_escape (c : Char) (rest : List Char) :
    pieces? ((if regexSpecials.contains c then ['\\', c] else [c]) ++ rest) =
      (pieces? rest).map (.literal c :: ·) := by
  by_cases hc : c ∈ metacharacters
  · rw [if_pos ((mem_regexSpecials_iff c).2 hc)]
    change (if c ∈ metacharacters then (pieces? rest).map (.literal c :: ·) else none) = _
    rw [if_pos hc]
  · have hslash : c ≠ '\\' := by
      rintro rfl
      exact hc (by decide)
    rw [if_neg (mt (mem_regexSpecials_iff c).1 hc), List.singleton_append, pieces?.eq_def]
    simp only [if_neg hslash, Piece.plain, if_neg hc]

lemma pieces?_escapeRegex (text : String) (rest : List Char) :
    pieces? ((escapeRegex text).toList ++ rest) =
      (pieces? rest).map (text.toList.map .literal ++ ·) := by
  rw [escapeRegex, String.toList_ofList]
  induction text.toList with
  | nil => simp
  | cons c cs ih =>
    rw [List.flatMap_cons, List.append_assoc, pieces?_escape, ih, Option.map_map]
    rfl

/-! ## Text searches -/

/-- The characters of a text, with the anchor of the start in front of them or the anchor of the end behind
them if the operator asks for it. -/
def searchPieces (op : Operator) (text : String) : List Piece :=
  (if op = .startsWith then [.special '^'] else []) ++ text.toList.map .literal ++
    (if op = .endsWith then [.special '$'] else [])

/-- The regular expression of a text search has the characters of the text and an anchor for pieces. -/
lemma pieces?_searchPattern (op : Operator) (text : String) :
    pieces? (searchPattern op text).toList = some (searchPieces op text) := by
  have hcaret (rest : List Char) : pieces? ('^' :: rest) = (pieces? rest).map (.special '^' :: ·) := by
    rw [pieces?.eq_def]
    rfl
  have hdollar : pieces? ['$'] = some [.special '$'] := rfl
  have hplain := pieces?_escapeRegex text []
  rw [List.append_nil] at hplain
  cases op with
  | startsWith =>
    rw [searchPattern, String.toList_append]
    change pieces? ('^' :: (escapeRegex text).toList) = _
    rw [hcaret, hplain]
    rfl
  | endsWith =>
    rw [searchPattern, String.toList_append]
    change pieces? ((escapeRegex text).toList ++ ['$']) = _
    rw [pieces?_escapeRegex, hdollar]
    rfl
  | _ =>
    change pieces? (escapeRegex text).toList = _
    rw [hplain]
    rfl

lemma literal_injective : Function.Injective Piece.literal := fun _ _ h => Piece.literal.inj h

/-- The anchor that the operator asks for is the only piece that does not stand for itself. -/
lemma special_mem_searchPieces_iff {op : Operator} {text : String} {c : Char} :
    .special c ∈ searchPieces op text ↔ op = .startsWith ∧ c = '^' ∨ op = .endsWith ∧ c = '$' := by
  by_cases hstart : op = .startsWith <;> by_cases hend : op = .endsWith <;>
    simp [searchPieces, hstart, hend]

/-- The operator and the text can be told from the pieces. -/
lemma searchPieces_inj {op op' : Operator} {text text' : String} (hop : op.isPattern = true)
    (hop' : op'.isPattern = true) (h : searchPieces op text = searchPieces op' text') :
    op = op' ∧ text = text' := by
  have hsame : op = op' := by
    have hspecial (c : Char) : (op = .startsWith ∧ c = '^' ∨ op = .endsWith ∧ c = '$') ↔
        (op' = .startsWith ∧ c = '^' ∨ op' = .endsWith ∧ c = '$') := by
      rw [← @special_mem_searchPieces_iff op text, h, special_mem_searchPieces_iff]
    have hstart : op = .startsWith ↔ op' = .startsWith := by simpa using hspecial '^'
    have hend : op = .endsWith ↔ op' = .endsWith := by simpa using hspecial '$'
    rcases Operator.pattern_cases hop with rfl | rfl | rfl <;>
      rcases Operator.pattern_cases hop' with rfl | rfl | rfl <;> simp_all
  subst hsame
  refine ⟨rfl, String.toList_inj.1 (List.map_injective_iff.2 literal_injective ?_)⟩
  exact List.append_cancel_left (List.append_cancel_right h)

/-- The regular expression that a filter holds a field against. -/
def regex? (field : String) (filter : Json) : Option String :=
  ((filter.get? field).bind (·.get? "$regex")).bind Json.asStr?

lemma regex?_single (field pattern : String) :
    regex? field (.single field (search pattern)) = some pattern := by
  have hfield : (Json.single field (search pattern)).get? field = some (search pattern) := by
    rw [Json.single, Json.get?, List.lookup_cons_self]
  rw [regex?, hfield]
  rfl

lemma compile_search {op : Operator} (h : op.isPattern = true) (field : String) (s : Scalar) :
    compile (.comparison field op (.scalar s)) =
      .ok (.single field (search (searchPattern op s.text))) := by
  rcases Operator.pattern_cases h with rfl | rfl | rfl <;> rfl

/-- **Text searches are literal and distinguishable.**  The regular expression of a text search is, piece by
piece, the characters of the text that is searched, each standing for itself, with an anchor in front of them
exactly for `startsWith` and one behind them exactly for `endsWith`.  Two text searches on one field have the
same regular expression only if they have the same operator and the same text. -/
theorem compile_pattern_pieces {op : Operator} (h : op.isPattern = true) (field : String) (s : Scalar) :
    ∃ filter pattern, compile (.comparison field op (.scalar s)) = .ok filter ∧
      regex? field filter = some pattern ∧
      pieces? pattern.toList = some ((if op = .startsWith then [.special '^'] else []) ++
        s.text.toList.map .literal ++ (if op = .endsWith then [.special '$'] else [])) ∧
      ∀ {op' : Operator} {s' : Scalar} {filter' : Json}, op'.isPattern = true →
        compile (.comparison field op' (.scalar s')) = .ok filter' →
        regex? field filter' = some pattern → op' = op ∧ s'.text = s.text := by
  refine ⟨_, _, compile_search h field s, regex?_single _ _, pieces?_searchPattern op s.text, ?_⟩
  intro op' s' filter' h' hcompile hregex
  obtain rfl := Except.ok.inj ((compile_search h' field s').symm.trans hcompile)
  rw [regex?_single, Option.some.injEq] at hregex
  refine searchPieces_inj h' h (Option.some.inj ?_)
  rw [← pieces?_searchPattern, ← pieces?_searchPattern, hregex]

/-- The search for a text that holds both anchors and ends in a backslash.  The text with one more anchor,
searched for anywhere, has another regular expression. -/
theorem compile_pattern_pieces_anchors :
    ∃ filter pattern, compile (.comparison "a" .endsWith (.scalar (.str "^$\\"))) = .ok filter ∧
      regex? "a" filter = some pattern ∧
      pieces? pattern.toList = some [.literal '^', .literal '$', .literal '\\', .special '$'] ∧
      ∀ filter', compile (.comparison "a" .contains (.scalar (.str "^$\\$"))) = .ok filter' →
        regex? "a" filter' ≠ some pattern := by
  obtain ⟨filter, pattern, hcompile, hregex, hpieces, hinj⟩ :=
    @compile_pattern_pieces .endsWith rfl "a" (.str "^$\\")
  refine ⟨filter, pattern, hcompile, hregex, hpieces, fun filter' hcompile' hregex' => ?_⟩
  exact absurd (hinj rfl hcompile' hregex').1 (by decide)

end FilterLang.Mongo
