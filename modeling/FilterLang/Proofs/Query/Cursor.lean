import FilterLang.Proofs.Query.Places

/-!
# Where a lexer stands

A lexer can be asked for the next token again and again, also behind the end of the text and behind a fault that
has left it in the middle of a string, a number or a list.  `Lexer.after` is the lexer after so many readings.
What it has left is always a part at the end of its text (`Lexer.InText`), and `Lexer.cursor` is the number of
characters in front of that part.

A place that is reported is a number of bytes.  `Lexer.Offset` says of which character it is the place, and
`Lexer.locate_context` which part of the text is shown with a fault.
-/

namespace FilterLang.Lexer

/-! ### Where a lexer stands -/

/-- What is left to read is a part of the text. -/
def InText (lexer : Lexer) : Prop := lexer.rest <:+ lexer.text.toList

/-- How many characters of the text are read. -/
def cursor (lexer : Lexer) : Nat := lexer.text.length - lexer.rest.length

/-- The lexer after a number of readings, whatever they have given. -/
def after (lexer : Lexer) (n : Nat) : Lexer := (fun lexer => lexer.next.2)^[n] lexer

lemma after_succ (lexer : Lexer) (n : Nat) : lexer.after (n + 1) = (lexer.after n).next.2 :=
  Function.iterate_succ_apply' _ n lexer

/-- A reading leaves the lexer in the text. -/
lemma InText.next {lexer : Lexer} (h : lexer.InText) : lexer.next.2.InText := by
  obtain ⟨htext, hrest⟩ := lexer.next_suffix
  rw [InText, htext]
  exact (hrest.trans (skipBlanks_suffix _)).trans h

/-- So does any number of them. -/
lemma inText_after (text : String) (n : Nat) :
    ((ofText text).after n).text = text ∧ ((ofText text).after n).InText := by
  induction n with
  | zero => exact ⟨rfl, List.suffix_rfl⟩
  | succ n ih =>
    rw [after_succ]
    exact ⟨(next_suffix _).1.trans ih.1, ih.2.next⟩

variable {lexer : Lexer}

/-- The number of characters that are read tells the lexer. -/
lemma InText.rest_eq (h : lexer.InText) :
    lexer.cursor ≤ lexer.text.length ∧ lexer.rest = lexer.text.toList.drop lexer.cursor := by
  refine ⟨Nat.sub_le _ _, ?_⟩
  rw [cursor, ← String.length_toList]
  exact List.suffix_iff_eq_drop.1 h

lemma cursor_le_cursor_next : lexer.cursor ≤ lexer.next.2.cursor := by
  obtain ⟨htext, hrest⟩ := lexer.next_suffix
  have hle := (hrest.trans (skipBlanks_suffix _)).length_le
  rw [cursor, cursor, htext]
  omega

/-! ### Places -/

/-- The byte offset of a character of a text, given by its index, or of the end of the text. -/
structure Offset (text : String) (index position : Nat) : Prop where
  index_le : index ≤ text.length
  position_eq : position = byteLength (text.toList.take index)

/-- Such a place is between two characters, or at one of the ends of the text. -/
lemma Offset.isValid {text : String} {index position : Nat} (h : Offset text index position) :
    String.Pos.Raw.IsValid text ⟨position⟩ := by
  refine String.Pos.Raw.isValid_iff_exists_append.2
    ⟨String.ofList (text.toList.take index), String.ofList (text.toList.drop index), ?_, ?_⟩
  · rw [← String.ofList_append, List.take_append_drop, String.ofList_toList]
  · rw [h.position_eq, String.rawEndPos, ← byteLength_toList, String.toList_ofList]

/-- The place of a part of the text. -/
lemma offset_of_suffix {suffix : List Char} (h : suffix <:+ lexer.text.toList) :
    Offset lexer.text (lexer.text.length - suffix.length) (lexer.offset suffix) := by
  refine ⟨Nat.sub_le _ _, ?_⟩
  obtain ⟨front, hfront⟩ := h
  have hlength : lexer.text.length - suffix.length = front.length := by
    rw [← String.length_toList, ← hfront, List.length_append]
    omega
  rw [hlength, offset, ← byteLength_toList, ← hfront, List.take_left, byteLength_append]
  omega

/-- The context of an error is a part of the text, cut off at its ends. -/
lemma locate_context {fault : LexFault} (h : fault.site <:+ lexer.text.toList) {index : Nat}
    (hindex : index = lexer.text.length - fault.site.length) :
    (lexer.locate fault).context = String.ofList
      ((lexer.text.toList.take (min (index + contextRadius) lexer.text.length)).drop
        (index - contextRadius)) := by
  obtain ⟨front, hfront⟩ := h
  have hlength : lexer.text.length = front.length + fault.site.length := by
    rw [← String.length_toList, ← hfront, List.length_append]
  obtain rfl : index = front.length := by omega
  have htake : (front ++ fault.site).take (min (front.length + contextRadius) lexer.text.length) =
      front ++ fault.site.take contextRadius := by
    rw [hlength, Nat.add_min_add_left, List.take_length_add_append, ← List.take_eq_take_min]
  rw [locate, ← hfront, htake, List.drop_append_of_le_length (Nat.sub_le _ _)]
  dsimp only
  rw [List.length_append, Nat.add_sub_cancel, List.take_left]

/-! ### One reading -/

/-- A part of the text between what is left before a reading and what is left after it. -/
lemma index_between {part : List Char} (hpart : part <:+ lexer.rest)
    (hrest : lexer.next.2.rest <:+ part) :
    lexer.cursor ≤ lexer.text.length - part.length ∧
      lexer.text.length - part.length ≤ lexer.next.2.cursor := by
  have hle := hpart.length_le
  have hle' := hrest.length_le
  rw [cursor, cursor, (next_suffix lexer).1]
  omega

lemma next_eq_error {e : LexError} (h : lexer.next.1 = .error e) :
    ∃ fault, Lexer.token (Text.skipBlanks lexer.rest) = .error fault ∧ e = lexer.locate fault ∧
      lexer.next.2.rest = fault.rest := by
  rw [next] at h ⊢
  split at h
  · cases h
  · rename_i fault hfault
    rw [hfault]
    exact ⟨fault, rfl, (Except.error.inj h).symm, rfl⟩

end FilterLang.Lexer
