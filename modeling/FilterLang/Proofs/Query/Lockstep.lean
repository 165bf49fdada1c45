import FilterLang.Proofs.Query.Counting
import FilterLang.Proofs.Query.Cursor
import FilterLang.Proofs.Query.Spacing
import Mathlib.Data.List.DropRight

/-!
# The two lexers in lockstep

A part at the end of the text has its place, the number of characters in front of it (`Counting.place`), and the
outcome of a reader that hands on such a part is the outcome of a count (`Counting.settle`).  Each step of the
lexer that counts, run at the place of a part of the text, ends as the reader of that part does; so it takes no
more characters than there are, cuts its contexts out of the text and leaves each of its loops.

`Counting.run_next` puts the steps together.  After a fault, too, both lexers stand at the same place, so they stay
together over any number of readings.
-/

namespace FilterLang

namespace Counting

open Lexer (isWordChar isNameChar isNumberChar unescape? wordLiterals connectives)

/-! ### Parts of the text as counts -/

/-- The count in front of a part at the end of the text. -/
def place (text : String) (cs : List Char) : Nat := text.length - cs.length

variable {text : String} {cs : List Char}

lemma place_append {front : List Char} (h : front ++ cs <:+ text.toList) :
    place text (front ++ cs) + front.length = place text cs := by
  have hle := h.length_le
  rw [List.length_append, String.length_toList] at hle
  rw [place, place, List.length_append]
  omega

lemma char?_place (h : cs <:+ text.toList) (distance : Nat) :
    (Source.ofText text).char? (place text cs + distance) = (cs.drop distance).head? := by
  obtain ⟨front, hfront⟩ := h
  have hplace : place text cs = front.length := by
    rw [place, ← String.length_toList, ← hfront, List.length_append, Nat.add_sub_cancel]
  rw [Source.char?_ofText, hplace, ← hfront, List.getElem?_append_right (Nat.le_add_right _ _),
    Nat.add_sub_cancel_left, List.head?_drop]

/-- A count that is the place of a part of the text is the index of its first character. -/
lemma offset_place (h : cs <:+ text.toList) :
    (Source.ofText text).offset (place text cs) = (Lexer.ofText text).offset cs := by
  rw [Source.offset_ofText, (@Lexer.offset_of_suffix (.ofText text) cs h).position_eq]
  rfl

/-! ### Outcomes of readers as results of a count -/

variable {α β : Type}

/-- What follows a reader, unless the reader finds a fault. -/
def follow (text : String) (scan : Scan α) (f : α → List Char → EStateM.Result Mishap Nat β) :
    EStateM.Result Mishap Nat β :=
  match scan with
  | .ok (a, rest) => f a rest
  | .error fault => .error (.error ((Lexer.ofText text).locate fault)) (place text fault.rest)

/-- The outcome of a reader, with what is left of the text as a count. -/
def settle (text : String) (scan : Scan α) : EStateM.Result Mishap Nat α :=
  follow text scan fun a rest => .ok a (place text rest)

/-- What follows a step whose result is known. -/
lemma run_bind_of_ok {x : Counting α} {count count' : Nat} {a : α} (h : x.run count = .ok a count')
    (f : α → Counting β) : (x >>= f).run count = (f a).run count' := by
  rw [EStateM.run_bind, h]

/-- What follows a step that agrees with a reader. -/
lemma run_bind_of_settle {x : Counting α} {count : Nat} {scan : Scan α} (h : x.run count = settle text scan)
    (f : α → Counting β) :
    (x >>= f).run count = follow text scan fun a rest => (f a).run (place text rest) := by
  rw [EStateM.run_bind, h]
  cases scan <;> rfl

/-! ### Steps agree -/

lemma run_get_bind (f : Nat → Counting α) (count : Nat) : (get >>= f).run count = (f count).run count := rfl

lemma run_peek_bind (h : cs <:+ text.toList) (distance : Nat) (f : Option Char → Counting α) :
    (peek (.ofText text) distance >>= f).run (place text cs) =
      (f (cs.drop distance).head?).run (place text cs) := by
  rw [← char?_place h]
  rfl

lemma run_current_bind (h : cs <:+ text.toList) (f : Option Char → Counting α) :
    (current (.ofText text) >>= f).run (place text cs) = (f cs.head?).run (place text cs) :=
  run_peek_bind h 0 f

lemma run_consume_bind {front : List Char} (h : front ++ cs <:+ text.toList) {count : Nat}
    (hcount : count = front.length) (f : Unit → Counting α) :
    (consume count >>= f).run (place text (front ++ cs)) = (f ()).run (place text cs) := by
  rw [← place_append h, hcount]
  rfl

lemma run_advance_bind {c : Char} (h : c :: cs <:+ text.toList) (f : Unit → Counting α) :
    (advance >>= f).run (place text (c :: cs)) = (f ()).run (place text cs) :=
  @run_consume_bind text cs α [c] h 1 rfl f

/-- The context of a fault is in the text, wherever the fault is. -/
lemma run_failAt {site rest : List Char} (h : site <:+ text.toList) (cause : LexCause) :
    (failAt (.ofText text) (place text site) cause : Counting α).run (place text rest) =
      settle text (.error ⟨cause, site, rest⟩) := by
  have hle : place text site ≤ text.length := Nat.sub_le _ _
  have hcontext := @Lexer.locate_context (.ofText text) ⟨cause, site, rest⟩ h (place text site) rfl
  rw [failAt, Source.context?_ofText text hle, offset_place h, Option.elim_some]
  exact congrArg (fun context => EStateM.Result.error
    (Mishap.error ⟨cause, (Lexer.ofText text).offset site, context⟩) (place text rest)) hcontext.symm

/-- A loop over characters of one class goes round once for each of them and once more. -/
lemma run_collectWithin (h : cs <:+ text.toList) (p : Char → Bool) {rounds : Nat}
    (hrounds : cs.length < rounds) :
    (collectWithin (.ofText text) p rounds).run (place text cs) =
      .ok (cs.takeWhile p) (place text (cs.dropWhile p)) := by
  induction cs generalizing rounds with
  | nil =>
    obtain ⟨n, rfl⟩ := Nat.exists_eq_succ_of_ne_zero (Nat.ne_zero_of_lt hrounds)
    rw [collectWithin, run_current_bind h]
    rfl
  | cons c cs ih =>
    obtain ⟨n, rfl⟩ := Nat.exists_eq_succ_of_ne_zero (Nat.ne_zero_of_lt hrounds)
    rw [collectWithin, run_current_bind h]
    dsimp only [List.head?_cons]
    by_cases hc : p c = true
    · have hmore := ih ((List.suffix_cons c cs).trans h) (Nat.lt_of_succ_lt_succ hrounds)
      rw [if_pos hc, run_advance_bind h, run_bind_of_ok hmore, List.takeWhile_cons_of_pos hc,
        List.dropWhile_cons_of_pos hc]
      rfl
    · rw [if_neg hc, List.takeWhile_cons_of_neg hc, List.dropWhile_cons_of_neg hc]
      rfl

lemma length_lt_rounds (h : cs <:+ text.toList) : cs.length < (Source.ofText text).rounds := by
  have hle := h.length_le
  rw [String.length_toList] at hle
  rw [Source.rounds, Source.length_chars]
  omega

lemma run_collect (h : cs <:+ text.toList) (p : Char → Bool) :
    (collect (.ofText text) p).run (place text cs) = .ok (cs.takeWhile p) (place text (cs.dropWhile p)) :=
  run_collectWithin h p (length_lt_rounds h)

lemma run_skipBlanks_bind (h : cs <:+ text.toList) (f : Unit → Counting α) :
    (skipBlanks (.ofText text) >>= f).run (place text cs) = (f ()).run (place text (Text.skipBlanks cs)) := by
  have hskip : (skipBlanks (.ofText text)).run (place text cs) = .ok () (place text (Text.skipBlanks cs)) := by
    rw [skipBlanks, run_bind_of_ok (run_collect h _)]
    rfl
  exact run_bind_of_ok hskip f

/-! ### Literals agree -/

/-- A character that is kept, in front of the rest of a string. -/
lemma run_kept {x : Counting (List Char)} {quote : Char} {start rest : List Char}
    (h : x.run (place text rest) = settle text (Lexer.stringBody quote start rest)) (c : Char) :
    (do return c :: (← x)).run (place text rest) =
      settle text (match Lexer.stringBody quote start rest with
        | .ok (body, rest) => .ok (c :: body, rest)
        | .error fault => .error fault) := by
  rw [run_bind_of_settle h]
  cases Lexer.stringBody quote start rest <;> rfl

lemma run_stringWithin {quote : Char} {start : List Char} (hstart : start <:+ text.toList)
    (h : cs <:+ text.toList) {rounds : Nat} (hrounds : cs.length < rounds) :
    (stringWithin (.ofText text) quote (place text start) rounds).run (place text cs) =
      settle text (Lexer.stringBody quote start cs) := by
  -- by the rounds and not by the text, because a round takes two characters where there is an escape
  induction rounds generalizing cs with
  | zero => exact absurd hrounds (Nat.not_lt_zero _)
  | succ rounds ih =>
    rw [stringWithin, run_current_bind h]
    cases cs with
    | nil => exact run_failAt hstart _
    | cons c cs =>
      have hcs : cs <:+ text.toList := (List.suffix_cons c cs).trans h
      have hlength : cs.length < rounds := Nat.lt_of_succ_lt_succ hrounds
      dsimp only [List.head?_cons]
      rw [Lexer.stringBody.eq_def]
      dsimp only
      by_cases hquote : c = quote
      · rw [if_pos hquote, if_pos hquote, run_advance_bind h]
        rfl
      rw [if_neg hquote, if_neg hquote]
      by_cases hslash : c = '\\'
      · rw [if_pos hslash, if_pos hslash, run_advance_bind h, run_current_bind hcs]
        cases cs with
        | nil => exact run_failAt hstart _
        | cons escaped cs =>
          dsimp only [List.head?_cons]
          cases unescape? quote escaped with
          | none =>
            dsimp only
            rw [run_get_bind]
            exact run_failAt hcs _
          | some plain =>
            dsimp only
            rw [run_advance_bind hcs]
            exact run_kept (ih ((List.suffix_cons escaped cs).trans hcs) (Nat.lt_of_succ_lt hlength)) plain
      · rw [if_neg hslash, if_neg hslash, run_advance_bind h]
        exact run_kept (ih hcs hlength) c

lemma run_string {c : Char} (h : c :: cs <:+ text.toList) (quote : Char) :
    (string (.ofText text) quote).run (place text (c :: cs)) = settle text (Lexer.string quote (c :: cs)) := by
  have hcs : cs <:+ text.toList := (List.suffix_cons c cs).trans h
  rw [string, run_get_bind, run_advance_bind h,
    run_bind_of_settle (run_stringWithin h hcs (length_lt_rounds hcs)), Lexer.string, List.tail_cons]
  cases Lexer.stringBody quote (c :: cs) cs <;> rfl

lemma run_sign (h : cs <:+ text.toList) :
    (sign (.ofText text)).run (place text cs) =
      .ok (cs.head? == some '-') (place text (if cs.head? == some '-' then cs.tail else cs)) := by
  rw [sign, run_current_bind h]
  by_cases hsign : cs.head? = some '-'
  · obtain ⟨cs, rfl⟩ := List.head?_eq_some_iff.1 hsign
    rw [if_pos hsign, run_advance_bind h]
    rfl
  · rw [if_neg hsign, beq_eq_false_iff_ne.2 hsign, if_neg Bool.false_ne_true]
    rfl

lemma any_head?_isWordChar (cs : List Char) : cs.head?.any isWordChar = Lexer.startsWord cs := by
  cases cs <;> rfl

lemma run_number (h : cs <:+ text.toList) :
    (number (.ofText text)).run (place text cs) = settle text (Lexer.number cs) := by
  rw [number, Lexer.number, run_get_bind, run_bind_of_ok (run_sign h)]
  dsimp only
  have hbody : (if cs.head? == some '-' then cs.tail else cs) <:+ text.toList := by
    split
    · exact (List.tail_suffix cs).trans h
    · exact h
  -- from here on it does not matter whether a sign was in front
  generalize (if cs.head? == some '-' then cs.tail else cs) = body at hbody
  have hrest := (List.dropWhile_suffix isNumberChar).trans hbody
  rw [run_bind_of_ok (run_collect hbody _), List.span_eq_takeWhile_dropWhile, run_current_bind hrest,
    any_head?_isWordChar]
  dsimp only
  split
  · rfl
  · exact run_failAt h _

lemma run_startsNumber_bind (h : cs <:+ text.toList) (f : Bool → Counting α) :
    (startsNumber (.ofText text) >>= f).run (place text cs) =
      (f (Lexer.startsNumber cs)).run (place text cs) := by
  have hstarts : (startsNumber (.ofText text)).run (place text cs) =
      .ok (Lexer.startsNumber cs) (place text cs) := by
    rw [startsNumber, run_current_bind h]
    cases cs with
    | nil => rfl
    | cons c cs =>
      dsimp only [List.head?_cons]
      by_cases hsign : c = '-'
      · subst hsign
        rw [if_neg (by decide), if_pos rfl, run_peek_bind h]
        cases cs <;> rfl
      · have hdigit : Lexer.startsNumber (c :: cs) = c.isDigit := by
          simp [Lexer.startsNumber, Lexer.startsDigit, hsign]
        rw [hdigit, if_neg hsign]
        cases c.isDigit <;> rfl
  exact run_bind_of_ok hstarts f

/-! ### Keywords agree -/

/-- A character of a keyword, as it is compared with the text. -/
lemma fold_eq_iff {anyCase : Bool} {c k : Char} (hk : anyCase = true → k.toLower = k) :
    (c = k ∨ (anyCase = true ∧ c.toLower = k)) ↔ (if anyCase then Char.toLower else id) c = k := by
  cases anyCase with
  | false => simp
  | true =>
    simp only [true_and, if_true]
    refine ⟨?_, Or.inr⟩
    rintro (rfl | h)
    · exact hk rfl
    · exact h

lemma run_matchesAt {anyCase : Bool} (h : cs <:+ text.toList) {word : List Char}
    (hword : ∀ k ∈ word, anyCase = true → k.toLower = k) (distance : Nat) :
    (matchesAt (.ofText text) anyCase word distance).run (place text cs) =
      .ok (Lexer.behindKeyword? (if anyCase then Char.toLower else id) word (cs.drop distance)).isSome
        (place text cs) := by
  induction word generalizing distance with
  | nil =>
    rw [matchesAt, run_peek_bind h, any_head?_isWordChar, Lexer.behindKeyword?]
    cases Lexer.startsWord (cs.drop distance) <;> rfl
  | cons k word ih =>
    rw [List.forall_mem_cons] at hword
    rw [matchesAt, run_peek_bind h]
    cases hrest : cs.drop distance with
    | nil => rfl
    | cons c rest =>
      have hbehind : cs.drop (distance + 1) = rest := by
        rw [← List.drop_drop, hrest]
        rfl
      dsimp only [List.head?_cons]
      rw [Lexer.behindKeyword?, ← hbehind]
      by_cases hc : (if anyCase then Char.toLower else id) c = k
      · rw [if_pos ((fold_eq_iff hword.1).2 hc), if_pos hc]
        exact ih hword.2 (distance + 1)
      · rw [if_neg (mt (fold_eq_iff hword.1).1 hc), if_neg hc]
        rfl

/-- The spelling takes one byte for each character, and is in lower case where the case does not matter. -/
structure Spelled (anyCase : Bool) (word : String) : Prop where
  utf8ByteSize_eq : word.utf8ByteSize = word.length
  toLower_eq : ∀ k ∈ word.toList, anyCase = true → k.toLower = k

/-- What the first keyword of a table that is in front of a text stands for, and the text behind it. -/
def lookup? (anyCase : Bool) (table : List (String × α)) (cs : List Char) : Option (α × List Char) :=
  table.findSome? fun entry =>
    (Lexer.behindKeyword? (if anyCase then Char.toLower else id) entry.1.toList cs).map fun rest =>
      (entry.2, rest)

/-- What is found in front of a text, if anything, with what is left of the text as a count. -/
def settle? (text : String) (cs : List Char) (found? : Option (α × List Char)) :
    EStateM.Result Mishap Nat (Option α) :=
  .ok (found?.map Prod.fst) (place text (found?.elim cs Prod.snd))

/-- A keyword is taken whole: it has as many characters as bytes. -/
lemma run_keyword {anyCase : Bool} (h : cs <:+ text.toList) {table : List (String × α)}
    (htable : ∀ entry ∈ table, Spelled anyCase entry.1) :
    (keyword (.ofText text) anyCase table).run (place text cs) = settle? text cs (lookup? anyCase table cs) := by
  induction table with
  | nil => rfl
  | cons entry table ih =>
    obtain ⟨word, value⟩ := entry
    rw [List.forall_mem_cons] at htable
    obtain ⟨⟨hbytes, hlower⟩, htable⟩ := htable
    rw [keyword, run_bind_of_ok (run_matchesAt h hlower 0), List.drop_zero, lookup?, List.findSome?_cons]
    cases hbehind : Lexer.behindKeyword? (if anyCase then Char.toLower else id) word.toList cs with
    | none => exact ih htable
    | some rest =>
      obtain ⟨front, rfl, hfront, -⟩ := Lexer.behindKeyword?_eq_some_iff.1 hbehind
      have hlength : word.utf8ByteSize = front.length := by
        rw [hbytes, ← String.length_toList, ← hfront, List.length_map]
      exact run_consume_bind h hlength _

/-- With a word of more bytes than characters the count would leave the text. -/
example : (keyword (.ofText "é") false [("é", ())]).run 0 = .ok (some ()) 2 := by rfl

lemma spelled_of_all {anyCase : Bool} {table : List (String × α)}
    (h : (table.all fun entry => entry.1.utf8ByteSize == entry.1.length &&
      entry.1.toList.all fun k => !anyCase || k.toLower == k) = true) :
    ∀ entry ∈ table, Spelled anyCase entry.1 := by
  intro entry hentry
  have hword := List.all_eq_true.1 h entry hentry
  rw [Bool.and_eq_true, beq_iff_eq, List.all_eq_true] at hword
  refine ⟨hword.1, fun k hk hany => ?_⟩
  have hlower := hword.2 k hk
  rw [hany] at hlower
  exact beq_iff_eq.1 hlower

lemma run_wordLiteral (h : cs <:+ text.toList) :
    (wordLiteral (.ofText text)).run (place text cs) = settle? text cs (Lexer.wordLiteral? cs) := by
  have hkeyword : (keyword (.ofText text) true wordLiterals).run (place text cs) =
      settle? text cs (Lexer.wordLiteral? cs) := run_keyword h (spelled_of_all (by decide +kernel))
  rw [wordLiteral, run_get_bind, run_bind_of_ok hkeyword]
  cases Lexer.wordLiteral? cs <;> rfl

/-! ### Lists agree -/

lemma run_element (h : cs <:+ text.toList) :
    (element (.ofText text)).run (place text cs) = settle text (Lexer.element cs) := by
  rw [element, run_current_bind h]
  cases cs with
  | nil =>
    dsimp only [List.head?_nil]
    rw [run_get_bind]
    exact run_failAt h _
  | cons c cs =>
    dsimp only [List.head?_cons]
    rw [Lexer.element]
    by_cases hquote : c = '"' ∨ c = '\''
    · rw [if_pos hquote, if_pos hquote]
      exact run_string h c
    rw [if_neg hquote, if_neg hquote, run_startsNumber_bind h]
    by_cases hnumber : Lexer.startsNumber (c :: cs) = true
    · rw [if_pos hnumber, if_pos hnumber]
      exact run_number h
    rw [if_neg hnumber, if_neg hnumber]
    by_cases hword : isWordChar c = true
    · rw [if_pos hword, if_pos hword, run_bind_of_ok (run_wordLiteral h)]
      cases Lexer.wordLiteral? (c :: cs) with
      | some found => rfl
      | none => exact run_failAt h _
    · rw [if_neg hword, if_neg hword, run_get_bind]
      exact run_failAt h _

lemma run_separator {start : List Char} (hstart : start <:+ text.toList) (h : cs <:+ text.toList) :
    (separator (.ofText text) (place text start)).run (place text cs) =
      settle text (Lexer.separator start cs) := by
  have hskip := (Lexer.skipBlanks_suffix cs).trans h
  rw [separator, run_skipBlanks_bind h, run_current_bind hskip, Lexer.separator]
  generalize Text.skipBlanks cs = behind at hskip ⊢
  cases behind with
  | nil => exact run_failAt hstart _
  | cons c rest =>
    have hrest : rest <:+ text.toList := (List.suffix_cons c rest).trans hskip
    have hmore := (Lexer.skipBlanks_suffix rest).trans hrest
    dsimp only [List.head?_cons]
    by_cases hcomma : c = ','
    · rw [if_pos hcomma, if_pos hcomma, run_advance_bind hskip, run_skipBlanks_bind hrest,
        run_current_bind hmore]
      by_cases hclose : (Text.skipBlanks rest).head? = some ']'
      · rw [if_pos hclose, if_pos hclose, run_get_bind]
        exact run_failAt hmore _
      · rw [if_neg hclose, if_neg hclose]
        rfl
    rw [if_neg hcomma, if_neg hcomma]
    by_cases hclose : c = ']'
    · rw [if_pos hclose, if_pos hclose, run_advance_bind hskip]
      rfl
    · rw [if_neg hclose, if_neg hclose, run_get_bind]
      exact run_failAt hskip _

/-- No blanks are left behind a comma, so a round starts with its element. -/
lemma skipBlanks_of_separator {start rest : List Char} (h : Lexer.separator start cs = .ok (.next, rest)) :
    Text.skipBlanks rest = rest := by
  rcases Lexer.separator_cases h with ⟨hclose, -⟩ | ⟨behind, -, -, rfl, -⟩
  · cases hclose
  · exact List.dropWhile_idempotent Text.isBlank behind

/-- A round of a list takes a character, so both ways to bound the rounds let it end. -/
lemma run_elementsWithin {start : List Char} (hstart : start <:+ text.toList) (h : cs <:+ text.toList)
    (hskip : Text.skipBlanks cs = cs) {rounds bound : Nat} (hrounds : cs.length < rounds)
    (hbound : cs.length < bound) :
    (elementsWithin (.ofText text) (place text start) rounds).run (place text cs) =
      settle text (Lexer.elements start bound cs) := by
  induction rounds generalizing bound cs with
  | zero => exact absurd hrounds (Nat.not_lt_zero _)
  | succ rounds ih =>
    obtain ⟨bound, rfl⟩ := Nat.exists_eq_succ_of_ne_zero (Nat.ne_zero_of_lt hbound)
    rw [elementsWithin, run_skipBlanks_bind h, hskip, run_bind_of_settle (run_element h), Lexer.elements]
    cases hitem : Lexer.element cs with
    | error fault => rfl
    | ok found =>
      obtain ⟨item, behind⟩ := found
      have hbehind : behind <:+ cs.tail := Lexer.element_suffix hitem
      have hin : behind <:+ text.toList := (hbehind.trans (List.tail_suffix cs)).trans h
      refine (run_bind_of_settle (run_separator hstart hin) _).trans ?_
      dsimp only
      cases hseparator : Lexer.separator start behind with
      | error fault => rfl
      | ok found =>
        obtain ⟨separator, rest⟩ := found
        cases separator with
        | close => rfl
        | next =>
          have hrest : rest <:+ behind := Lexer.separator_suffix hseparator
          have hle := (hrest.trans hbehind).length_le
          have hpos : 0 < cs.length := List.length_pos_iff.2 fun hnil => by
            rw [hnil] at hitem
            cases hitem
          rw [List.length_tail] at hle
          refine (run_bind_of_settle (ih (hrest.trans hin) (skipBlanks_of_separator hseparator)
            (by omega) (show rest.length < bound by omega)) _).trans ?_
          dsimp only
          cases Lexer.elements start bound rest <;> rfl

lemma run_list {c : Char} (h : c :: cs <:+ text.toList) :
    (list (.ofText text)).run (place text (c :: cs)) = settle text (Lexer.list (c :: cs)) := by
  have hcs : cs <:+ text.toList := (List.suffix_cons c cs).trans h
  have hskip := (Lexer.skipBlanks_suffix cs).trans hcs
  rw [list, run_get_bind, run_advance_bind h, run_skipBlanks_bind hcs, run_current_bind hskip, Lexer.list,
    List.tail_cons]
  by_cases hclose : (Text.skipBlanks cs).head? = some ']'
  · obtain ⟨rest, hrest⟩ := List.head?_eq_some_iff.1 hclose
    rw [if_pos hclose, if_pos hclose]
    rw [hrest] at hskip ⊢
    rw [run_advance_bind hskip]
    rfl
  · have hlt : (Text.skipBlanks cs).length < (c :: cs).length :=
      Nat.lt_succ_of_le (Lexer.skipBlanks_suffix cs).length_le
    rw [if_neg hclose, if_neg hclose]
    exact run_elementsWithin h hskip (List.dropWhile_idempotent Text.isBlank cs) (length_lt_rounds hskip) hlt

/-! ### Tokens agree -/

/-- The operators are tried first, then the connectives. -/
lemma keyword?_eq (cs : List Char) :
    Lexer.keyword? cs = ((lookup? false (Operator.keywords.map fun op => (op.name, op)) cs).map fun found =>
      (Token.operator found.1, found.2)).or (lookup? false (connectives.zip [Token.and, .not, .or]) cs) := by
  rw [Lexer.keyword?, Lexer.keywordTokens, List.findSome?_append, List.findSome?_map, lookup?,
    List.findSome?_map]
  congr 1
  refine Lexer.findSome?_eq_map fun op _ => ?_
  exact (Option.map_map (fun found => (Token.operator found.1, found.2)) (fun rest => (op, rest)) _).symm

lemma run_word (h : cs <:+ text.toList) :
    (word (.ofText text)).run (place text cs) = .ok (Lexer.word cs).1 (place text (Lexer.word cs).2) := by
  have hoperator := @run_keyword text cs Operator false h (Operator.keywords.map fun op => (op.name, op))
    (spelled_of_all (by decide +kernel))
  have hconnective := @run_keyword text cs Token false h (connectives.zip [Token.and, .not, .or])
    (spelled_of_all (by decide +kernel))
  rw [Lexer.word_eq, keyword?_eq]
  refine (run_bind_of_ok hoperator _).trans ?_
  cases lookup? false (Operator.keywords.map fun op => (op.name, op)) cs with
  | some found => rfl
  | none =>
    refine (run_bind_of_ok hconnective _).trans ?_
    cases lookup? false (connectives.zip [Token.and, .not, .or]) cs with
    | some found => rfl
    | none =>
      refine (run_bind_of_ok (run_wordLiteral h) _).trans ?_
      cases Lexer.wordLiteral? cs with
      | some found => rfl
      | none =>
        refine (run_bind_of_ok (run_collect h _) _).trans ?_
        rw [List.span_eq_takeWhile_dropWhile]
        rfl

lemma run_token (h : cs <:+ text.toList) :
    (token (.ofText text)).run (place text cs) = settle text (Lexer.token cs) := by
  rw [token, run_current_bind h]
  cases cs with
  | nil => rfl
  | cons c cs =>
    dsimp only [List.head?_cons]
    rw [Lexer.token]
    by_cases hopen : c = '('
    · rw [if_pos hopen, if_pos hopen, run_advance_bind h]
      rfl
    rw [if_neg hopen, if_neg hopen]
    by_cases hclose : c = ')'
    · rw [if_pos hclose, if_pos hclose, run_advance_bind h]
      rfl
    rw [if_neg hclose, if_neg hclose]
    by_cases hcomma : c = ','
    · rw [if_pos hcomma, if_pos hcomma, run_advance_bind h]
      rfl
    rw [if_neg hcomma, if_neg hcomma]
    by_cases hquote : c = '"' ∨ c = '\''
    · rw [if_pos hquote, if_pos hquote, run_bind_of_settle (run_string h c)]
      cases Lexer.string c (c :: cs) <;> rfl
    rw [if_neg hquote, if_neg hquote]
    by_cases hlist : c = '['
    · rw [if_pos hlist, if_pos hlist, run_bind_of_settle (run_list h)]
      cases Lexer.list (c :: cs) <;> rfl
    rw [if_neg hlist, if_neg hlist, run_startsNumber_bind h]
    by_cases hnumber : Lexer.startsNumber (c :: cs) = true
    · rw [if_pos hnumber, if_pos hnumber, run_bind_of_settle (run_number h)]
      cases Lexer.number (c :: cs) <;> rfl
    rw [if_neg hnumber, if_neg hnumber]
    by_cases hword : isWordChar c = true
    · rw [if_pos hword, if_pos hword]
      exact run_word h
    · rw [if_neg hword, if_neg hword, run_get_bind]
      exact run_failAt h _

/-- The outcome of a reading of a lexer, with what the lexer is then as a count. -/
def settled (reading : Except LexError SpannedToken × Lexer) : EStateM.Result Mishap Nat SpannedToken :=
  match reading.1 with
  | .ok spanned => .ok spanned reading.2.cursor
  | .error e => .error (.error e) reading.2.cursor

/-- **Counting characters and cutting off what is read come to the same.**  Where a lexer stands, the count that
belongs to it gives the same token or the same fault, and stays with it. -/
lemma run_next {lexer : Lexer} (h : lexer.InText) :
    (next (.ofText lexer.text)).run lexer.cursor = settled lexer.next := by
  have hskip := (Lexer.skipBlanks_suffix lexer.rest).trans h
  show (next (.ofText lexer.text)).run (place lexer.text lexer.rest) = settled lexer.next
  rw [next, run_skipBlanks_bind h, run_get_bind, offset_place hskip]
  refine (run_bind_of_settle (run_token hskip) _).trans ?_
  rw [Lexer.next]
  cases Lexer.token (Text.skipBlanks lexer.rest) <;> rfl

end Counting

end FilterLang
