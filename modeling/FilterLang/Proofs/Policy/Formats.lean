import FilterLang.Policy.FieldRule
import FilterLang.Proofs.Number.Written
import FilterLang.Proofs.Text.Classes

/-!
# Which texts are dates and which are identifiers

Fields of some types take a text only if it has a certain form.  An identifier has one form, which
`HasUuidForm` writes out.  A date has several.  Here are the two that machines write: a year, a month and a day
alone (`Calendar.isDateText_date`), and the moment in the internet form (`Calendar.isDateText_moment`).  A text
of these forms is a date if and only if the day, and the time, exist.
-/

namespace FilterLang

/-! ### Identifiers -/

/-- A number of hexadecimal digits. -/
structure HexDigits (width : Nat) (cs : List Char) : Prop where
  length_eq : cs.length = width
  all : ∀ c ∈ cs, isHexDigit c = true

/-- The text is five groups of hexadecimal digits with hyphens between them.  The third starts with the version, the
fourth with the variant. -/
def HasUuidForm (text : String) : Prop :=
  ∃ a b c d e : List Char, text.toList = a ++ '-' :: (b ++ '-' :: (c ++ '-' :: (d ++ '-' :: e))) ∧
    (HexDigits 8 a ∧ HexDigits 4 b ∧ HexDigits 4 c ∧ HexDigits 4 d ∧ HexDigits 12 e) ∧
    (∃ version ∈ c.head?, '1' ≤ version ∧ version ≤ '5') ∧
    ∃ variant ∈ d.head?, variant ∈ "89abAB".toList

lemma HexDigits.not_mem_hyphen {width : Nat} {cs : List Char} (h : HexDigits width cs) : '-' ∉ cs := by
  intro hmem
  exact absurd (h.all '-' hmem) (by decide)

lemma intercalate_hyphen (a b c d e : List Char) :
    ['-'].intercalate [a, b, c, d, e] = a ++ '-' :: (b ++ '-' :: (c ++ '-' :: (d ++ '-' :: e))) := by
  simp [List.intercalate]

lemma isUuid_iff {text : String} : isUuid text = true ↔ HasUuidForm text := by
  constructor
  · intro h
    rw [isUuid] at h
    split at h
    · rename_i a b c d e hsplit
      simp only [Bool.and_eq_true, beq_iff_eq, List.map_cons, List.map_nil, List.cons.injEq, and_true,
        List.all_append, List.all_eq_true, Option.any_eq_true, decide_eq_true_eq,
        List.contains_iff_mem] at h
      obtain ⟨⟨⟨⟨ha, hb, hc, hd, he⟩, ⟨⟨⟨ha', hb'⟩, hc'⟩, hd'⟩, he'⟩, hversion⟩, hvariant⟩ := h
      refine ⟨a, b, c, d, e, ?_, ⟨⟨ha, ha'⟩, ⟨hb, hb'⟩, ⟨hc, hc'⟩, ⟨hd, hd'⟩, ⟨he, he'⟩⟩, hversion, hvariant⟩
      rw [← intercalate_hyphen, ← hsplit, List.intercalate_splitOn]
    · cases h
  · rintro ⟨a, b, c, d, e, htext, ⟨ha, hb, hc, hd, he⟩, hversion, hvariant⟩
    have hsplit : text.toList.splitOn '-' = [a, b, c, d, e] := by
      rw [htext, ← intercalate_hyphen]
      refine List.splitOn_intercalate '-' ?_ (List.cons_ne_nil _ _)
      simp only [List.forall_mem_cons]
      exact ⟨ha.not_mem_hyphen, hb.not_mem_hyphen, hc.not_mem_hyphen, hd.not_mem_hyphen, he.not_mem_hyphen,
        List.forall_mem_nil _⟩
    rw [isUuid, hsplit]
    simp only [Bool.and_eq_true, beq_iff_eq, List.map_cons, List.map_nil, List.cons.injEq, and_true,
      List.all_append, List.all_eq_true, Option.any_eq_true, decide_eq_true_eq, List.contains_iff_mem]
    exact ⟨⟨⟨⟨ha.length_eq, hb.length_eq, hc.length_eq, hd.length_eq, he.length_eq⟩,
      ⟨⟨⟨ha.all, hb.all⟩, hc.all⟩, hd.all⟩, he.all⟩, hversion⟩, hvariant⟩

example : isUuid "123e4567-e89b-42d3-a456-426614174000" = true ∧
    isUuid "123e4567-e89b-62d3-a456-426614174000" = false ∧ isUuid "not-a-uuid" = false := by
  decide +kernel

/-! ### Numbers in dates -/

namespace Calendar

/-- A number of digits between two bounds. -/
structure Digits (least most : Nat) (ds : List Char) : Prop where
  all : ∀ c ∈ ds, c.isDigit = true
  least_le : least ≤ ds.length
  le_most : ds.length ≤ most

variable {least most : Nat} {ds rest : List Char}

lemma Digits.digits? (h : Digits least most ds) (hrest : ∀ c ∈ rest.head?, c.isDigit = false) :
    Calendar.digits? least most (ds ++ rest) = some (natOfDigits ds, rest) := by
  have hstop : rest.takeWhile Char.isDigit = [] := by
    cases rest with
    | nil => rfl
    | cons c rest =>
      refine List.takeWhile_cons_of_neg ?_
      rw [hrest c rfl]
      decide
  have hrun : (ds ++ rest).takeWhile Char.isDigit = ds := by
    rw [List.takeWhile_append_of_pos h.all, hstop, List.append_nil]
  rw [Calendar.digits?, hrun, List.take_of_length_le h.le_most, if_neg (Nat.not_lt.2 h.least_le),
    List.drop_left]

lemma isBlank_of_isDigit {c : Char} (h : c.isDigit = true) : Text.isBlank c = false :=
  Lexer.isBlank_of_isWordChar (Lexer.isWordChar_of_isDigit h)

/-- A number starts with a digit. -/
lemma Digits.exists_cons (h : Digits (least + 1) most ds) :
    ∃ c ds', ds = c :: ds' ∧ c.isDigit = true := by
  obtain ⟨c, ds', rfl⟩ := List.exists_cons_of_length_pos (Nat.lt_of_lt_of_le (Nat.succ_pos least) h.least_le)
  exact ⟨c, ds', rfl, h.all c List.mem_cons_self⟩

lemma Digits.skipBlanks (h : Digits (least + 1) most ds) : Text.skipBlanks (ds ++ rest) = ds ++ rest := by
  obtain ⟨c, ds', rfl, hc⟩ := h.exists_cons
  exact Text.skipBlanks_of_not_blank (isBlank_of_isDigit hc)

lemma Digits.field? (h : Digits 1 2 ds) (hrest : ∀ c ∈ rest.head?, c.isDigit = false) :
    Calendar.field? (ds ++ rest) = some (natOfDigits ds, rest) := by
  rw [Calendar.field?, h.skipBlanks, h.digits? hrest]

lemma Digits.year? (h : Digits 1 4 ds) (hrest : ∀ c ∈ rest.head?, c.isDigit = false) :
    Calendar.year? (ds ++ rest) = some ((natOfDigits ds : Int), rest) := by
  have hread := h.digits? hrest
  have hskip : Text.skipBlanks (ds ++ rest) = ds ++ rest := h.skipBlanks
  obtain ⟨c, ds', rfl, hc⟩ := h.exists_cons
  rw [Calendar.year?, hskip]
  split
  · rename_i heq
    obtain ⟨rfl, -⟩ := List.cons.inj heq
    exact absurd hc (by decide)
  · rename_i heq
    obtain ⟨rfl, -⟩ := List.cons.inj heq
    exact absurd hc (by decide)
  · rw [hread]
    rfl

lemma behind?_self (c : Char) (cs : List Char) : behind? c (c :: cs) = some cs := if_pos rfl

/-- A date is read as its three numbers. -/
lemma date?_eq {y m d : List Char} (hy : Digits 1 4 y) (hm : Digits 1 2 m) (hd : Digits 1 2 d)
    (hrest : ∀ c ∈ rest.head?, c.isDigit = false) :
    date? (y ++ '-' :: (m ++ '-' :: (d ++ rest))) =
      some (⟨natOfDigits y, natOfDigits m, natOfDigits d⟩, rest) := by
  have hhyphen : ∀ cs : List Char, ∀ c ∈ ('-' :: cs).head?, c.isDigit = false := by
    rintro cs c ⟨⟩
    rfl
  simp only [date?, hy.year? (hhyphen _), hm.field? (hhyphen _), hd.field? hrest, behind?_self,
    Option.bind_eq_bind, Option.bind_some]
  rfl

/-! ### Other forms -/

lemma behind?_suffix {c : Char} {cs : List Char} (h : behind? c cs = some rest) : rest <:+ cs := by
  cases cs with
  | nil => cases h
  | cons d cs =>
    rw [behind?] at h
    split at h
    · obtain rfl := Option.some.inj h
      exact List.suffix_cons d cs
    · cases h

lemma digits?_suffix {cs : List Char} {n : Nat} (h : digits? least most cs = some (n, rest)) : rest <:+ cs := by
  rw [digits?] at h
  split at h
  · cases h
  · obtain ⟨-, rfl⟩ := Prod.mk.inj (Option.some.inj h)
    exact List.drop_suffix _ _

/-- The internet form has one of three characters between the day and the hour. -/
lemma exists_mem_of_isInternet {cs : List Char} (h : isInternet cs = true) : ∃ c ∈ cs, c ∈ ['T', 't', ' '] := by
  rw [isInternet] at h
  split at h
  · rename_i moment hmoment
    obtain ⟨⟨_, cs₁⟩, h₁, hmoment⟩ := Option.bind_eq_some_iff.1 hmoment
    obtain ⟨cs₂, h₂, hmoment⟩ := Option.bind_eq_some_iff.1 hmoment
    obtain ⟨⟨_, cs₃⟩, h₃, hmoment⟩ := Option.bind_eq_some_iff.1 hmoment
    obtain ⟨cs₄, h₄, hmoment⟩ := Option.bind_eq_some_iff.1 hmoment
    obtain ⟨⟨_, cs₅⟩, h₅, hmoment⟩ := Option.bind_eq_some_iff.1 hmoment
    have hyear : cs₂ <:+ cs := (behind?_suffix h₂).trans (digits?_suffix h₁)
    have hmonth : cs₄ <:+ cs₂ := (behind?_suffix h₄).trans (digits?_suffix h₃)
    have hday : cs₅ <:+ cs := ((digits?_suffix h₅).trans hmonth).trans hyear
    cases cs₅ with
    | nil => cases hmoment
    | cons c cs₆ =>
      refine ⟨c, hday.subset List.mem_cons_self, ?_⟩
      by_contra hc
      cases (if_neg (mt List.contains_iff_mem.1 hc)).symm.trans hmoment
  · cases h

lemma mailWeekday?_suffix {cs : List Char} {weekday : Option Nat} (h : mailWeekday? cs = some (weekday, rest)) :
    rest <:+ cs := by
  rw [mailWeekday?] at h
  split at h
  · obtain ⟨-, rfl⟩ := Prod.mk.inj (Option.some.inj h)
    exact List.suffix_rfl
  · rename_i day cs' hname
    obtain ⟨i, -, hi⟩ := Option.map_eq_some_iff.1 hname
    obtain ⟨-, rfl⟩ := Prod.mk.inj hi
    obtain ⟨cs'', hcomma, heq⟩ := Option.map_eq_some_iff.1 h
    obtain ⟨-, rfl⟩ := Prod.mk.inj heq
    exact (behind?_suffix hcomma).trans (List.drop_suffix _ _)

lemma exists_isBlank_of_behindBlanks? {cs : List Char} (h : behindBlanks? cs = some rest) :
    ∃ c ∈ cs, Text.isBlank c = true := by
  by_contra hnone
  have hskip : Text.skipBlanks cs = cs := by
    cases cs with
    | nil => rfl
    | cons c cs =>
      refine Text.skipBlanks_of_not_blank (Bool.eq_false_iff.2 fun hc => hnone ?_)
      exact ⟨c, List.mem_cons_self, hc⟩
  rw [behindBlanks?, hskip, if_neg (lt_irrefl _)] at h
  cases h

/-- The mail form has a blank behind the day. -/
lemma exists_isBlank_of_isMail {cs : List Char} (h : isMail cs = true) : ∃ c ∈ cs, Text.isBlank c = true := by
  rw [isMail] at h
  split at h
  · cases h
  · rename_i hmoment
    obtain ⟨⟨_, cs₁⟩, h₁, hmoment⟩ := Option.bind_eq_some_iff.1 hmoment
    obtain ⟨⟨_, cs₂⟩, h₂, hmoment⟩ := Option.bind_eq_some_iff.1 hmoment
    obtain ⟨cs₃, h₃, -⟩ := Option.bind_eq_some_iff.1 hmoment
    have hweekday : cs₁ <:+ cs := (mailWeekday?_suffix h₁).trans (List.dropWhile_suffix _)
    have hday : cs₂ <:+ cs := ((digits?_suffix h₂).trans (List.dropWhile_suffix _)).trans hweekday
    obtain ⟨c, hc, hblank⟩ := exists_isBlank_of_behindBlanks? h₃
    exact ⟨c, hday.subset hc, hblank⟩

/-- A text without blanks is no date in the mail form, and nothing is cut off its ends. -/
lemma isDateText_ofList {cs : List Char} (h : ∀ c ∈ cs, Text.isBlank c = false) :
    isDateText (String.ofList cs) = (isLocal cs || isInternet cs) := by
  have hkept : ∀ {l : List Char}, (∀ c ∈ l, Text.isBlank c = false) → l.dropWhile Text.isBlank = l := by
    intro l hl
    cases l with
    | nil => rfl
    | cons c l => exact Text.skipBlanks_of_not_blank (hl c List.mem_cons_self)
  have htrim : Text.trimBlanks cs = cs := by
    rw [Text.trimBlanks, Text.skipBlanks, hkept h, hkept fun c hc => h c (List.mem_reverse.1 hc),
      List.reverse_reverse]
  have hmail : isMail cs = false := by
    refine Bool.eq_false_iff.2 fun hmail => ?_
    obtain ⟨c, hc, hblank⟩ := exists_isBlank_of_isMail hmail
    exact absurd hblank (by rw [h c hc]; decide)
  rw [isDateText, String.toList_ofList, htrim, hmail, Bool.or_false]

/-! ### Dates and moments -/

/-- **A year, a month and a day are a date if and only if the day exists.** -/
lemma isDateText_date {y m d : List Char} (hy : Digits 1 4 y) (hm : Digits 1 2 m) (hd : Digits 1 2 d) :
    isDateText (String.ofList (y ++ '-' :: (m ++ '-' :: d))) =
      (Date.mk (natOfDigits y) (natOfDigits m) (natOfDigits d)).isValid := by
  have hchars : ∀ c ∈ y ++ '-' :: (m ++ '-' :: d), c.isDigit = true ∨ c = '-' := by
    intro c hc
    simp only [List.mem_append, List.mem_cons] at hc
    rcases hc with hc | rfl | hc | rfl | hc
    · exact Or.inl (hy.all c hc)
    · exact Or.inr rfl
    · exact Or.inl (hm.all c hc)
    · exact Or.inr rfl
    · exact Or.inl (hd.all c hc)
  have hblank : ∀ c ∈ y ++ '-' :: (m ++ '-' :: d), Text.isBlank c = false := by
    intro c hc
    rcases hchars c hc with hdigit | rfl
    · exact isBlank_of_isDigit hdigit
    · decide
  have hinternet : isInternet (y ++ '-' :: (m ++ '-' :: d)) = false := by
    refine Bool.eq_false_iff.2 fun hinternet => ?_
    obtain ⟨c, hc, hmem⟩ := exists_mem_of_isInternet hinternet
    rcases hchars c hc with hdigit | rfl
    · fin_cases hmem <;> cases hdigit
    · exact absurd hmem (by decide)
  have hdate := @date?_eq [] y m d hy hm hd nofun
  rw [List.append_nil] at hdate
  rw [isDateText_ofList hblank, hinternet, Bool.or_false, isLocal, hdate]
  exact Bool.and_true _

example : isDateText "2024-02-29" = true ∧ isDateText "2023-02-29" = false ∧ isDateText "yesterday" = false := by
  decide +kernel

lemma Digits.mono {least' most' : Nat} (h : Digits least most ds) (hleast : least' ≤ least) (hmost : most ≤ most') :
    Digits least' most' ds :=
  ⟨h.all, hleast.trans h.least_le, h.le_most.trans hmost⟩

/-- A moment in universal time, written with all its digits. -/
structure WrittenMoment where
  year : List Char
  month : List Char
  day : List Char
  hour : List Char
  minute : List Char
  second : List Char
  year_digits : Digits 4 4 year
  month_digits : Digits 2 2 month
  day_digits : Digits 2 2 day
  hour_digits : Digits 2 2 hour
  minute_digits : Digits 2 2 minute
  second_digits : Digits 2 2 second

namespace WrittenMoment

variable (w : WrittenMoment)

def time : List Char := w.hour ++ ':' :: (w.minute ++ ':' :: (w.second ++ ['Z']))

def text : List Char := w.year ++ '-' :: (w.month ++ '-' :: (w.day ++ 'T' :: w.time))

/-- The moment that is meant. -/
def moment : Moment :=
  ⟨⟨natOfDigits w.year, natOfDigits w.month, natOfDigits w.day⟩,
    ⟨natOfDigits w.hour, natOfDigits w.minute, natOfDigits w.second⟩, 0⟩

/-- The characters between the numbers. -/
def marks : List Char := ['-', 'T', ':', 'Z']

lemma isDigit_of_mem_marks {c : Char} (h : c ∈ marks) (cs : List Char) :
    ∀ e ∈ (c :: cs).head?, e.isDigit = false := by
  rintro e ⟨⟩
  fin_cases h <;> rfl

lemma isBlank_of_mem_text {c : Char} (h : c ∈ w.text) : Text.isBlank c = false := by
  simp only [text, time, List.mem_append, List.mem_cons, List.not_mem_nil, or_false] at h
  rcases h with h | rfl | h | rfl | h | rfl | h | rfl | h | rfl | h | rfl
  · exact isBlank_of_isDigit (w.year_digits.all c h)
  · decide
  · exact isBlank_of_isDigit (w.month_digits.all c h)
  · decide
  · exact isBlank_of_isDigit (w.day_digits.all c h)
  · decide
  · exact isBlank_of_isDigit (w.hour_digits.all c h)
  · decide
  · exact isBlank_of_isDigit (w.minute_digits.all c h)
  · decide
  · exact isBlank_of_isDigit (w.second_digits.all c h)
  · decide

/-- As a time of day without a zone the text has a letter too many. -/
lemma isLocal_text : isLocal w.text = false := by
  have hcolon := @isDigit_of_mem_marks ':' (by decide)
  have htime : time? w.time = some (w.moment.time, ['Z']) := by
    simp only [time?, time, (w.hour_digits.mono (by decide) le_rfl).field? (hcolon _), behind?_self,
      Option.bind_eq_bind, (w.minute_digits.mono (by decide) le_rfl).field? (hcolon _), Option.bind_some,
      (w.second_digits.mono (by decide) le_rfl).field? (isDigit_of_mem_marks (c := 'Z') (by decide) [])]
    rfl
  have hdate := date?_eq (w.year_digits.mono (by decide) le_rfl) (w.month_digits.mono (by decide) le_rfl)
    (w.day_digits.mono (by decide) le_rfl) (isDigit_of_mem_marks (c := 'T') (by decide) w.time)
  rw [isLocal, text, hdate]
  dsimp only
  rw [behind?_self, Option.getD_some, htime]
  exact Bool.and_false _

lemma isInternet_text : isInternet w.text = w.moment.isValid := by
  have hhyphen := @isDigit_of_mem_marks '-' (by decide)
  have hcolon := @isDigit_of_mem_marks ':' (by decide)
  have hmoment : internetMoment? w.text = some (w.moment, []) := by
    refine Option.bind_eq_some_iff.2 ⟨_, w.year_digits.digits? (hhyphen _), ?_⟩
    refine Option.bind_eq_some_iff.2 ⟨_, behind?_self _ _, ?_⟩
    refine Option.bind_eq_some_iff.2 ⟨_, w.month_digits.digits? (hhyphen _), ?_⟩
    refine Option.bind_eq_some_iff.2 ⟨_, behind?_self _ _, ?_⟩
    refine Option.bind_eq_some_iff.2 ⟨_, w.day_digits.digits? (isDigit_of_mem_marks (by decide) _), ?_⟩
    refine (if_pos (by decide)).trans (Option.bind_eq_some_iff.2 ⟨w.time, rfl, ?_⟩)
    refine Option.bind_eq_some_iff.2 ⟨_, w.hour_digits.digits? (hcolon _), ?_⟩
    refine Option.bind_eq_some_iff.2 ⟨_, behind?_self _ _, ?_⟩
    refine Option.bind_eq_some_iff.2 ⟨_, w.minute_digits.digits? (hcolon _), ?_⟩
    refine Option.bind_eq_some_iff.2 ⟨_, behind?_self _ _, ?_⟩
    exact Option.bind_eq_some_iff.2 ⟨_, w.second_digits.digits? (isDigit_of_mem_marks (by decide) _), rfl⟩
  rw [isInternet, hmoment]

end WrittenMoment

/-- **A moment in universal time is a date if and only if it exists.** -/
lemma isDateText_moment (w : WrittenMoment) : isDateText (String.ofList w.text) = w.moment.isValid := by
  rw [isDateText_ofList fun _ => w.isBlank_of_mem_text, w.isLocal_text, Bool.false_or, w.isInternet_text]

example : isDateText "2024-01-01T10:30:00Z" = true ∧ isDateText "2024-01-01T24:00:00Z" = false ∧
    isDateText "2024-01-01T10:30:00.123+02:00" = true ∧ isDateText "Mon, 1 Jan 2024 10:30:00 +0000" = true := by
  decide +kernel

end Calendar

end FilterLang
