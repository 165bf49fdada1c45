import FilterLang.Calendar.Date
import FilterLang.Number.Decimal
import FilterLang.Text.Blank

/-!
# Texts that name a date

A text counts as a date if it has one of four forms: a date alone, a date with a time of day, the
internet form of a moment (`2024-01-01T10:30:00Z`), or the form of a mail header
(`Mon, 1 Jan 2024 10:30:00 +0000`).  The first two are lenient about blanks in front of a number and
about its width; the third is not.

Each reader below takes something off the front of a text and gives what is left.
-/

namespace FilterLang.Calendar

/-- The text behind a given character. -/
def behind? (c : Char) : List Char → Option (List Char)
  | d :: rest => if d = c then some rest else none
  | [] => none

/-- The text behind at least one blank. -/
def behindBlanks? (cs : List Char) : Option (List Char) :=
  let rest := Text.skipBlanks cs
  if rest.length < cs.length then some rest else none

/-- A number of at least `least` and at most `most` digits. -/
def digits? (least most : Nat) (cs : List Char) : Option (Nat × List Char) :=
  let run := (cs.takeWhile Char.isDigit).take most
  if run.length < least then none else some (natOfDigits run, cs.drop run.length)

/-- A fraction of a second, if there is a point: the point and at least one digit. -/
def behindFraction? : List Char → Option (List Char)
  | '.' :: rest => if rest.head?.any Char.isDigit then some (rest.dropWhile Char.isDigit) else none
  | cs => some cs

/-! ## Lenient forms -/

/-- A number of one or two digits, blanks in front of it allowed. -/
def field? (cs : List Char) : Option (Nat × List Char) := digits? 1 2 (Text.skipBlanks cs)

/-- A year: up to four digits, or a sign and any number of digits. -/
def year? (cs : List Char) : Option (Int × List Char) :=
  match Text.skipBlanks cs with
  | '-' :: rest => (digits? 1 rest.length rest).map fun (n, rest) => (-n, rest)
  | '+' :: rest => (digits? 1 rest.length rest).map fun (n, rest) => (n, rest)
  | cs => (digits? 1 4 cs).map fun (n, rest) => (n, rest)

/-- A year, a month and a day, with hyphens between them. -/
def date? (cs : List Char) : Option (Date × List Char) := do
  let (year, cs) ← year? cs
  let (month, cs) ← field? (← behind? '-' cs)
  let (day, cs) ← field? (← behind? '-' cs)
  return (⟨year, month, day⟩, cs)

/-- An hour and a minute, and a second with its fraction, which may be missing. -/
def time? (cs : List Char) : Option (TimeOfDay × List Char) := do
  let (hour, cs) ← field? cs
  let (minute, cs) ← field? (← behind? ':' cs)
  match behind? ':' cs with
  | none => return (⟨hour, minute, 0⟩, cs)
  | some cs =>
    let (second, cs) ← field? cs
    return (⟨hour, minute, second⟩, ← behindFraction? cs)

/-- The text is a date, or a date and a time of day with a `T` or any number of blanks between. -/
def isLocal (cs : List Char) : Bool :=
  match date? cs with
  | none => false
  | some (date, cs) =>
    date.isValid &&
      (cs.isEmpty ||
        match time? ((behind? 'T' cs).getD cs) with
        | some (time, []) => time.isValid
        | _ => false)

/-! ## The internet form -/

/-- A sign, two digits, possibly a colon, and two digits up to 59, in seconds. -/
def offset? (minus : List Char) (colon : Bool) (cs : List Char) : Option (Int × List Char) := do
  let (negative, cs) ←
    match cs with
    | '+' :: rest => some (false, rest)
    | c :: rest => if minus.contains c then some (true, rest) else none
    | [] => none
  let (hours, cs) ← digits? 2 2 cs
  let cs ← if colon then behind? ':' cs else some cs
  let (minutes, cs) ← digits? 2 2 cs
  if 59 < minutes then none
  else
    let seconds : Int := (hours * 60 + minutes) * 60
    some (if negative then -seconds else seconds, cs)

/-- The distance from universal time, which `Z` stands for itself. -/
def internetZone? : List Char → Option (Int × List Char)
  | 'Z' :: rest | 'z' :: rest => some (0, rest)
  | cs => offset? ['-', '−'] true cs

/-- The date and time in the internet form. -/
def internetMoment? (cs : List Char) : Option (Moment × List Char) := do
  let (year, cs) ← digits? 4 4 cs
  let (month, cs) ← digits? 2 2 (← behind? '-' cs)
  let (day, cs) ← digits? 2 2 (← behind? '-' cs)
  let cs ←
    match cs with
    | c :: rest => if ['T', 't', ' '].contains c then some rest else none
    | [] => none
  let (hour, cs) ← digits? 2 2 cs
  let (minute, cs) ← digits? 2 2 (← behind? ':' cs)
  let (second, cs) ← digits? 2 2 (← behind? ':' cs)
  let (offset, cs) ← internetZone? (← behindFraction? cs)
  return (⟨⟨year, month, day⟩, ⟨hour, minute, second⟩, offset⟩, cs)

/-- The text is a moment in the internet form. -/
def isInternet (cs : List Char) : Bool :=
  match internetMoment? cs with
  | some (moment, []) => moment.isValid
  | _ => false

/-! ## The mail form -/

/-- The weekdays from Monday on. -/
def weekdays : List String := ["mon", "tue", "wed", "thu", "fri", "sat", "sun"]

/-- The months from January on. -/
def months : List String :=
  ["jan", "feb", "mar", "apr", "may", "jun", "jul", "aug", "sep", "oct", "nov", "dec"]

/-- The place of a three-letter name in a list, whatever the case of its letters. -/
def name? (names : List String) (cs : List Char) : Option (Nat × List Char) :=
  let word := (cs.take 3).map Char.toLower
  (names.findIdx? fun name => name.toList == word).map fun i => (i, cs.drop 3)

/-- Names of zones, with their distance from universal time in hours. -/
def zones : List (String × Int) :=
  [("gmt", 0), ("ut", 0), ("z", 0), ("edt", -4), ("est", -5), ("cdt", -5), ("cst", -6), ("mdt", -6),
   ("mst", -7), ("pdt", -7), ("pst", -8)]

/-- The distance from universal time: the name of a zone, a single letter other than `J`, or a sign
and four digits. -/
def mailZone? (cs : List Char) : Option (Int × List Char) :=
  let name := (cs.takeWhile Char.isAlpha).map Char.toLower
  let rest := cs.drop name.length
  if name.isEmpty then offset? ['-'] false cs
  else
    match zones.lookup (String.ofList name) with
    | some hours => some (hours * 3600, rest)
    | none => if name.length = 1 ∧ name ≠ ['j'] then some (0, rest) else none

/-- The text behind the closing parenthesis of a comment in which `depth + 1` parentheses are open.
A backslash takes its meaning from the character behind it. -/
def behindComment? (depth : Nat) : List Char → Option (List Char)
  | [] => none
  | '\\' :: _ :: rest => behindComment? depth rest
  | '(' :: rest => behindComment? (depth + 1) rest
  | ')' :: rest =>
    match depth with
    | 0 => some rest
    | depth + 1 => behindComment? depth rest
  | _ :: rest => behindComment? depth rest

/-- The text is empty or made of comments, with blanks in front of each. -/
def isComments (cs : List Char) : Bool := go cs.length cs
where
  /-- At most `bound` comments are left. -/
  go (bound : Nat) (cs : List Char) : Bool :=
    cs.isEmpty ||
      match bound, Text.skipBlanks cs with
      | bound + 1, '(' :: rest =>
        match behindComment? 0 rest with
        | some rest => go bound rest
        | none => false
      | _, _ => false

/-- The weekday at the front, which needs a comma behind it. -/
def mailWeekday? (cs : List Char) : Option (Option Nat × List Char) :=
  match name? weekdays cs with
  | none => some (none, cs)
  | some (weekday, cs) => (behind? ',' cs).map fun cs => (some weekday, cs)

/-- A year of at least two digits; one of two or three digits counts from 1900, or from 2000 if it
is below 50. -/
def mailYear? (cs : List Char) : Option (Int × List Char) := do
  let (year, rest) ← digits? 2 cs.length cs
  let width := cs.length - rest.length
  let century :=
    if width = 2 then if year ≤ 49 then 2000 else 1900
    else if width = 3 then 1900
    else 0
  return ((year + century : Nat), rest)

/-- An hour, a minute, and a second, which may be missing. -/
def mailTime? (cs : List Char) : Option (TimeOfDay × List Char) := do
  let (hour, cs) ← digits? 2 2 cs
  let cs ← behind? ':' (Text.skipBlanks cs)
  let (minute, cs) ← digits? 2 2 (Text.skipBlanks cs)
  match behind? ':' (Text.skipBlanks cs) with
  | none => return (⟨hour, minute, 0⟩, cs)
  | some cs =>
    let (second, cs) ← digits? 2 2 cs
    return (⟨hour, minute, second⟩, cs)

/-- The date and time in the mail form, with the weekday if there is one. -/
def mailMoment? (cs : List Char) : Option ((Moment × Option Nat) × List Char) := do
  let (weekday, cs) ← mailWeekday? (Text.skipBlanks cs)
  let (day, cs) ← digits? 1 2 (Text.skipBlanks cs)
  let (month, cs) ← name? months (← behindBlanks? cs)
  let (year, cs) ← mailYear? (← behindBlanks? cs)
  let (time, cs) ← mailTime? (← behindBlanks? cs)
  let (offset, cs) ← mailZone? (← behindBlanks? cs)
  return ((⟨⟨year, month + 1, day⟩, time, offset⟩, weekday), cs)

/-- The text is a moment in the mail form; a weekday has to be the right one. -/
def isMail (cs : List Char) : Bool :=
  match mailMoment? cs with
  | none => false
  | some ((moment, weekday), cs) =>
    isComments cs && moment.isValid && weekday.all (· == moment.date.weekday)

/-- The text names a date in one of the four forms; blanks around it do not matter. -/
def isDateText (text : String) : Bool :=
  let cs := Text.trimBlanks text.toList
  isLocal cs || isInternet cs || isMail cs

end FilterLang.Calendar
