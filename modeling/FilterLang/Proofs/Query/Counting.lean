import FilterLang.Proofs.Query.Places

/-!
# The lexer as a counter

The readers of the lexer hand on what is left of the text.  A lexer that keeps the whole text and counts the
characters that it has read does the same thing, and here it is written out as `Counting`.  It raises its count by
one for a character and by the bytes of the spelling for a keyword, and looks characters up by their index, so
nothing but its own tests keeps the count from running past the end of the text.  Whatever else could go wrong is a
way for it to end: showing a part of the text that is not there, or going round a loop more often than the text has
characters.

None of this happens, and the two lexers agree: `Counting.run_next`, in the module on their lockstep.
-/

namespace FilterLang

/-- Why a count ended without a result. -/
inductive Mishap where
  /-- The text is at fault. -/
  | error (e : LexError)
  /-- A part of the text was to be shown that the text does not have. -/
  | outOfRange
  /-- A loop was to go round more often than the text has characters. -/
  | endless

/-- A text with its places. -/
structure Source where
  /-- The characters, each with the number of bytes in front of it. -/
  chars : List (Nat × Char)
  /-- The number of all bytes. -/
  bytes : Nat

namespace Source

/-- Characters with the number of bytes in front of each, counted from a number on. -/
def indexed : Nat → List Char → List (Nat × Char)
  | _, [] => []
  | bytes, c :: cs => (bytes, c) :: indexed (bytes + c.utf8Size) cs

def ofText (text : String) : Source := ⟨indexed 0 text.toList, text.utf8ByteSize⟩

variable (source : Source)

def char? (index : Nat) : Option Char := source.chars[index]?.map Prod.snd

/-- The number of bytes in front of a character, or of all bytes behind the last one. -/
def offset (index : Nat) : Nat := (source.chars[index]?.map Prod.fst).getD source.bytes

/-- The characters between two indices, if these are in order and in the text. -/
def slice? (start stop : Nat) : Option (List Char) :=
  if start ≤ stop ∧ stop ≤ source.chars.length then
    some (((source.chars.take stop).drop start).map Prod.snd)
  else none

/-- The characters around an index, those on either side of it that an error shows. -/
def context? (index : Nat) : Option (List Char) :=
  let start := index - Lexer.contextRadius
  let stop := min (index + Lexer.contextRadius) source.chars.length
  source.slice? (min start stop) stop

/-- How often a loop may go round: once for each character, and once to find the end. -/
def rounds : Nat := source.chars.length + 1

/-! ### Characters by their indices -/

lemma getElem?_indexed (bytes : Nat) (cs : List Char) (i : Nat) :
    (indexed bytes cs)[i]? = cs[i]?.map fun c => (bytes + Lexer.byteLength (cs.take i), c) := by
  induction cs generalizing bytes i with
  | nil => rfl
  | cons c cs ih =>
    cases i with
    | zero => rfl
    | succ i =>
      rw [indexed, List.getElem?_cons_succ, ih, List.getElem?_cons_succ, List.take_succ_cons,
        Lexer.byteLength_cons]
      simp only [Nat.add_assoc]

lemma map_snd_indexed (bytes : Nat) (cs : List Char) : (indexed bytes cs).map Prod.snd = cs := by
  induction cs generalizing bytes with
  | nil => rfl
  | cons c cs ih => rw [indexed, List.map_cons, ih]

variable (text : String)

lemma map_snd_chars : (ofText text).chars.map Prod.snd = text.toList := map_snd_indexed 0 _

lemma length_chars : (ofText text).chars.length = text.length := by
  rw [← String.length_toList, ← map_snd_chars, List.length_map]

lemma char?_ofText (i : Nat) : (ofText text).char? i = text.toList[i]? := by
  rw [char?, ← List.getElem?_map, map_snd_chars]

lemma offset_ofText (i : Nat) :
    (ofText text).offset i = Lexer.byteLength (text.toList.take i) := by
  rw [offset, ofText, getElem?_indexed]
  cases hc : text.toList[i]? with
  | some c => simp
  | none =>
    have hle : text.toList.length ≤ i := List.getElem?_eq_none_iff.1 hc
    rw [List.take_of_length_le hle, Lexer.byteLength_toList]
    rfl

lemma slice?_ofText {start stop : Nat} (hle : start ≤ stop) (hstop : stop ≤ text.length) :
    (ofText text).slice? start stop = some ((text.toList.take stop).drop start) := by
  rw [slice?, length_chars, if_pos ⟨hle, hstop⟩, List.map_drop, List.map_take, map_snd_chars]

/-- Around an index of the text there is something to show. -/
lemma context?_ofText {index : Nat} (h : index ≤ text.length) :
    (ofText text).context? index =
      some ((text.toList.take (min (index + Lexer.contextRadius) text.length)).drop
        (index - Lexer.contextRadius)) := by
  have hordered : index - Lexer.contextRadius ≤ min (index + Lexer.contextRadius) text.length := by omega
  rw [context?, length_chars, Nat.min_eq_left hordered, slice?_ofText text hordered (Nat.min_le_right _ _)]

end Source

/-- A step of a lexer that counts the characters that it has read. -/
abbrev Counting := EStateM Mishap Nat

namespace Counting

open Lexer (isWordChar isNameChar isNumberChar unescape? wellFormedNumber numberValue wordLiterals connectives
  Separator)

variable (source : Source)

/-! ### Steps -/

/-- The character at the count. -/
def current : Counting (Option Char) := return source.char? (← get)

/-- The character at a distance from the count. -/
def peek (distance : Nat) : Counting (Option Char) := return source.char? ((← get) + distance)

/-- Past a number of characters, whether the text has them or not. -/
def consume (count : Nat) : Counting Unit := modify (· + count)

/-- Past one character. -/
def advance : Counting Unit := consume 1

/-- A fault at an index, with the text around it. -/
def failAt {α : Type} (index : Nat) (cause : LexCause) : Counting α :=
  throw ((source.context? index).elim .outOfRange fun context =>
    .error ⟨cause, source.offset index, String.ofList context⟩)

/-- Characters of one class. -/
def collectWithin (p : Char → Bool) : Nat → Counting (List Char)
  | 0 => throw .endless
  | rounds + 1 => do
    match ← current source with
    | some c =>
      if p c then
        advance
        return c :: (← collectWithin p rounds)
      else return []
    | none => return []

def collect (p : Char → Bool) : Counting (List Char) := collectWithin source p source.rounds

def skipBlanks : Counting Unit := do
  let _ ← collect source Text.isBlank

/-! ### Literals -/

/-- The rest of a string behind its opening quote, which stands at the index `start`. -/
def stringWithin (quote : Char) (start : Nat) : Nat → Counting (List Char)
  | 0 => throw .endless
  | rounds + 1 => do
    match ← current source with
    | none => failAt source start .unterminatedString
    | some c =>
      if c = quote then
        advance
        return []
      else if c = '\\' then
        advance
        match ← current source with
        | none => failAt source start .unterminatedString
        | some escaped =>
          match unescape? quote escaped with
          | none => failAt source (← get) (.invalidEscape escaped)
          | some plain =>
            advance
            return plain :: (← stringWithin quote start rounds)
      else
        advance
        return c :: (← stringWithin quote start rounds)

def string (quote : Char) : Counting Scalar := do
  let start ← get
  advance
  let body ← stringWithin source quote start source.rounds
  return .str (String.ofList body)

/-- The sign of a number, which need not be there. -/
def sign : Counting Bool := do
  if (← current source) = some '-' then
    advance
    return true
  else return false

def number : Counting Scalar := do
  let start ← get
  let negative ← sign source
  let run ← collect source isNumberChar
  if wellFormedNumber run && !(← current source).any isWordChar then return numberValue negative run
  else failAt source start (.invalidNumber (String.ofList (if negative then '-' :: run else run)))

/-- Whether a number starts at the count. -/
def startsNumber : Counting Bool := do
  match ← current source with
  | some c =>
    if c.isDigit then return true
    else if c = '-' then return (← peek source 1).any Char.isDigit
    else return false
  | none => return false

/-- Whether a word stands at a distance from the count and no word goes on behind it. -/
def matchesAt (anyCase : Bool) : List Char → Nat → Counting Bool
  | [], distance => return !(← peek source distance).any isWordChar
  | k :: word, distance => do
    match ← peek source distance with
    | some c =>
      if c = k ∨ (anyCase = true ∧ c.toLower = k) then matchesAt anyCase word (distance + 1)
      else return false
    | none => return false

/-- The first keyword of a table that is at the count.  As many characters are taken as it has bytes. -/
def keyword {α : Type} (anyCase : Bool) : List (String × α) → Counting (Option α)
  | [] => return none
  | (word, value) :: table => do
    if ← matchesAt source anyCase word.toList 0 then
      consume word.utf8ByteSize
      return some value
    else keyword anyCase table

/-- A literal that is a word; where there is none, the count is what it was. -/
def wordLiteral : Counting (Option Scalar) := do
  let saved ← get
  match ← keyword source true wordLiterals with
  | some literal => return some literal
  | none =>
    set saved
    return none

def element : Counting Scalar := do
  match ← current source with
  | none => failAt source (← get) .unterminatedArray
  | some c =>
    if c = '"' ∨ c = '\'' then string source c
    else if ← startsNumber source then number source
    else if isWordChar c then
      match ← wordLiteral source with
      | some literal => return literal
      | none => failAt source (← get) .invalidElement
    else failAt source (← get) (.unexpectedInArray c)

/-- What follows an element of the list whose bracket stands at the index `start`. -/
def separator (start : Nat) : Counting Separator := do
  skipBlanks source
  match ← current source with
  | none => failAt source start .unterminatedArray
  | some c =>
    if c = ',' then
      advance
      skipBlanks source
      if (← current source) = some ']' then failAt source (← get) .trailingComma
      else return .next
    else if c = ']' then
      advance
      return .close
    else failAt source (← get) .expectedSeparator

def elementsWithin (start : Nat) : Nat → Counting (List Scalar)
  | 0 => throw .endless
  | rounds + 1 => do
    skipBlanks source
    let item ← element source
    match ← separator source start with
    | .close => return [item]
    | .next => return item :: (← elementsWithin start rounds)

def list : Counting (List Scalar) := do
  let start ← get
  advance
  skipBlanks source
  if (← current source) = some ']' then
    advance
    return []
  else elementsWithin source start source.rounds

/-! ### Tokens -/

def word : Counting Token := do
  match ← keyword source false (Operator.keywords.map fun op => (op.name, op)) with
  | some op => return .operator op
  | none =>
    match ← keyword source false (connectives.zip [Token.and, .not, .or]) with
    | some connective => return connective
    | none =>
      match ← wordLiteral source with
      | some literal => return .literal (.scalar literal)
      | none => return .identifier (String.ofList (← collect source isNameChar))

def token : Counting Token := do
  match ← current source with
  | none => return .eof
  | some c =>
    if c = '(' then
      advance
      return .lparen
    else if c = ')' then
      advance
      return .rparen
    else if c = ',' then
      advance
      return .comma
    else if c = '"' ∨ c = '\'' then return .literal (.scalar (← string source c))
    else if c = '[' then return .literal (.list (← list source))
    else if ← startsNumber source then return .literal (.scalar (← number source))
    else if isWordChar c then word source
    else failAt source (← get) (.unexpectedCharacter c)

/-- The next token, or the fault in its place. -/
def next : Counting SpannedToken := do
  skipBlanks source
  let position := source.offset (← get)
  let token ← token source
  return ⟨token, position⟩

end Counting

end FilterLang
