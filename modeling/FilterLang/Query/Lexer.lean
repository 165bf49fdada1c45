import FilterLang.Query.Token
import FilterLang.Text.Alphanumeric
import FilterLang.Text.Blank

/-!
# From text to tokens

A token is read off the front of a list of characters, and what is left is again a list of
characters.  Places are never counted while reading: a place is a suffix of the text, and
`Lexer.next` turns it into a number of bytes at the end.

Reading may fail.  A failure says where the fault is and where reading would go on, and the two
differ: an unfinished string is a fault at its opening quote, found at the end of the text.
-/

namespace FilterLang

/-! ## Faults -/

/-- What can be wrong with the text of a query. -/
inductive LexCause where
  | unexpectedCharacter (c : Char)
  | invalidEscape (c : Char)
  | unterminatedString
  | invalidNumber (text : String)
  | unterminatedArray
  | invalidElement
  | unexpectedInArray (c : Char)
  | expectedSeparator
  | trailingComma
deriving DecidableEq

/-- The wording of a fault. -/
def LexCause.message : LexCause → String
  | unexpectedCharacter c => s!"Unexpected character '{c}'"
  | invalidEscape c => "Invalid escape sequence: \\" ++ c.toString
  | unterminatedString => "Unterminated string: missing closing quote"
  | invalidNumber text => s!"Invalid number '{text}'"
  | unterminatedArray => "Unterminated array"
  | invalidElement => "Invalid array element"
  | unexpectedInArray c => s!"Unexpected character '{c}' in array"
  | expectedSeparator => "Expected ',' or ']' in array"
  | trailingComma => "Trailing comma in array"

/-- A fault in the text that is being read. -/
structure LexFault where
  cause : LexCause
  /-- The text from the fault on. -/
  site : List Char
  /-- The text that is left to read. -/
  rest : List Char
deriving DecidableEq

/-- The outcome of reading something off the front of a text. -/
abbrev Scan (α : Type) := Except LexFault (α × List Char)

namespace Lexer

/-! ## Characters -/

/-- The character may stand in a word. -/
def isWordChar (c : Char) : Bool := Text.isAlphanumeric c || c == '_'

/-- The character may stand in the name of a field. -/
def isNameChar (c : Char) : Bool := isWordChar c || c == '.' || c == '[' || c == ']'

/-- The text starts with a character of a word. -/
def startsWord : List Char → Bool
  | c :: _ => isWordChar c
  | [] => false

/-- The text starts with a digit. -/
def startsDigit : List Char → Bool
  | c :: _ => c.isDigit
  | [] => false

/-! ## Literals -/

/-- The character that a character behind a backslash stands for. -/
def unescape? (quote c : Char) : Option Char :=
  if c = 'n' then some '\n'
  else if c = 't' then some '\t'
  else if c = 'r' then some '\r'
  else if c = '\\' then some '\\'
  else if c = quote then some quote
  else none

/-- The rest of a string behind its opening quote.  `start` is the text from that quote on. -/
def stringBody (quote : Char) (start : List Char) : List Char → Scan (List Char)
  | [] => .error ⟨.unterminatedString, start, []⟩
  | c :: rest =>
    if c = quote then .ok ([], rest)
    else if c = '\\' then
      match rest with
      | [] => .error ⟨.unterminatedString, start, []⟩
      | escaped :: rest =>
        match unescape? quote escaped with
        | none => .error ⟨.invalidEscape escaped, escaped :: rest, escaped :: rest⟩
        | some plain =>
          match stringBody quote start rest with
          | .ok (body, rest) => .ok (plain :: body, rest)
          | .error fault => .error fault
    else
      match stringBody quote start rest with
      | .ok (body, rest) => .ok (c :: body, rest)
      | .error fault => .error fault

/-- A string literal, from its opening quote on. -/
def string (quote : Char) (start : List Char) : Scan Scalar :=
  match stringBody quote start start.tail with
  | .ok (body, rest) => .ok (.str (String.ofList body), rest)
  | .error fault => .error fault

/-- A character of a number behind its sign. -/
def isNumberChar (c : Char) : Bool := c.isDigit || c == '.'

/-- A run of digits and points is a number: it has at most one point, which stands between
digits. -/
def wellFormedNumber (run : List Char) : Bool :=
  decide (run.count '.' ≤ 1) && run.head? != some '.' && run.getLast? != some '.'

/-- The literal that a well-formed run names.  Without a point it is a whole number, unless it is
too large for one. -/
def numberValue (negative : Bool) (run : List Char) : Scalar :=
  if run.contains '.' then
    let whole := run.takeWhile (· != '.')
    let fraction := (run.dropWhile (· != '.')).tail
    let digits := natOfDigits (whole ++ fraction)
    .float (.signed negative (Magnitude.ofPlaces? digits fraction.length))
  else
    let n := natOfDigits run
    match Scalar.ofInt? (if negative then -n else n) with
    | some literal => literal
    | none => .float (.signed negative (Magnitude.ofPlaces? n 0))

/-- A number literal, from its sign or first digit on. -/
def number (start : List Char) : Scan Scalar :=
  let negative := start.head? == some '-'
  let (run, rest) := (if negative then start.tail else start).span isNumberChar
  if wellFormedNumber run && !startsWord rest then .ok (numberValue negative run, rest)
  else
    let lexeme := if negative then '-' :: run else run
    .error ⟨.invalidNumber (String.ofList lexeme), start, rest⟩

/-- The text starts a number: with a digit, or with a sign and a digit. -/
def startsNumber : List Char → Bool
  | '-' :: rest => startsDigit rest
  | cs => startsDigit cs

/-- The text behind a keyword, if the text starts with it and no word goes on there.  `fold` is
applied to the characters of the text before they are compared. -/
def behindKeyword? (fold : Char → Char) : List Char → List Char → Option (List Char)
  | [], cs => if startsWord cs then none else some cs
  | k :: keyword, c :: cs => if fold c = k then behindKeyword? fold keyword cs else none
  | _ :: _, [] => none

/-- The literals that are words, in any case of letters. -/
def wordLiterals : List (String × Scalar) :=
  [("true", .bool true), ("false", .bool false), ("null", .null)]

/-- A literal that is a word. -/
def wordLiteral? (cs : List Char) : Option (Scalar × List Char) :=
  wordLiterals.findSome? fun (word, literal) =>
    (behindKeyword? Char.toLower word.toList cs).map fun rest => (literal, rest)

/-- An element of a list literal. -/
def element (cs : List Char) : Scan Scalar :=
  match cs with
  | [] => .error ⟨.unterminatedArray, cs, cs⟩
  | c :: _ =>
    if c = '"' ∨ c = '\'' then string c cs
    else if startsNumber cs then number cs
    else if isWordChar c then
      match wordLiteral? cs with
      | some found => .ok found
      | none => .error ⟨.invalidElement, cs, cs⟩
    else .error ⟨.unexpectedInArray c, cs, cs⟩

/-- What follows an element: the end of the list, or another element. -/
inductive Separator where
  | close
  | next

/-- The separator behind an element.  `start` is the text from the opening bracket on. -/
def separator (start cs : List Char) : Scan Separator :=
  match Text.skipBlanks cs with
  | [] => .error ⟨.unterminatedArray, start, []⟩
  | c :: rest =>
    if c = ',' then
      let more := Text.skipBlanks rest
      if more.head? = some ']' then .error ⟨.trailingComma, more, more⟩ else .ok (.next, more)
    else if c = ']' then .ok (.close, rest)
    else .error ⟨.expectedSeparator, c :: rest, c :: rest⟩

/-- The elements of a list literal up to its closing bracket, at least one.  Every round reads at
least one character, so that the number of characters bounds the rounds. -/
def elements (start : List Char) : Nat → List Char → Scan (List Scalar)
  | 0, cs => .error ⟨.unterminatedArray, start, cs⟩
  | rounds + 1, cs =>
    match element cs with
    | .error fault => .error fault
    | .ok (item, rest) =>
      match separator start rest with
      | .error fault => .error fault
      | .ok (.close, rest) => .ok ([item], rest)
      | .ok (.next, rest) =>
        match elements start rounds rest with
        | .error fault => .error fault
        | .ok (items, rest) => .ok (item :: items, rest)

/-- A list literal, from its opening bracket on. -/
def list (start : List Char) : Scan (List Scalar) :=
  let cs := Text.skipBlanks start.tail
  if cs.head? = some ']' then .ok ([], cs.tail) else elements start start.length cs

/-! ## Words -/

/-- The words that join and negate filters. -/
def connectives : List String := ["and", "not", "or"]

/-- The keywords that are tokens of their own. -/
def keywordTokens : List (String × Token) :=
  Operator.keywords.map (fun op => (op.name, .operator op))
    ++ connectives.zip [.and, .not, .or]

/-- A token that is a word: a keyword, a literal, or else the name of a field. -/
def word (cs : List Char) : Token × List Char :=
  let keyword? := keywordTokens.findSome? fun (keyword, token) =>
    (behindKeyword? id keyword.toList cs).map fun rest => (token, rest)
  match keyword? with
  | some found => found
  | none =>
    match wordLiteral? cs with
    | some (literal, rest) => (.literal (.scalar literal), rest)
    | none =>
      let (name, rest) := cs.span isNameChar
      (.identifier (String.ofList name), rest)

/-! ## Tokens -/

/-- A literal token from a scalar. -/
def literalToken : Scan Scalar → Scan Token
  | .ok (value, rest) => .ok (.literal (.scalar value), rest)
  | .error fault => .error fault

/-- The token at the front of a text that has no blank there. -/
def token (cs : List Char) : Scan Token :=
  match cs with
  | [] => .ok (.eof, [])
  | c :: rest =>
    if c = '(' then .ok (.lparen, rest)
    else if c = ')' then .ok (.rparen, rest)
    else if c = ',' then .ok (.comma, rest)
    else if c = '"' ∨ c = '\'' then literalToken (string c cs)
    else if c = '[' then
      match list cs with
      | .ok (items, rest) => .ok (.literal (.list items), rest)
      | .error fault => .error fault
    else if startsNumber cs then literalToken (number cs)
    else if isWordChar c then .ok (word cs)
    else .error ⟨.unexpectedCharacter c, cs, cs⟩

end Lexer

/-! ## Reading a text -/

/-- A fault with its place in the whole text. -/
structure LexError where
  cause : LexCause
  /-- The number of bytes in front of the fault. -/
  position : Nat
  /-- The text around the fault, at most ten characters on either side. -/
  context : String
deriving DecidableEq

/-- The wording of the error. -/
def LexError.message (e : LexError) : String :=
  s!"Tokenization error at position {e.position}: {e.cause.message} (near \"{e.context}\")"

/-- A text and the part of it that is left to read. -/
structure Lexer where
  /-- The whole text. -/
  text : String
  /-- What is left of it. -/
  rest : List Char

namespace Lexer

/-- A text of which nothing has been read. -/
def ofText (text : String) : Lexer := ⟨text, text.toList⟩

/-- How many bytes a text takes. -/
def byteLength (cs : List Char) : Nat := cs.foldl (fun n c => n + c.utf8Size) 0

/-- The number of bytes in front of a suffix of the text. -/
def offset (lexer : Lexer) (suffix : List Char) : Nat :=
  lexer.text.utf8ByteSize - byteLength suffix

/-- How many characters of context an error shows on either side. -/
def contextRadius : Nat := 10

/-- A fault, placed in the whole text. -/
def locate (lexer : Lexer) (fault : LexFault) : LexError :=
  let text := lexer.text.toList
  let index := text.length - fault.site.length
  { cause := fault.cause
    position := lexer.offset fault.site
    context := String.ofList
      ((text.take index).drop (index - contextRadius) ++ fault.site.take contextRadius) }

/-- The next token, or the fault in its place, and the text behind it.  At the end of the text every
further token is the end again; behind a fault, reading goes on where the fault left off. -/
def next (lexer : Lexer) : Except LexError SpannedToken × Lexer :=
  let start := Text.skipBlanks lexer.rest
  match token start with
  | .ok (token, rest) => (.ok ⟨token, lexer.offset start⟩, { lexer with rest })
  | .error fault => (.error (lexer.locate fault), { lexer with rest := fault.rest })

/-- The tokens up to the end of the text, the end included.  Every token but the end takes a
character, so that the number of characters bounds the tokens. -/
def tokensWithin : Nat → Lexer → Except LexError (List SpannedToken)
  | 0, _ => .ok []
  | bound + 1, lexer =>
    match lexer.next with
    | (.error e, _) => .error e
    | (.ok spanned, lexer) =>
      if spanned.token = .eof then .ok [spanned]
      else
        match tokensWithin bound lexer with
        | .ok more => .ok (spanned :: more)
        | .error e => .error e

/-- The tokens of a text. -/
def tokens (lexer : Lexer) : Except LexError (List SpannedToken) :=
  lexer.tokensWithin (lexer.rest.length + 1)

end Lexer

end FilterLang
