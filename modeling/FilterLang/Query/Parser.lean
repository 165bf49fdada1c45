import FilterLang.Query.Lexer

/-!
# From tokens to a filter

The grammar is

    filter     := conjunction ("or" conjunction)*
    conjunction := operand ("and" operand)*
    operand    := "not" operand | "(" filter ")" | comparison
    comparison := name operator literal

and chains associate to the left.  A parenthesis, a `not`, and every further operand of a chain take
one level of nesting, and the levels are limited.  The number of levels left is what the functions
below recurse on: they end because nothing can nest deeper.

A parser outlives a failed attempt.  It then stands at the token where the attempt stopped, and the
levels that were open at that moment stay open.
-/

namespace FilterLang

/-! ## Errors -/

/-- What can be wrong with the order of tokens. -/
inductive SyntaxCause where
  | expectedField
  | expectedOperator (field : String)
  | expectedValue (op : Operator)
  | requiresArray (op : Operator)
  | requiresPair
  | expectedClose
  | emptyQuery
  | trailingToken
deriving DecidableEq

/-- The wording of a syntax error. -/
def SyntaxCause.message : SyntaxCause → String
  | expectedField => "Expected field name"
  | expectedOperator field => s!"Expected operator after field '{field}'"
  | expectedValue op => s!"Expected value after operator '{op}'"
  | requiresArray op => s!"Operator '{op}' requires an array value"
  | requiresPair => "Operator 'between' requires an array of exactly 2 values"
  | expectedClose => "Expected ')'"
  | emptyQuery => "Empty query"
  | trailingToken => "Unexpected token after expression"

/-- An error in a query. -/
inductive ParseError where
  /-- The text cannot be cut into tokens. -/
  | lex (error : LexError)
  /-- The tokens do not follow the grammar. -/
  | syntactic (cause : SyntaxCause) (position : Nat) (found : String)
  /-- The query nests deeper than allowed. -/
  | nestingTooDeep (max position : Nat)
deriving DecidableEq

/-- The wording of the error. -/
def ParseError.message : ParseError → String
  | lex e => e.message
  | syntactic cause position found =>
    s!"Parse error at position {position}: {cause.message}, found {found}"
  | nestingTooDeep max position =>
    s!"Parse error at position {position}: expression nested deeper than {max} levels"

/-! ## The grammar -/

/-- The tokens that are still to come: the one at the front and the text behind it. -/
structure TokenStream where
  current : SpannedToken
  lexer : Lexer

namespace TokenStream

/-- The stream without its first token; at a fault in the text the stream keeps that token. -/
def advance (stream : TokenStream) : Except LexError TokenStream × TokenStream :=
  match stream.lexer.next with
  | (.ok spanned, lexer) => (.ok ⟨spanned, lexer⟩, ⟨spanned, lexer⟩)
  | (.error e, lexer) => (.error e, { stream with lexer })

/-- The stream with the token at its front taken out; its place is kept. -/
def blank (stream : TokenStream) : TokenStream :=
  { stream with current := ⟨.eof, stream.current.position⟩ }

end TokenStream

/-- Why and where an attempt to read a filter stopped. -/
structure ParseStop where
  error : ParseError
  /-- The tokens from there on. -/
  stream : TokenStream
  /-- How many levels of nesting were left. -/
  room : Nat

namespace Grammar

/-- The outcome of reading a filter off the front of the tokens. -/
abbrev Outcome := Except ParseStop (Filter × TokenStream)

/-- The tokens behind the first one. -/
def advance (room : Nat) (stream : TokenStream) : Except ParseStop TokenStream :=
  match stream.advance with
  | (.ok next, _) => .ok next
  | (.error e, stream) => .error ⟨.lex e, stream, room⟩

/-- The first token is not what the grammar asks for. -/
def refuse {α : Type} (room : Nat) (stream : TokenStream) (cause : SyntaxCause) :
    Except ParseStop α :=
  .error ⟨.syntactic cause stream.current.position stream.current.token.describe, stream, room⟩

/-- The value of a comparison from its operator and its literal.  A list operator needs a list, and
a range is written as a list of its two ends; otherwise the error and what was found instead. -/
def pairValue (op : Operator) (value : Value) : Except (SyntaxCause × String) Value :=
  match op, value with
  | .isIn, .list items | .notIn, .list items => .ok (.list items)
  | .isIn, _ | .notIn, _ => .error (.requiresArray op, "scalar literal")
  | .between, .list [lower, upper] => .ok (.range lower upper)
  | .between, .list items => .error (.requiresPair, s!"array of {items.length} values")
  | .between, _ => .error (.requiresPair, "scalar literal")
  | _, value => .ok value

/-- A comparison. -/
def comparison (room : Nat) (stream : TokenStream) : Outcome :=
  match stream.current.token with
  | .identifier field => do
    let stream ← advance room stream.blank
    match stream.current.token with
    | .operator op =>
      let stream ← advance room stream
      match stream.current.token with
      | .literal value =>
        let position := stream.current.position
        let stream ← advance room stream.blank
        match pairValue op value with
        | .ok value => return (.comparison field op value, stream)
        | .error (cause, found) => throw ⟨.syntactic cause position found, stream, room⟩
      | _ => refuse room stream (.expectedValue op)
    | _ => refuse room stream (.expectedOperator field)
  | _ => refuse room stream .expectedField

section

variable (ceiling : Nat)

/-- No level is left at the first token. -/
def tooDeep {α : Type} (stream : TokenStream) : Except ParseStop α :=
  .error ⟨.nestingTooDeep ceiling stream.current.position, stream, 0⟩

mutual

/-- An operand, with a number of levels left. -/
def operand (room : Nat) (stream : TokenStream) : Outcome :=
  match stream.current.token with
  | .not =>
    match room with
    | 0 => tooDeep ceiling stream
    | room + 1 => do
      let stream ← advance room stream
      let (child, stream) ← operand room stream
      return (.not child, stream)
  | .lparen =>
    match room with
    | 0 => tooDeep ceiling stream
    | room + 1 => do
      let stream ← advance room stream
      let (first, stream) ← operand room stream
      let (left, stream) ← andChain room first stream
      let (inner, stream) ← orChain room left stream
      match stream.current.token with
      | .rparen =>
        let stream ← advance room stream
        return (inner, stream)
      | _ => refuse room stream .expectedClose
  | _ => comparison room stream
termination_by structural room

/-- The further operands of a conjunction.  Each takes a level until the chain ends. -/
def andChain (room : Nat) (left : Filter) (stream : TokenStream) : Outcome :=
  match stream.current.token with
  | .and =>
    match room with
    | 0 => tooDeep ceiling stream
    | room + 1 => do
      let stream ← advance room stream
      let (right, stream) ← operand room stream
      andChain room (.and left right) stream
  | _ => .ok (left, stream)
termination_by structural room

/-- The further conjunctions of a disjunction.  Each takes a level until the chain ends. -/
def orChain (room : Nat) (left : Filter) (stream : TokenStream) : Outcome :=
  match stream.current.token with
  | .or =>
    match room with
    | 0 => tooDeep ceiling stream
    | room + 1 => do
      let stream ← advance room stream
      let (first, stream) ← operand room stream
      let (right, stream) ← andChain room first stream
      orChain room (.or left right) stream
  | _ => .ok (left, stream)
termination_by structural room

end

/-- A conjunction. -/
def conjunction (room : Nat) (stream : TokenStream) : Outcome := do
  let (first, stream) ← operand ceiling room stream
  andChain ceiling room first stream

/-- A filter. -/
def filter (room : Nat) (stream : TokenStream) : Outcome := do
  let (left, stream) ← conjunction ceiling room stream
  orChain ceiling room left stream

end

end Grammar

/-! ## Parsers -/

/-- How many levels a query may nest unless another number is asked for. -/
def defaultMaxNesting : Nat := 256

/-- A query that is being read. -/
structure Parser where
  stream : TokenStream
  /-- The levels of nesting that are open. -/
  depth : Nat
  /-- How many may be open at once. -/
  maxNesting : Nat

namespace Parser

/-- A parser at the first token of a text. -/
def ofText (text : String) : Except ParseError Parser :=
  match (Lexer.ofText text).next with
  | (.ok spanned, lexer) => .ok ⟨⟨spanned, lexer⟩, 0, defaultMaxNesting⟩
  | (.error e, _) => .error (.lex e)

/-- The parser with another limit on nesting. -/
def withMaxNesting (parser : Parser) (maxNesting : Nat) : Parser := { parser with maxNesting }

/-- How many further levels may be opened. -/
def room (parser : Parser) : Nat := parser.maxNesting - parser.depth

/-- The parser after an attempt that stopped: the levels opened since then are still open. -/
def stopped (parser : Parser) (stop : ParseStop) : Parser :=
  { parser with stream := stop.stream, depth := parser.depth + (parser.room - stop.room) }

/-- A filter at the front of the tokens, and the parser behind it. -/
def expression (parser : Parser) : Except ParseError Filter × Parser :=
  match Grammar.filter parser.maxNesting parser.room parser.stream with
  | .ok (filter, stream) => (.ok filter, { parser with stream })
  | .error stop => (.error stop.error, parser.stopped stop)

/-- The error that the token at the front causes. -/
def refuse (parser : Parser) (cause : SyntaxCause) : ParseError :=
  .syntactic cause parser.stream.current.position parser.stream.current.token.describe

/-- A filter that takes all the tokens. -/
def parse (parser : Parser) : Except ParseError Filter × Parser :=
  if parser.stream.current.token = .eof then (.error (parser.refuse .emptyQuery), parser)
  else
    match parser.expression with
    | (.error e, parser) => (.error e, parser)
    | (.ok filter, parser) =>
      if parser.stream.current.token = .eof then (.ok filter, parser)
      else (.error (parser.refuse .trailingToken), parser)

end Parser

namespace Filter

/-- The filter that a query text is. -/
def parse (text : String) : Except ParseError Filter := do
  let parser ← Parser.ofText text
  parser.parse.1

/-- The filter that a query text is, with another limit on nesting. -/
def parseWithin (maxNesting : Nat) (text : String) : Except ParseError Filter := do
  let parser ← Parser.ofText text
  (parser.withMaxNesting maxNesting).parse.1

/-- The usual limit is the one a parser starts with. -/
theorem parseWithin_defaultMaxNesting (text : String) :
    parseWithin defaultMaxNesting text = parse text := by
  simp only [parseWithin, parse, Parser.ofText]
  split <;> rfl

end Filter

end FilterLang
