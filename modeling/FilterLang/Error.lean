import FilterLang.Envelope.Basic
import FilterLang.Policy.Violation
import FilterLang.Query.Parser

/-!
# Errors of every stage

A query passes several stages on its way to a target, and each may refuse it.
-/

namespace FilterLang

/-- An error of any stage. -/
inductive FilterError where
  | tokenization (error : LexError)
  | parse (error : ParseError)
  | validation (error : Violation)
  | complexity (error : ComplexityError)
  | compile (error : CompileError)
  | envelope (error : EnvelopeError)

namespace FilterError

/-- An error in a query; a fault in its text counts as an error of the first stage. -/
def ofParseError : ParseError → FilterError
  | .lex e => .tokenization e
  | e => .parse e

/-- The wording of the error. -/
def message : FilterError → String
  | tokenization e => e.message
  | parse e => e.message
  | validation e => e.message
  | complexity e => e.message
  | compile e => e.message
  | envelope e => e.message

/-- The error is in the query, or in what the query asks for, and not in how the library is used. -/
def isUserError : FilterError → Bool
  | tokenization _ | parse _ | validation _ | complexity _ => true
  | compile _ | envelope _ => false

end FilterError

end FilterLang
