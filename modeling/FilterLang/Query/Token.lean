import FilterLang.Filter.Basic

/-!
# Tokens of a query

The words that a query is made of.  A list literal is one token: its brackets and commas never reach
the grammar.
-/

namespace FilterLang

/-- A token. -/
inductive Token where
  /-- The name of a field, which may hold points and brackets. -/
  | identifier (name : String)
  | operator (op : Operator)
  /-- A literal: a single one or a list. -/
  | literal (value : Value)
  | and
  | or
  | not
  | lparen
  | rparen
  | comma
  /-- The end of the text. -/
  | eof
deriving DecidableEq

/-- A token as error messages name it. -/
def Token.describe : Token → String
  | identifier name => s!"identifier '{name}'"
  | operator op => s!"operator '{op}'"
  | literal (.scalar value) => s!"{value.typeName} literal"
  | literal (.list _) => "list literal"
  | literal (.range _ _) => "range literal"
  | and => "'and'"
  | or => "'or'"
  | not => "'not'"
  | lparen => "'('"
  | rparen => "')'"
  | comma => "','"
  | eof => "end of input"

/-- A token with the place where it starts, counted in bytes. -/
structure SpannedToken where
  token : Token
  position : Nat
deriving DecidableEq

end FilterLang
