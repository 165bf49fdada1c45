import FilterLang.Json.Lexeme

/-!
# Passing over a value

A value that nobody asks for only has to be written correctly.  Its numbers may leave the range of
doubles, its strings may hold halves of characters, and it may nest as deep as it likes: the
brackets that are open are kept in a list.
-/

namespace FilterLang.Json

/-- What encloses other values. -/
inductive Bracket where
  /-- Around the items of an array. -/
  | square
  /-- Around the members of an object. -/
  | brace

namespace Bracket

/-- The bracket that a character opens. -/
def ofChar? : Char → Option Bracket
  | '[' => some square
  | '\x7b' => some brace
  | _ => none

/-- The character that closes the bracket. -/
def closing : Bracket → Char
  | square => ']'
  | brace => '\x7d'

/-- The text behind what has to stand in front of an enclosed value: in an object a key and a
colon. -/
def behindKey? : Bracket → List Char → Option (List Char)
  | square, cs => some cs
  | brace, cs =>
    match skipSpace cs with
    | '"' :: rest =>
      match stringPieces? [] rest with
      | none => none
      | some (_, rest) =>
        match skipSpace rest with
        | ':' :: rest => some rest
        | _ => none
    | _ => none

end Bracket

/-- The text behind a value that encloses no others. -/
def behindAtom? : List Char → Option (List Char)
  | '"' :: rest => (stringPieces? [] rest).map Prod.snd
  | 'n' :: rest => word? "ull" rest
  | 't' :: rest => word? "rue" rest
  | 'f' :: rest => word? "alse" rest
  | cs => (numberText? cs).map Prod.snd

/-- The text behind a value and behind the brackets that are open around it, the innermost first.
`ended` says that the value itself has already been passed.  A step is only taken for a character,
so that their number is a bound on the steps. -/
def behindOpen? (steps : Nat) (ended : Bool) (brackets : List Bracket) (cs : List Char) :
    Option (List Char) :=
  match steps with
  | 0 => none
  | steps + 1 =>
    match ended, brackets, skipSpace cs with
    | true, [], _ => some cs
    | true, bracket :: outer, c :: rest =>
      if c == ',' then
        match bracket.behindKey? rest with
        | none => none
        | some rest => behindOpen? steps false (bracket :: outer) rest
      else if c == bracket.closing then behindOpen? steps true outer rest
      else none
    | false, brackets, c :: rest =>
      match Bracket.ofChar? c with
      | none =>
        match behindAtom? (c :: rest) with
        | none => none
        | some rest => behindOpen? steps true brackets rest
      | some bracket =>
        match skipSpace rest with
        | [] => none
        | d :: more =>
          if d == bracket.closing then behindOpen? steps true brackets more
          else
            match bracket.behindKey? rest with
            | none => none
            | some rest => behindOpen? steps false (bracket :: brackets) rest
    | _, _, [] => none

/-- The text behind a value. -/
def behindValue? (cs : List Char) : Option (List Char) := behindOpen? (cs.length + 1) false [] cs

end FilterLang.Json
