import FilterLang.Target.Basic

/-!
# MongoDB filters

Conjunctions and disjunctions are lists under `$and` and `$or`, with lists of the same kind joined
into one.  A negation is a list of one filter under `$nor`.  A text search is a regular expression
that ignores case and in which every character of the searched text stands for itself.
-/

namespace FilterLang.Mongo

/-- The characters that mean something in a regular expression. -/
def regexSpecials : List Char := "\\.+*?()|[]\x7b\x7d^$#&-~".toList

/-- A regular expression that matches a text literally. -/
def escapeRegex (text : String) : String :=
  String.ofList (text.toList.flatMap fun c => if regexSpecials.contains c then ['\\', c] else [c])

/-- The key of a connective. -/
def connectiveKey : Connective → String
  | .and => "$and"
  | .or => "$or"

/-- The key of an operator that compares with its value as it is. -/
def operatorKey? : Operator → Option String
  | .ne => some "$ne"
  | .gt => some "$gt"
  | .gte => some "$gte"
  | .lt => some "$lt"
  | .lte => some "$lte"
  | .isIn => some "$in"
  | .notIn => some "$nin"
  | _ => none

/-- The regular expression of a text search. -/
def searchPattern (op : Operator) (text : String) : String :=
  match op with
  | .startsWith => "^" ++ escapeRegex text
  | .endsWith => escapeRegex text ++ "$"
  | _ => escapeRegex text

/-- A comparison.  A range that is open on both sides puts no condition on its field. -/
def comparison (field : String) (op : Operator) (value : Value) : Except CompileError Json := do
  checkShape field op value
  match op, value with
  | .between, .range lower upper =>
    match boundMembers "$gte" "$lte" lower upper with
    | [] => return .obj []
    | bounds => return .single field (.obj bounds)
  | .eq, value => return .single field value.toJson
  | op, value =>
    match operatorKey? op with
    | some key => return .single field (.single key value.toJson)
    | none =>
      let text ← patternText field op value
      return .single field (.obj [("$regex", .str (searchPattern op text)), ("$options", .str "i")])

/-- The operands that a filter brings to a list under a key: the items of its own list under that
key, and else the filter itself. -/
def operands (key : String) (filter : Json) : List Json :=
  match filter with
  | .obj [(k, value)] =>
    if k = key then
      match value with
      | .arr items => items
      | _ => []
    else [filter]
  | _ => [filter]

/-- A filter as MongoDB takes it. -/
def compile : Filter → Except CompileError Json
  | .comparison field op value => comparison field op value
  | .logical kind left right => do
    let key := connectiveKey kind
    return .single key (.arr (operands key (← compile left) ++ operands key (← compile right)))
  | .not child => do
    return .single "$nor" (.arr [← compile child])

end FilterLang.Mongo
