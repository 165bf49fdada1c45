import FilterLang.Error

/-!
# Queries under a policy

A query is read first, then measured if the policy limits its size, and then checked against the
whitelist if the policy asks for that.
-/

namespace FilterLang

/-- The filter that a query text is. -/
def readQuery (text : String) : Except FilterError Filter :=
  match Filter.parse text with
  | .ok filter => .ok filter
  | .error e => .error (.ofParseError e)

namespace Policy

/-- The size of a filter against the limits of a policy. -/
def checkSize (policy : Policy) (filter : Filter) : Except FilterError Unit :=
  if policy.limits.isUnbounded then .ok ()
  else
    match filter.checkComplexity policy.limits with
    | .ok _ => .ok ()
    | .error e => .error (.complexity e)

/-- A filter against the whitelist of a policy. -/
def checkUse (policy : Policy) (filter : Filter) : Except FilterError Unit :=
  if policy.shouldValidate then
    match policy.whitelist.check filter with
    | .ok _ => .ok ()
    | .error e => .error (.validation e)
  else .ok ()

/-- The filter that a query text is, if the policy accepts it. -/
def parse (policy : Policy) (text : String) : Except FilterError Filter := do
  let filter ← readQuery text
  policy.checkSize filter
  policy.checkUse filter
  return filter

end Policy

end FilterLang
