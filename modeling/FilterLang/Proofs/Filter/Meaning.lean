import FilterLang.Filter.Basic
import Mathlib.Data.Fintype.Option
import Mathlib.Tactic

/-!
# What a filter says

A filter is read in a logic: the logic says what `and`, `or` and `not` do, and a comparison means
whatever the reader takes it to mean.  Nothing is asked of a logic but that the grouping of a chain
does not matter.  Truth and falsehood are such a logic, and so are the three truth values of SQL, where
a comparison with a missing value is neither true nor false.
-/

namespace FilterLang

universe u

/-- A logic in which filters can be read. -/
structure Logic (Ω : Type u) where
  and : Ω → Ω → Ω
  or : Ω → Ω → Ω
  not : Ω → Ω
  and_assoc : ∀ a b c, and (and a b) c = and a (and b c)
  or_assoc : ∀ a b c, or (or a b) c = or a (or b c)

namespace Logic

variable {Ω : Type u}

/-- What a connective does. -/
def join (logic : Logic Ω) : Connective → Ω → Ω → Ω
  | .and => logic.and
  | .or => logic.or

lemma join_assoc (logic : Logic Ω) (kind : Connective) (a b c : Ω) :
    logic.join kind (logic.join kind a b) c = logic.join kind a (logic.join kind b c) := by
  cases kind with
  | and => exact logic.and_assoc a b c
  | or => exact logic.or_assoc a b c

/-- Truth and falsehood. -/
def twoValued : Logic Bool where
  and := (· && ·)
  or := (· || ·)
  not := (! ·)
  and_assoc := Bool.and_assoc
  or_assoc := Bool.or_assoc

/-- Truth, falsehood and the unknown, which is `none` here: a conjunction with a false side is false
and a disjunction with a true side is true, whatever the other side. -/
def threeValued : Logic (Option Bool) where
  and
    | some false, _ => some false
    | _, some false => some false
    | some true, some true => some true
    | _, _ => none
  or
    | some true, _ => some true
    | _, some true => some true
    | some false, some false => some false
    | _, _ => none
  not := Option.map (! ·)
  and_assoc := by decide
  or_assoc := by decide

end Logic

/-- The meaning of a filter in a logic, from the meanings of its comparisons. -/
def Filter.eval {Ω : Type u} (logic : Logic Ω) (leaf : String → Operator → Value → Ω) : Filter → Ω
  | .comparison field op value => leaf field op value
  | .logical kind left right => logic.join kind (left.eval logic leaf) (right.eval logic leaf)
  | .not child => logic.not (child.eval logic leaf)

/-- The field has to be equal to the literal. -/
def Filter.equals (field : String) (s : Scalar) : Filter := .comparison field .eq (.scalar s)

end FilterLang
