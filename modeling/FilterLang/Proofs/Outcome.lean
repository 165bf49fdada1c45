import Mathlib.Tactic

/-!
# Outcomes of steps that may fail

Readers, compilers and finishers are chains of steps of which each may stop with an error.  A chain has
a result if and only if every step of it has one, and its error is the error of the first step that fails.
-/

namespace FilterLang

variable {ε α β : Type}

lemma ok_bind (a : α) (f : α → Except ε β) : (Except.ok a >>= f) = f a := rfl

lemma bind_eq_ok_iff {x : Except ε α} {f : α → Except ε β} {b : β} :
    (x >>= f) = .ok b ↔ ∃ a, x = .ok a ∧ f a = .ok b := by
  cases x with
  | error e => simp [bind, Except.bind]
  | ok a => simp [bind, Except.bind]

lemma bind_eq_error_iff {x : Except ε α} {f : α → Except ε β} {e : ε} :
    (x >>= f) = .error e ↔ x = .error e ∨ ∃ a, x = .ok a ∧ f a = .error e := by
  cases x with
  | error e' => simp [bind, Except.bind]
  | ok a => simp [bind, Except.bind]

/-- The error of an outcome. -/
def failure? : Except ε α → Option ε
  | .ok _ => none
  | .error e => some e

@[simp] lemma failure?_ok (a : α) : failure? (.ok a : Except ε α) = none := rfl

@[simp] lemma failure?_error (e : ε) : failure? (.error e : Except ε α) = some e := rfl

lemma failure?_eq_some_iff {x : Except ε α} {e : ε} : failure? x = some e ↔ x = .error e := by
  cases x <;> simp

lemma failure?_eq_none_iff {x : Except ε Unit} : failure? x = none ↔ x = .ok () := by
  cases x <;> simp

/-- A step that fails unless a condition holds, in front of others. -/
lemma unless_eq (p : Bool) (e : ε) (f : β → Except ε α) (x : Except ε α) :
    (if (!p) = true then (throw e >>= f : Except ε α) else x) = if p = true then x else .error e := by
  cases p <;> rfl

lemma ite_error_eq_ok_iff {p : Prop} [Decidable p] {x : Except ε α} {e : ε} {a : α} :
    (if p then x else .error e) = .ok a ↔ p ∧ x = .ok a := by
  split <;> simp [*]

/-- The error of a chain, if the second step fails in the same way whatever the first one gives. -/
lemma failure?_bind {x : Except ε α} {f : α → Except ε β} {r : Option ε}
    (h : ∀ a, x = .ok a → failure? (f a) = r) : failure? (x >>= f) = (failure? x).or r := by
  cases x with
  | error e => rfl
  | ok a => exact h a rfl

/-- A step that cannot fail behind one that can. -/
lemma failure?_bind_ok {x : Except ε α} {f : α → Except ε β} (h : ∀ a, failure? (f a) = none) :
    failure? (x >>= f) = failure? x := by
  rw [failure?_bind fun a _ => h a, Option.or_none]

/-- Two steps whose results are put together. -/
lemma failure?_both {γ : Type} (x : Except ε α) (y : Except ε β) (f : α → β → γ) :
    failure? (do return f (← x) (← y)) = (failure? x).or (failure? y) :=
  failure?_bind fun _ _ => failure?_bind_ok fun _ => rfl

/-! ## Specifications of outcomes -/

/-- The result has one property, or the error another. -/
def Meets (result : α → Prop) (fault : ε → Prop) : Except ε α → Prop
  | .ok a => result a
  | .error e => fault e

namespace Meets

variable {result : α → Prop} {fault : ε → Prop} {x : Except ε α}

lemma error (h : Meets result fault x) {e : ε} (hx : x = .error e) : fault e := by
  subst hx
  exact h

lemma mono {other : α → Prop} (h : Meets result fault x) (himp : ∀ a, result a → other a) :
    Meets other fault x := by
  cases x with
  | error e => exact h
  | ok a => exact himp a h

/-- A chain meets what its last step meets on the results of the first. -/
lemma bind {f : α → Except ε β} {next : β → Prop} (h : Meets result fault x)
    (hf : ∀ a, result a → Meets next fault (f a)) : Meets next fault (x >>= f) := by
  cases x with
  | error e => exact h
  | ok a => exact hf a h

end Meets

end FilterLang
