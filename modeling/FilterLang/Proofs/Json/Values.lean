import FilterLang.Envelope.Basic
import FilterLang.Proofs.Filter.Literal

/-!
# Values as documents

The value of a comparison becomes a literal or a list of literals, never an object, so that it cannot be
taken for an envelope.  Finite numbers keep the ends of a range apart from open ones.
-/

namespace FilterLang

lemma toJson_ne_obj (value : Value) (members : Members) : value.toJson ≠ .obj members := by
  cases value with
  | scalar literal =>
    cases literal with
    | float x =>
      simp only [Value.toJson, Scalar.toJson]
      split <;> simp
    | _ => simp [Value.toJson, Scalar.toJson]
  | _ => simp [Value.toJson]

/-- A literal is not a list. -/
lemma scalarToJson_ne_arr (literal : Scalar) (items : List Json) : literal.toJson ≠ .arr items := by
  cases literal with
  | float x =>
    simp only [Scalar.toJson]
    split <;> simp
  | _ => simp [Scalar.toJson]

lemma bound?_toJson {s : Scalar} (h : s.isFinite = true) :
    s.toJson.bound? = s.bound?.map Scalar.toJson := by
  cases s with
  | float x =>
    have hx : x.isFinite = true := h
    simp [Scalar.toJson, hx, Json.bound?, Scalar.bound?, Scalar.isNull]
  | _ => rfl

/-- The ends of a range that are set can be read off its document. -/
lemma rangeBounds?_toJson {lower upper : Scalar} (hlower : lower.isFinite = true)
    (hupper : upper.isFinite = true) :
    rangeBounds? (Value.range lower upper).toJson =
      some (lower.bound?.map Scalar.toJson, upper.bound?.map Scalar.toJson) := by
  rw [← bound?_toJson hlower, ← bound?_toJson hupper]
  rfl

lemma enveloped_of_ne {op : Operator} (h : op ≠ .eq) (value : Value) :
    enveloped op value = envelope op.name value.toJson := by
  cases op with
  | eq => exact absurd rfl h
  | _ => rfl

lemma accepts_of_checkShape {field : String} {op : Operator} {value : Value}
    (h : checkShape field op value = .ok ()) : op.accepts value = true := by
  unfold checkShape at h
  split at h
  · assumption
  · cases h

end FilterLang
