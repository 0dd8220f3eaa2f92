import NeuronCore.Runtime

set_option autoImplicit false

/-! # `mapping.StructField.FieldKind`

`mapping.StructField` is a conversion of `models.StructField`, and its accessors read the field
through the `models` package: `Nested`, `Relationship` and `ModelStruct` convert the receiver and
call a `models` function. `FieldKind` instead returns `FieldKind(s.FieldKind())`, a call of itself
on the same receiver, with nothing that decreases.

A Lean function cannot loop, so the method is run with fuel, one unit per call: the evaluation
with `fuel` has returned `some k` if the method returns `k` within `fuel` nested calls. No fuel is
ever enough (`fieldKind_eq_none`). -/

namespace NeuronCore.Mapping

/-- `FieldKind`: the kinds of a field, the constants of `structfield.go`. -/
inductive FieldKind where
  | unknownType
  | kindPrimary
  | kindAttribute
  | kindClientID
  | kindRelationshipSingle
  | kindRelationshipMultiple
  | kindForeignKey
  | kindFilterKey
  | kindNested
deriving DecidableEq, Repr

/-- Modelled from the spec: the `models.StructField` underneath a `mapping.StructField` (the
    schema provider's field, not under `src/`), of which the accessor reads the recorded kind. -/
structure StructField where
  kind : FieldKind
deriving DecidableEq, Repr

/-- `(*StructField).FieldKind()` run with `fuel` calls: the body `return FieldKind(s.FieldKind())`
    calls the method again on the same receiver. `none` is a call that has not returned when the
    fuel runs out. -/
def StructField.fieldKind : Nat → StructField → Option FieldKind
  | 0, _ => none
  | fuel + 1, s => s.fieldKind fuel

/-- `FieldKind` never returns: whatever the fuel, the call is still running. -/
theorem StructField.fieldKind_eq_none (fuel : Nat) (s : StructField) : s.fieldKind fuel = none := by
  induction fuel with
  | zero => rfl
  | succ fuel ih => exact ih

/-- On a primary-key field, no number of calls returns the kind the field records. -/
theorem fieldKind_primary_diverges :
    ¬ ∃ fuel, (⟨.kindPrimary⟩ : StructField).fieldKind fuel = some .kindPrimary := by
  rintro ⟨fuel, h⟩
  rw [StructField.fieldKind_eq_none] at h
  cases h

end NeuronCore.Mapping
