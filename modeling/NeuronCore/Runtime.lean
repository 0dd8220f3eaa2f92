import Mathlib.Logic.Basic

set_option autoImplicit false

/-! # The Go runtime pieces the model needs

The repository is Go. Its values are modelled as plain Lean data: a Go `string` that the code
reads byte by byte is a `List UInt8`, a map is a function into `Option`, and a pointer is an
address into a heap of immutable structs. What Go does at run time and a Lean function cannot,
a `panic`, is an explicit `Panic` result.

Errors built by the `errors` package carry a class, a message and a detail; that is all the
modelled code reads or writes of them. A detail made by `SetDetailf` with `%s` copies the bytes of
the string it formats, so it is kept as bytes. -/

namespace NeuronCore

/-- The value passed to Go's `panic`, or the message of a runtime panic. -/
structure Panic where
  message : String
deriving DecidableEq, Repr

/-- An error of the `errors` package: `errors.New(class, message)` with the bytes of its
    `SetDetailf` detail. -/
structure Error where
  errorClass : String
  message : String
  detail : List UInt8
deriving DecidableEq, Repr

/-- The bytes of a text whose characters are all below 256, one byte each: for ASCII text, the
    bytes of the Go string literal. -/
def latin1 (s : String) : List UInt8 := s.toList.map fun c => c.toNat.toUInt8

/-- Go's `s[lo:hi]` on a string: the bytes from index `lo` up to `hi`, and a runtime panic unless
    `0 ≤ lo ≤ hi ≤ len(s)`. -/
def slice (s : List UInt8) (lo hi : Int) : Except Panic (List UInt8) :=
  if 0 ≤ lo ∧ lo ≤ hi ∧ hi ≤ s.length then .ok ((s.drop lo.toNat).take (hi - lo).toNat)
  else .error ⟨"runtime error: slice bounds out of range"⟩

@[simp] theorem ok_bind {ε α β : Type} (a : α) (f : α → Except ε β) : (Except.ok a >>= f) = f a :=
  rfl

@[simp] theorem error_bind {ε α β : Type} (e : ε) (f : α → Except ε β) :
    (Except.error e >>= f) = .error e :=
  rfl

theorem bind_eq_ok {ε α β : Type} {x : Except ε α} {f : α → Except ε β} {b : β} :
    x >>= f = .ok b ↔ ∃ a, x = .ok a ∧ f a = .ok b := by
  cases x <;> simp

@[simp] theorem pure_eq_ok {ε α : Type} {a b : α} : (pure a : Except ε α) = .ok b ↔ a = b :=
  ⟨fun h => by cases h; rfl, fun h => h ▸ rfl⟩

@[simp] theorem map_eq_error {ε α β : Type} (f : α → β) (x : Except ε α) (e : ε) :
    f <$> x = .error e ↔ x = .error e := by
  cases x <;> simp [Functor.map, Except.map]

/-- A Go call that can panic panics exactly when it does not return. -/
theorem exists_error_iff {ε α : Type} (x : Except ε α) :
    (∃ e, x = .error e) ↔ ¬ ∃ a, x = .ok a := by
  cases x <;> simp

theorem slice_of_le (s : List UInt8) (lo hi : Int) (h0 : 0 ≤ lo) (h1 : lo ≤ hi)
    (h2 : hi ≤ s.length) : slice s lo hi = .ok ((s.drop lo.toNat).take (hi - lo).toNat) :=
  if_pos ⟨h0, h1, h2⟩

end NeuronCore
