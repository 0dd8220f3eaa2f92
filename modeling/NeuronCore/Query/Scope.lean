import Mathlib.Logic.Function.Basic
import NeuronCore.Runtime

set_option autoImplicit false

/-! # Scopes, their store, and processes

A `Scope` is the query descriptor a chain of processes runs on. Of it the processor touches only
the key-value store it keeps for pipeline-local state (`StoreSet`): the error of the last failing
step under `common.ProcessError`, and the last process run under
`internal.PreviousProcessStoreKey`. The other fields of a scope (model, fieldset, filters, sorts,
pagination, sub-scopes) are read and written only by the steps, and a step is modelled as any
function of the scope, so they are left out.

A `*Process` is a pointer, and the processor stores the pointer itself as the previous process.
Processes are therefore addresses (`ProcessPtr`) into a heap of immutable `Process` structs; the
registry, the chains and the store all hold addresses. -/

namespace NeuronCore.Query

/-- The address of a `Process` struct: a Go `*Process`. -/
structure ProcessPtr where
  addr : Nat
deriving DecidableEq, Repr

/-- Modelled from the spec: the keys of a scope's store. The two keys the processor writes,
    `common.ProcessError` and `internal.PreviousProcessStoreKey`, are declared outside `src/`;
    the spec names them as the last error and the last executed process. Steps may use any
    other key. -/
inductive StoreKey where
  | processError
  | previousProcessStoreKey
  | other (key : String)
deriving DecidableEq, Repr

/-- A value of the store (an `interface{}`): an error, a process pointer, or another value a
    step keeps. -/
inductive StoreValue where
  | error (err : Error)
  | process (ptr : ProcessPtr)
  | other (value : String)
deriving DecidableEq, Repr

/-- A scope, as far as the processor sees it: its store. -/
structure Scope where
  store : StoreKey → Option StoreValue

/-- `s.StoreSet(key, value)`. -/
def Scope.storeSet (s : Scope) (key : StoreKey) (value : StoreValue) : Scope :=
  ⟨Function.update s.store key (some value)⟩

@[simp] theorem Scope.storeSet_store_self (s : Scope) (key : StoreKey) (value : StoreValue) :
    (s.storeSet key value).store key = some value := by
  simp [Scope.storeSet]

@[simp] theorem Scope.storeSet_store_of_ne (s : Scope) {key key' : StoreKey} (value : StoreValue)
    (h : key' ≠ key) : (s.storeSet key value).store key' = s.store key' := by
  simp [Scope.storeSet, h]

/-- `ProcessFunc`: given the context, a step changes the scope and returns an error or `nil`. -/
def ProcessFunc (Ctx : Type) : Type := Ctx → Scope → Scope × Option Error

/-- `Process`: a name and a function, over the type `Ctx` of `context.Context` values, which the
    processor only passes through. -/
structure Process (Ctx : Type) where
  name : String
  func : ProcessFunc Ctx

end NeuronCore.Query
