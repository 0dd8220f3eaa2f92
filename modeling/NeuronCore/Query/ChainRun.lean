import NeuronCore.Query.Scope

set_option autoImplicit false

/-! # Runs of a chain as trees of calls

A verb of the processor calls processes it knows nothing about: what they do is the point of the
configuration. A run is therefore modelled as the tree of the calls it makes (`ChainRun`). It is
either done, with the scope it leaves and the error it returns, or it calls the process at `f` on
a scope and continues with whatever that process returns. `exec` runs a tree against an answer
for every call and `trace` lists the calls it makes, each with what it was given and what it
returned. An answer depends on the call's position in the run as well as on the process and the
scope, as a step that keeps its own state may answer the same scope differently on a later call.
A property of a tree for every `Answers` is a property for every behaviour of the steps,
including steps that read and rewrite the store. -/

namespace NeuronCore.Query

/-- What the process at `f` returns when it is called on a scope as call `n` of a run (from `0`):
    the scope as it leaves it and its error. -/
abbrev Answers := Nat → ProcessPtr → Scope → Scope × Option Error

/-- The answers to the calls after the first. -/
def Answers.next (ans : Answers) : Answers := fun n => ans (n + 1)

/-- A run as the tree of the calls it makes. -/
inductive ChainRun where
  | done (s : Scope) (err : Option Error)
  | call (f : ProcessPtr) (s : Scope) (k : Scope → Option Error → ChainRun)

/-- One call of a run: the process, the scope it was given, and the scope and error it
    returned. -/
structure Call where
  process : ProcessPtr
  input : Scope
  output : Scope
  err : Option Error

/-- Run the tree, answering its first call by `ans 0` and each later one by the next answer:
    the final scope and the returned error. -/
def ChainRun.exec : Answers → ChainRun → Scope × Option Error
  | _, .done s err => (s, err)
  | ans, .call f s k => (k (ans 0 f s).1 (ans 0 f s).2).exec ans.next

/-- The calls the tree makes when each is answered by `ans`, in order. -/
def ChainRun.trace : Answers → ChainRun → List Call
  | _, .done _ _ => []
  | ans, .call f s k =>
    ⟨f, s, (ans 0 f s).1, (ans 0 f s).2⟩ :: (k (ans 0 f s).1 (ans 0 f s).2).trace ans.next

section

variable (ans : Answers)

@[simp] theorem ChainRun.exec_done (s : Scope) (err : Option Error) :
    (ChainRun.done s err).exec ans = (s, err) := rfl

@[simp] theorem ChainRun.exec_call (f : ProcessPtr) (s : Scope)
    (k : Scope → Option Error → ChainRun) :
    (ChainRun.call f s k).exec ans = (k (ans 0 f s).1 (ans 0 f s).2).exec ans.next := rfl

@[simp] theorem ChainRun.trace_done (s : Scope) (err : Option Error) :
    (ChainRun.done s err).trace ans = [] := rfl

@[simp] theorem ChainRun.trace_call (f : ProcessPtr) (s : Scope)
    (k : Scope → Option Error → ChainRun) :
    (ChainRun.call f s k).trace ans
      = ⟨f, s, (ans 0 f s).1, (ans 0 f s).2⟩ :: (k (ans 0 f s).1 (ans 0 f s).2).trace ans.next :=
  rfl

/-- Call `i` of a trace got the answer `ans i` of its process. -/
theorem ChainRun.answered (r : ChainRun) :
    ∀ i c, (r.trace ans)[i]? = some c → ans i c.process c.input = (c.output, c.err) := by
  induction r generalizing ans with
  | done s err => simp
  | call f s k ih =>
    rintro (_ | i) c hc <;> simp only [ChainRun.trace_call, List.getElem?_cons_zero,
      List.getElem?_cons_succ, Option.some.injEq] at hc
    · exact hc ▸ rfl
    · exact ih _ _ ans.next i c hc

end

end NeuronCore.Query
