import Mathlib.Data.List.Chain
import NeuronCore.Query.ChainRun

set_option autoImplicit false

/-! # `query.Processor`: running a chain

Each verb of the `Processor` (`Create`, `Get`, `List`, `Patch`, `Delete`) runs its chain with the
same loop: call every process in order; after a failing call store its error under
`ProcessError` and remember it as the error to return; after every call store the process under
`PreviousProcessStoreKey`. A failing step does not stop the loop, and the verb returns the error
of the last failing step.

The five loops of the source are one definition, `runChain`, applied to each verb's chain; the
two `StoreSet` writes after a call are `Scope.afterProcess`. What the loop promises for every
chain and every behaviour of the steps is `ChainLaw`; `runChain_chainLaw` proves it by induction
over the chain, and `processor_chainLaw` states it for the five verbs. -/

namespace NeuronCore.Query

/-- `Processor`: the chain of processes of each verb. -/
structure Processor where
  createChain : List ProcessPtr
  getChain : List ProcessPtr
  listChain : List ProcessPtr
  patchChain : List ProcessPtr
  deleteChain : List ProcessPtr
deriving DecidableEq, Repr

/-- What the loop writes after a call of `f` that returned `err`: on a failure
    `s.StoreSet(common.ProcessError, err)`, and always
    `s.StoreSet(internal.PreviousProcessStoreKey, f)`. -/
def Scope.afterProcess (s : Scope) (f : ProcessPtr) : Option Error → Scope
  | some err =>
    (s.storeSet .processError (.error err)).storeSet .previousProcessStoreKey (.process f)
  | none => s.storeSet .previousProcessStoreKey (.process f)

/-- The loop of the verbs, from the error `processError` recorded so far: call `f` on the scope,
    keep its error as `processError` if it failed, and record it in the scope it returned. -/
def runChain : List ProcessPtr → Option Error → Scope → ChainRun
  | [], processError, s => .done s processError
  | f :: chain, processError, s => .call f s fun s err =>
    runChain chain (err.or processError) (s.afterProcess f err)

/-- `p.Create(ctx, s)` is `(p.create s).exec (Process.answers heap ctx)`: the loop over
    `p.CreateChain` as the tree of the calls it makes. -/
def Processor.create (p : Processor) (s : Scope) : ChainRun := runChain p.createChain none s

/-- The loop of `Processor.Get` over `p.GetChain`. -/
def Processor.get (p : Processor) (s : Scope) : ChainRun := runChain p.getChain none s

/-- The loop of `Processor.List` over `p.ListChain`. -/
def Processor.list (p : Processor) (s : Scope) : ChainRun := runChain p.listChain none s

/-- The loop of `Processor.Patch` over `p.PatchChain`. It converts the scope with `(*Scope)(s)`
    where the other verbs call `queryS(s)`; both hand the step the same scope. -/
def Processor.patch (p : Processor) (s : Scope) : ChainRun := runChain p.patchChain none s

/-- The loop of `Processor.Delete` over `p.DeleteChain`. -/
def Processor.delete (p : Processor) (s : Scope) : ChainRun := runChain p.deleteChain none s

/-! ## What the loop writes between two calls -/

/-- `s'` is what the loop makes of the scope the call `c` returned: `c`'s process is the previous
    process; `ProcessError` holds `c`'s error if it failed and is as `c` left it otherwise; every
    other entry is as `c` left it. -/
structure Call.Recorded (c : Call) (s' : Scope) : Prop where
  previous : s'.store .previousProcessStoreKey = some (.process c.process)
  processError : s'.store .processError = match c.err with
    | some err => some (.error err)
    | none => c.output.store .processError
  other : ∀ key, key ≠ .processError → key ≠ .previousProcessStoreKey →
    s'.store key = c.output.store key

theorem Call.recorded_afterProcess (c : Call) :
    c.Recorded (c.output.afterProcess c.process c.err) := by
  obtain ⟨f, _, s, err⟩ := c
  constructor <;> cases err <;> simp +contextual [Scope.afterProcess]

/-! ## The law of a run -/

/-- What a verb's loop promises when it runs `chain` on the scope `s`, whatever the steps do
    (`ans`). -/
structure ChainLaw (ans : Answers) (chain : List ProcessPtr) (s : Scope) (r : ChainRun) :
    Prop where
  /-- Every process of the chain is called exactly once, in chain order, failing or not. -/
  calls : (r.trace ans).map Call.process = chain
  /-- Call `i` gets its process's answer at position `i`. -/
  answered : ∀ i c, (r.trace ans)[i]? = some c → ans i c.process c.input = (c.output, c.err)
  /-- The first call is given the scope the verb was given. -/
  first : ∀ c ∈ (r.trace ans).head?, c.input = s
  /-- Each next call is given the scope the previous one returned, with the loop's records. -/
  between : (r.trace ans).Chain' fun c c' => c.Recorded c'.input
  /-- The verb leaves the scope the last call returned, with the loop's records. -/
  last : ∀ c ∈ (r.trace ans).getLast?, c.Recorded (r.exec ans).1
  /-- The verb returns the error of the last failing call. -/
  result : (r.exec ans).2 = ((r.trace ans).filterMap Call.err).getLast?
  /-- It returns `nil` exactly when no call failed. -/
  result_eq_none : (r.exec ans).2 = none ↔ ∀ c ∈ r.trace ans, c.err = none
  /-- If no call fails or writes `ProcessError`, the verb leaves `ProcessError` as it found it. -/
  processError_kept : (∀ c ∈ r.trace ans,
      c.err = none ∧ c.output.store .processError = c.input.store .processError) →
    (r.exec ans).2 = none ∧ (r.exec ans).1.store .processError = s.store .processError
  /-- An empty chain leaves the scope as it is and returns `nil`. -/
  empty : chain = [] → r.exec ans = (s, none)

section

variable (ans : Answers)

theorem trace_runChain_cons (f : ProcessPtr) (chain : List ProcessPtr) (pe : Option Error)
    (s : Scope) : (runChain (f :: chain) pe s).trace ans
      = ⟨f, s, (ans 0 f s).1, (ans 0 f s).2⟩ ::
        (runChain chain ((ans 0 f s).2.or pe) ((ans 0 f s).1.afterProcess f (ans 0 f s).2)).trace
          ans.next :=
  rfl

theorem exec_runChain_cons (f : ProcessPtr) (chain : List ProcessPtr) (pe : Option Error)
    (s : Scope) : (runChain (f :: chain) pe s).exec ans
      = (runChain chain ((ans 0 f s).2.or pe) ((ans 0 f s).1.afterProcess f (ans 0 f s).2)).exec
          ans.next :=
  rfl

theorem trace_runChain_process (chain : List ProcessPtr) (pe : Option Error) (s : Scope) :
    ((runChain chain pe s).trace ans).map Call.process = chain := by
  induction chain generalizing ans pe s with
  | nil => rfl
  | cons f chain ih => simp [trace_runChain_cons, ih]

theorem trace_runChain_head (chain : List ProcessPtr) (pe : Option Error) (s : Scope) :
    ∀ c ∈ ((runChain chain pe s).trace ans).head?, c.input = s := by
  cases chain with
  | nil => simp [runChain]
  | cons f chain => simp [trace_runChain_cons]

theorem trace_runChain_chain' (chain : List ProcessPtr) (pe : Option Error) (s : Scope) :
    ((runChain chain pe s).trace ans).Chain' fun c c' => c.Recorded c'.input := by
  induction chain generalizing ans pe s with
  | nil => simp [runChain]
  | cons f chain ih =>
    rw [trace_runChain_cons]
    refine (ih _ _ _).cons' fun c hc => ?_
    rw [trace_runChain_head _ chain _ _ c hc]
    exact Call.recorded_afterProcess _

/-- The verb leaves the scope the last call returned, with the loop's records of that call. -/
theorem exec_runChain_scope (chain : List ProcessPtr) (pe : Option Error) (s : Scope) :
    ((runChain chain pe s).exec ans).1
      = (((runChain chain pe s).trace ans).getLast?.map
          fun c => c.output.afterProcess c.process c.err).getD s := by
  induction chain generalizing ans pe s with
  | nil => rfl
  | cons f chain ih =>
    rw [exec_runChain_cons, trace_runChain_cons, ih, List.getLast?_cons]
    cases List.getLast? _ <;> rfl

theorem trace_runChain_last (chain : List ProcessPtr) (pe : Option Error) (s : Scope) :
    ∀ c ∈ ((runChain chain pe s).trace ans).getLast?,
      c.Recorded ((runChain chain pe s).exec ans).1 := by
  intro c hc
  rw [exec_runChain_scope, hc]
  exact Call.recorded_afterProcess c

theorem exec_runChain_err (chain : List ProcessPtr) (pe : Option Error) (s : Scope) :
    ((runChain chain pe s).exec ans).2
      = (((runChain chain pe s).trace ans).filterMap Call.err).getLast?.or pe := by
  induction chain generalizing ans pe s with
  | nil => rfl
  | cons f chain ih =>
    rw [exec_runChain_cons, trace_runChain_cons, ih]
    generalize (ans 0 f s).2 = err
    cases err with
    | none => rfl
    | some err =>
      simp only [List.filterMap_cons, List.getLast?_cons, Option.or_some]
      cases List.getLast? _ <;> rfl

/-- What `ProcessError` holds after the loop when no step writes it: the error of the last failing
    call, or, if none failed, what it held when the loop started. -/
theorem runChain_processError_last (chain : List ProcessPtr) (pe : Option Error) (s : Scope)
    (h : ∀ c ∈ (runChain chain pe s).trace ans,
      c.output.store .processError = c.input.store .processError) :
    ((runChain chain pe s).exec ans).1.store .processError
      = match (((runChain chain pe s).trace ans).filterMap Call.err).getLast? with
        | some err => some (.error err)
        | none => s.store .processError := by
  induction chain generalizing ans pe s with
  | nil => rfl
  | cons f chain ih =>
    rw [trace_runChain_cons] at h ⊢
    rw [exec_runChain_cons, ih _ _ _ fun c hc => h c (List.mem_cons_of_mem _ hc)]
    have hpe : (ans 0 f s).1.store .processError = s.store .processError :=
      h _ (List.mem_cons_self _ _)
    generalize (ans 0 f s).2 = err
    cases err with
    | none => simp [Scope.afterProcess, hpe]
    | some err =>
      simp only [List.filterMap_cons, List.getLast?_cons]
      cases List.getLast? _ <;> simp [Scope.afterProcess]

theorem runChain_processError_kept (chain : List ProcessPtr) (pe : Option Error) (s : Scope)
    (h : ∀ c ∈ (runChain chain pe s).trace ans,
      c.err = none ∧ c.output.store .processError = c.input.store .processError) :
    ((runChain chain pe s).exec ans).2 = pe ∧
      ((runChain chain pe s).exec ans).1.store .processError = s.store .processError := by
  have hnil : ((runChain chain pe s).trace ans).filterMap Call.err = [] :=
    List.filterMap_eq_nil_iff.2 fun c hc => (h c hc).1
  rw [exec_runChain_err, runChain_processError_last ans chain pe s fun c hc => (h c hc).2, hnil]
  exact ⟨rfl, rfl⟩

/-- **The chain law.** The verbs' loop, run from no recorded error, meets `ChainLaw` for every
    chain, every scope and every behaviour of the steps. -/
theorem runChain_chainLaw (chain : List ProcessPtr) (s : Scope) :
    ChainLaw ans chain s (runChain chain none s) := by
  have hres : ((runChain chain none s).exec ans).2
      = (((runChain chain none s).trace ans).filterMap Call.err).getLast? := by
    simpa using exec_runChain_err ans chain none s
  refine ⟨trace_runChain_process ans chain none s, ChainRun.answered ans _,
    trace_runChain_head ans chain none s, trace_runChain_chain' ans chain none s,
    trace_runChain_last ans chain none s, hres, ?_,
    fun h => runChain_processError_kept ans chain none s h, ?_⟩
  · rw [hres, List.getLast?_eq_none_iff, List.filterMap_eq_nil_iff]
  · rintro rfl
    rfl

/-! ## `ProcessError` when the steps leave it alone -/

/-- **`ProcessError` after a verb.** When no step writes `ProcessError` itself, the loop leaves
    there the error it returns, and if it returns `nil`, what was there before. -/
theorem runChain_processError_result (chain : List ProcessPtr) (s : Scope)
    (h : ∀ c ∈ (runChain chain none s).trace ans,
      c.output.store .processError = c.input.store .processError) :
    ((runChain chain none s).exec ans).1.store .processError
      = match ((runChain chain none s).exec ans).2 with
        | some err => some (.error err)
        | none => s.store .processError := by
  rw [runChain_processError_last ans chain none s h, exec_runChain_err, Option.or_none]

end

/-- A failing step, then a succeeding one, neither writing the store: the verb returns the first
    step's error and `ProcessError` still holds it after the second. -/
theorem runChain_processError_result_failure_then_success :
    (∀ c ∈ (runChain [⟨0⟩, ⟨1⟩] none ⟨fun _ => none⟩).trace
        (fun _ f s => (s, if f = ⟨0⟩ then some ⟨"", "failed", []⟩ else none)),
      c.output.store .processError = c.input.store .processError) ∧
    ((runChain [⟨0⟩, ⟨1⟩] none ⟨fun _ => none⟩).exec
        (fun _ f s => (s, if f = ⟨0⟩ then some ⟨"", "failed", []⟩ else none))).2
      = some ⟨"", "failed", []⟩ ∧
    ((runChain [⟨0⟩, ⟨1⟩] none ⟨fun _ => none⟩).exec
        (fun _ f s => (s, if f = ⟨0⟩ then some ⟨"", "failed", []⟩ else none))).1.store
        .processError
      = match ((runChain [⟨0⟩, ⟨1⟩] none ⟨fun _ => none⟩).exec
          (fun _ f s => (s, if f = ⟨0⟩ then some ⟨"", "failed", []⟩ else none))).2 with
        | some err => some (.error err)
        | none => none :=
  have h : ∀ c ∈ (runChain [⟨0⟩, ⟨1⟩] none ⟨fun _ => none⟩).trace
      (fun _ f s => (s, if f = ⟨0⟩ then some ⟨"", "failed", []⟩ else none)),
      c.output.store .processError = c.input.store .processError := by
    simp [runChain, Answers.next]
  ⟨h, rfl, runChain_processError_result _ _ _ h⟩

/-- **The Processor's verbs** `Create`, `Get`, `List`, `Patch` and `Delete` each meet the chain
    law on their own chain, for every scope and every behaviour of the steps. -/
theorem processor_chainLaw (p : Processor) (ans : Answers) (s : Scope) :
    ChainLaw ans p.createChain s (p.create s) ∧ ChainLaw ans p.getChain s (p.get s) ∧
    ChainLaw ans p.listChain s (p.list s) ∧ ChainLaw ans p.patchChain s (p.patch s) ∧
    ChainLaw ans p.deleteChain s (p.delete s) :=
  ⟨runChain_chainLaw ans _ s, runChain_chainLaw ans _ s, runChain_chainLaw ans _ s,
    runChain_chainLaw ans _ s, runChain_chainLaw ans _ s⟩

end NeuronCore.Query
