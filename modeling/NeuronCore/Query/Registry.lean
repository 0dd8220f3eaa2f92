import Mathlib.Data.List.Forall2
import NeuronCore.Query.Processor

set_option autoImplicit false

/-! # The process registry and the assembly of chains

`RegisterProcess` writes a process into two process-wide tables: `processes`, from names to
processes, and `internal.Processes`, the set of registered names. A process whose name is
already a key of `processes` is refused with a panic before either table is written.
`newProcessor` looks each configured name up in `processes`, verb by verb in the order Create,
Delete, Get, List, Patch, and panics at the first name that is not registered.

The registry is a state machine whose runs are sequences of `RegisterProcess` calls from empty
tables, a panicking call leaving the tables as they were (`Registry.register`). `WFRegistry`
carries its invariant, that both tables hold the same names; `registry_runs` states what every
run guarantees, and what `newProcessor` then builds from the tables. `newProcessor` resolves the
five lists as one (`newProcessor_chains`), which names its panic (`newProcessor_eq_error_iff`),
and the verbs of a processor it builds call the registered processes of the configured names
(`newProcessor_verbs_call`). Over a whole run the tables are the list of registrations read
first match first (`registerAll_empty_eq_find`). -/

namespace NeuronCore.Query

/-- The two tables `RegisterProcess` writes: `processes` and `internal.Processes`. -/
structure Registry where
  processes : String → Option ProcessPtr
  internalProcesses : String → Bool

/-- The tables before any registration. -/
def Registry.empty : Registry := ⟨fun _ => none, fun _ => false⟩

/-- `RegisterProcess(p)`: the tables after the call, or its panic. -/
def registerProcess {Ctx : Type} (heap : ProcessPtr → Process Ctx) (p : ProcessPtr)
    (r : Registry) : Except Panic Registry :=
  let name := (heap p).name
  match r.processes name with
  | some _ => .error ⟨s!"Process: '{name}' already registered"⟩
  | none =>
    .ok ⟨Function.update r.processes name (some p),
      Function.update r.internalProcesses name true⟩

/-- A `RegisterProcess(p)` call whose panic, if any, is recovered. -/
def Registry.register {Ctx : Type} (heap : ProcessPtr → Process Ctx) (r : Registry)
    (p : ProcessPtr) : Registry :=
  match registerProcess heap p r with
  | .ok r' => r'
  | .error _ => r

/-- The tables after the calls `RegisterProcess(p₁) … RegisterProcess(pₘ)`, panics recovered. -/
def Registry.registerAll {Ctx : Type} (heap : ProcessPtr → Process Ctx) (r : Registry)
    (ps : List ProcessPtr) : Registry :=
  ps.foldl (Registry.register heap) r

/-- Modelled from the spec: `config.Processor`, whose declaration is not under `src/`: the
    process names configured for each verb, as `newProcessor` reads them. -/
structure ProcessorConfig where
  createProcesses : List String
  deleteProcesses : List String
  getProcesses : List String
  listProcesses : List String
  patchProcesses : List String
deriving DecidableEq, Repr

/-- Every configured name, in the order `newProcessor` resolves them. -/
def ProcessorConfig.processNames (cfg : ProcessorConfig) : List String :=
  cfg.createProcesses ++ cfg.deleteProcesses ++ cfg.getProcesses ++ cfg.listProcesses ++
    cfg.patchProcesses

/-- `processes[processName]` in `newProcessor`, which panics when the name is not registered. -/
def lookupProcess (r : Registry) (processName : String) : Except Panic ProcessPtr :=
  match r.processes processName with
  | some process => .ok process
  | none => .error ⟨s!"Process: '{processName}' is not registered"⟩

/-- One loop of `newProcessor`: the registered process of each name, in order, or a panic at the
    first name that is not registered. -/
def resolveChain (r : Registry) (names : List String) : Except Panic (List ProcessPtr) :=
  names.mapM (lookupProcess r)

/-- `newProcessor(cfg)` over the tables `r`. -/
def newProcessor (r : Registry) (cfg : ProcessorConfig) : Except Panic Processor := do
  let createChain ← resolveChain r cfg.createProcesses
  let deleteChain ← resolveChain r cfg.deleteProcesses
  let getChain ← resolveChain r cfg.getProcesses
  let listChain ← resolveChain r cfg.listProcesses
  let patchChain ← resolveChain r cfg.patchProcesses
  pure { createChain, getChain, listChain, patchChain, deleteChain }

/-! ## One registration -/

section

variable {Ctx : Type} (heap : ProcessPtr → Process Ctx)

theorem registerProcess_error_iff (r : Registry) (p : ProcessPtr) :
    (∃ e, registerProcess heap p r = .error e) ↔ (r.processes (heap p).name).isSome := by
  unfold registerProcess
  cases hn : r.processes (heap p).name <;> simp [hn]

theorem registerProcess_ok {r r' : Registry} {p : ProcessPtr}
    (h : registerProcess heap p r = .ok r') :
    r'.processes = Function.update r.processes (heap p).name (some p) ∧
      r'.internalProcesses = Function.update r.internalProcesses (heap p).name true := by
  unfold registerProcess at h
  cases hn : r.processes (heap p).name <;> simp only [hn] at h <;> cases h
  exact ⟨rfl, rfl⟩

theorem register_of_error {r : Registry} {p : ProcessPtr} {e : Panic}
    (h : registerProcess heap p r = .error e) : r.register heap p = r := by
  simp [Registry.register, h]

theorem registerAll_append (r : Registry) (ps qs : List ProcessPtr) :
    r.registerAll heap (ps ++ qs) = (r.registerAll heap ps).registerAll heap qs :=
  List.foldl_append _ _ _ _

/-- A registration binds `p`'s name to `p` unless the name is bound already. -/
theorem register_processes (r : Registry) (p : ProcessPtr) (name : String) :
    (r.register heap p).processes name
      = (r.processes name).or (if (heap p).name = name then some p else none) := by
  unfold Registry.register registerProcess
  by_cases h : (heap p).name = name
  · subst h; cases hn : r.processes (heap p).name <;> simp [hn]
  · cases hn : r.processes (heap p).name <;> simp [hn, h, Ne.symm h]

/-- After a run, a name is bound as before the run or, if it was free, to the first process of
    the run with that name. -/
theorem registerAll_processes (r : Registry) (ps : List ProcessPtr) (name : String) :
    (r.registerAll heap ps).processes name
      = (r.processes name).or (ps.find? fun p => (heap p).name = name) := by
  induction ps generalizing r with
  | nil => simp [Registry.registerAll]
  | cons p ps ih =>
    rw [Registry.registerAll, List.foldl_cons, ← Registry.registerAll, ih, register_processes,
      List.find?_cons, Option.or_assoc]
    by_cases h : (heap p).name = name <;> simp [h]

/-- A run never rebinds a name. -/
theorem registerAll_processes_of_some {r : Registry} (ps : List ProcessPtr) {name : String}
    {f : ProcessPtr} (h : r.processes name = some f) :
    (r.registerAll heap ps).processes name = some f := by
  rw [registerAll_processes, h]
  rfl

end

/-! ## The invariant -/

/-- Registry tables with the same names in both: every reachable state is one. -/
structure WFRegistry where
  reg : Registry
  keys_agree : ∀ name, (reg.processes name).isSome = reg.internalProcesses name

/-- The empty tables. -/
def WFRegistry.empty : WFRegistry := ⟨.empty, fun _ => rfl⟩

section

variable {Ctx : Type} (heap : ProcessPtr → Process Ctx)

theorem register_keys_agree (r : Registry)
    (h : ∀ name, (r.processes name).isSome = r.internalProcesses name) (p : ProcessPtr) :
    ∀ name, ((r.register heap p).processes name).isSome
      = (r.register heap p).internalProcesses name := by
  intro name
  unfold Registry.register
  cases hr : registerProcess heap p r with
  | error e => exact h name
  | ok r' =>
    obtain ⟨hp, hi⟩ := registerProcess_ok heap hr
    by_cases hn : name = (heap p).name
    · simp [hp, hi, hn]
    · simp [hp, hi, hn, h name]

/-- `RegisterProcess` with its panic recovered, on tables that keep the invariant. -/
def WFRegistry.register (r : WFRegistry) (p : ProcessPtr) : WFRegistry :=
  ⟨r.reg.register heap p, register_keys_agree heap r.reg r.keys_agree p⟩

/-- A run of registrations on tables that keep the invariant. -/
def WFRegistry.registerAll (r : WFRegistry) (ps : List ProcessPtr) : WFRegistry :=
  ps.foldl (WFRegistry.register heap) r

theorem WFRegistry.registerAll_reg (r : WFRegistry) (ps : List ProcessPtr) :
    (r.registerAll heap ps).reg = r.reg.registerAll heap ps := by
  induction ps generalizing r with
  | nil => rfl
  | cons p ps ih => exact ih _

/-- Every state of every run from empty tables has the same names in both tables. -/
theorem registerAll_keys_agree (ps : List ProcessPtr) (name : String) :
    ((Registry.empty.registerAll heap ps).processes name).isSome
      = (Registry.empty.registerAll heap ps).internalProcesses name := by
  have h := (WFRegistry.empty.registerAll heap ps).keys_agree name
  rwa [WFRegistry.registerAll_reg] at h

theorem registerAll_empty_processes (ps : List ProcessPtr) (name : String) :
    (Registry.empty.registerAll heap ps).processes name
      = ps.find? (fun p => (heap p).name = name) := by
  rw [registerAll_processes]
  rfl

theorem registerAll_empty_internalProcesses (ps : List ProcessPtr) (name : String) :
    (Registry.empty.registerAll heap ps).internalProcesses name
      = ps.any (fun p => (heap p).name = name) := by
  rw [← registerAll_keys_agree, registerAll_empty_processes, Bool.eq_iff_iff, List.find?_isSome,
    List.any_eq_true]

/-- **The tables are the list of registrations.** After any run of `RegisterProcess` calls from
    empty tables, panics recovered, `processes` binds each name to the first process of the run
    with that name, and `internal.Processes` holds exactly the names of the run's processes. -/
theorem registerAll_empty_eq_find (ps : List ProcessPtr) (name : String) :
    (Registry.empty.registerAll heap ps).processes name
      = ps.find? (fun p => (heap p).name = name) ∧
    (Registry.empty.registerAll heap ps).internalProcesses name
      = ps.any (fun p => (heap p).name = name) :=
  ⟨registerAll_empty_processes heap ps name, registerAll_empty_internalProcesses heap ps name⟩

end

/-! ## Assembling the chains -/

theorem lookupProcess_eq_ok (r : Registry) (name : String) (f : ProcessPtr) :
    lookupProcess r name = .ok f ↔ r.processes name = some f := by
  unfold lookupProcess
  cases r.processes name <;> simp

/-- A chain resolves to `chain` exactly when `chain` looks up each name in order. -/
theorem resolveChain_eq_ok_iff (r : Registry) (names : List String) (chain : List ProcessPtr) :
    resolveChain r names = .ok chain ↔
      List.Forall₂ (fun name f => r.processes name = some f) names chain := by
  unfold resolveChain
  induction names generalizing chain with
  | nil =>
    simp only [List.mapM_nil, pure_eq_ok, List.forall₂_nil_left_iff]
    exact eq_comm
  | cons name names ih =>
    simp only [List.mapM_cons, bind_eq_ok, lookupProcess_eq_ok, ih, pure_eq_ok,
      List.forall₂_cons_left_iff]
    constructor
    · rintro ⟨f, hf, fs, hfs, rfl⟩; exact ⟨f, fs, hf, hfs, rfl⟩
    · rintro ⟨f, fs, hf, hfs, rfl⟩; exact ⟨f, hf, fs, hfs, rfl⟩

/-- `newProcessor` builds `p` exactly when every verb's chain resolves to `p`'s chain. -/
theorem newProcessor_eq_ok_iff (r : Registry) (cfg : ProcessorConfig) (p : Processor) :
    newProcessor r cfg = .ok p ↔
      resolveChain r cfg.createProcesses = .ok p.createChain ∧
      resolveChain r cfg.deleteProcesses = .ok p.deleteChain ∧
      resolveChain r cfg.getProcesses = .ok p.getChain ∧
      resolveChain r cfg.listProcesses = .ok p.listChain ∧
      resolveChain r cfg.patchProcesses = .ok p.patchChain := by
  simp only [newProcessor, bind_eq_ok]
  constructor
  · rintro ⟨c, hc, d, hd, g, hg, l, hl, q, hq, h⟩
    cases h
    exact ⟨hc, hd, hg, hl, hq⟩
  · rintro ⟨hc, hd, hg, hl, hq⟩
    exact ⟨_, hc, _, hd, _, hg, _, hl, _, hq, rfl⟩

/-! ## The panic of `newProcessor` -/

/-- The chains of `p`, verb by verb in the order `newProcessor` resolves them. -/
def Processor.chains (p : Processor) : List ProcessPtr :=
  p.createChain ++ p.deleteChain ++ p.getChain ++ p.listChain ++ p.patchChain

/-- `newProcessor` resolves the configured names as one list, the verbs in its order. -/
theorem newProcessor_chains (r : Registry) (cfg : ProcessorConfig) :
    Processor.chains <$> newProcessor r cfg = resolveChain r cfg.processNames := by
  simp only [newProcessor, ProcessorConfig.processNames, resolveChain, List.mapM_append, map_bind,
    bind_assoc, pure_bind, map_pure, Processor.chains, List.append_assoc]

theorem newProcessor_error_iff_resolveChain (r : Registry) (cfg : ProcessorConfig) (e : Panic) :
    newProcessor r cfg = .error e ↔ resolveChain r cfg.processNames = .error e := by
  rw [← newProcessor_chains, map_eq_error]

/-- A chain panics exactly when one of its names is not registered, naming the first. -/
theorem resolveChain_eq_error_iff (r : Registry) (names : List String) (e : Panic) :
    resolveChain r names = .error e ↔
      ∃ name, names.find? (fun n => (r.processes n).isNone) = some name ∧
        e = ⟨s!"Process: '{name}' is not registered"⟩ := by
  unfold resolveChain
  induction names with
  | nil => exact ⟨nofun, fun ⟨_, h, _⟩ => nomatch h⟩
  | cons n names ih =>
    rw [List.mapM_cons, List.find?_cons]
    cases hn : r.processes n with
    | none => simp only [lookupProcess, hn]; simp [eq_comm]
    | some f =>
      simp only [lookupProcess, hn, ok_bind, ih.symm, bind_pure_comp, map_eq_error,
        Option.isNone_some]

/-- **Which name `newProcessor` panics on.** `newProcessor(cfg)` panics exactly when a
    configured name is not registered, and its panic names the first such name, the verbs taken
    in the order Create, Delete, Get, List, Patch. -/
theorem newProcessor_eq_error_iff (r : Registry) (cfg : ProcessorConfig) (e : Panic) :
    newProcessor r cfg = .error e ↔
      ∃ name, cfg.processNames.find? (fun n => (r.processes n).isNone) = some name ∧
        e = ⟨s!"Process: '{name}' is not registered"⟩ := by
  rw [← resolveChain_eq_error_iff, newProcessor_error_iff_resolveChain]

/-- A computation that panics exactly at the first name of `names` that is not registered
    returns exactly when every name is registered. -/
theorem exists_ok_of_error_iff {α : Type} {x : Except Panic α} {r : Registry}
    {names : List String}
    (h : ∀ e, x = .error e ↔ ∃ name, names.find? (fun n => (r.processes n).isNone) = some name ∧
      e = ⟨s!"Process: '{name}' is not registered"⟩) :
    (∃ a, x = .ok a) ↔ ∀ name ∈ names, (r.processes name).isSome := by
  rw [← not_iff_not, ← exists_error_iff]
  simp only [h]
  rw [exists_comm]
  simp only [exists_eq_right, ← Option.isSome_iff_exists, List.find?_isSome]
  simp [Option.isSome_iff_ne_none]

theorem newProcessor_ok_iff (r : Registry) (cfg : ProcessorConfig) :
    (∃ p, newProcessor r cfg = .ok p) ↔ ∀ name ∈ cfg.processNames, (r.processes name).isSome :=
  exists_ok_of_error_iff fun e =>
    (newProcessor_error_iff_resolveChain r cfg e).trans (resolveChain_eq_error_iff r _ e)

/-! ## What a built processor calls -/

/-- A chain resolved from `names` calls, whatever its steps do, the process of each name in
    order. -/
theorem trace_forall₂_of_resolveChain {r : Registry} {names : List String}
    {chain : List ProcessPtr} (h : resolveChain r names = .ok chain) (ans : Answers)
    (pe : Option Error) (s : Scope) :
    List.Forall₂ (fun name c => r.processes name = some c.process) names
      ((runChain chain pe s).trace ans) := by
  have h := (resolveChain_eq_ok_iff r names chain).1 h
  rwa [← trace_runChain_process ans chain pe s, List.forall₂_map_right_iff] at h

/-- **What a built processor calls.** When `newProcessor(cfg)` builds `p`, each verb of `p`
    calls, whatever its steps do, the process registered under each of the verb's configured
    names, in order, repeats kept. -/
theorem newProcessor_verbs_call (r : Registry) (cfg : ProcessorConfig) (p : Processor)
    (h : newProcessor r cfg = .ok p) (ans : Answers) (s : Scope) :
    List.Forall₂ (fun name c => r.processes name = some c.process) cfg.createProcesses
      ((p.create s).trace ans) ∧
    List.Forall₂ (fun name c => r.processes name = some c.process) cfg.getProcesses
      ((p.get s).trace ans) ∧
    List.Forall₂ (fun name c => r.processes name = some c.process) cfg.listProcesses
      ((p.list s).trace ans) ∧
    List.Forall₂ (fun name c => r.processes name = some c.process) cfg.patchProcesses
      ((p.patch s).trace ans) ∧
    List.Forall₂ (fun name c => r.processes name = some c.process) cfg.deleteProcesses
      ((p.delete s).trace ans) := by
  obtain ⟨hc, hd, hg, hl, hq⟩ := (newProcessor_eq_ok_iff r cfg p).1 h
  exact ⟨trace_forall₂_of_resolveChain hc ans none s, trace_forall₂_of_resolveChain hg ans none s,
    trace_forall₂_of_resolveChain hl ans none s, trace_forall₂_of_resolveChain hq ans none s,
    trace_forall₂_of_resolveChain hd ans none s⟩

/-- A Create chain of two names, the first repeated: the calls follow the names in order, the
    repeat included. -/
theorem newProcessor_verbs_call_repeat :
    newProcessor ⟨fun n => if n = "a" then some ⟨0⟩ else if n = "b" then some ⟨1⟩ else none,
        fun n => n = "a" || n = "b"⟩ ⟨["a", "b", "a"], [], [], [], []⟩
      = .ok ⟨[⟨0⟩, ⟨1⟩, ⟨0⟩], [], [], [], []⟩ ∧
    List.Forall₂ (fun name c =>
        (if name = "a" then some ⟨0⟩ else if name = "b" then some ⟨1⟩ else none) = some c.process)
      ["a", "b", "a"]
      (((⟨[⟨0⟩, ⟨1⟩, ⟨0⟩], [], [], [], []⟩ : Processor).create ⟨fun _ => none⟩).trace
        fun _ _ s => (s, none)) :=
  have h : newProcessor
      ⟨fun n => if n = "a" then some ⟨0⟩ else if n = "b" then some ⟨1⟩ else none,
        fun n => n = "a" || n = "b"⟩ ⟨["a", "b", "a"], [], [], [], []⟩
      = .ok ⟨[⟨0⟩, ⟨1⟩, ⟨0⟩], [], [], [], []⟩ := rfl
  ⟨h, (newProcessor_verbs_call _ _ _ h _ _).1⟩

/-! ## From the registrations to the pipeline -/

section

variable {Ctx : Type} (heap : ProcessPtr → Process Ctx)

end

/-- **The registry over every run.** Each `RegisterProcess(p)` call, from any tables, panics
    exactly when `p`'s name is already a key of `processes`; a panicking call leaves both tables
    as they were and a successful one binds `p`'s name in both. Along every run from empty tables
    the two tables therefore hold the same names: `processes` binds each name to the first process
    of the run carrying it and `internal.Processes` holds exactly the run's names, and no name is
    ever rebound. On the tables a run leaves, `newProcessor(cfg)` panics exactly when a configured
    name is not registered, and otherwise each verb's chain looks up the verb's names in order,
    repeats kept. -/
theorem registry_runs {Ctx : Type} (heap : ProcessPtr → Process Ctx) :
    (∀ (r : Registry) (p : ProcessPtr),
      ((∃ e, registerProcess heap p r = .error e) ↔ (r.processes (heap p).name).isSome) ∧
      ((∃ e, registerProcess heap p r = .error e) → r.register heap p = r) ∧
      (∀ r', registerProcess heap p r = .ok r' →
        r'.processes = Function.update r.processes (heap p).name (some p) ∧
        r'.internalProcesses = Function.update r.internalProcesses (heap p).name true)) ∧
    (∀ ps name, ((Registry.empty.registerAll heap ps).processes name).isSome
      = (Registry.empty.registerAll heap ps).internalProcesses name) ∧
    (∀ ps name, (Registry.empty.registerAll heap ps).processes name
        = ps.find? (fun p => (heap p).name = name) ∧
      (Registry.empty.registerAll heap ps).internalProcesses name
        = ps.any (fun p => (heap p).name = name)) ∧
    (∀ ps qs name f, (Registry.empty.registerAll heap ps).processes name = some f →
      (Registry.empty.registerAll heap (ps ++ qs)).processes name = some f) ∧
    (∀ ps cfg, let r := Registry.empty.registerAll heap ps
      ((∃ e, newProcessor r cfg = .error e) ↔
        ∃ name ∈ cfg.processNames, r.processes name = none) ∧
      ∀ p, newProcessor r cfg = .ok p →
        List.Forall₂ (fun name f => r.processes name = some f) cfg.createProcesses p.createChain ∧
        List.Forall₂ (fun name f => r.processes name = some f) cfg.getProcesses p.getChain ∧
        List.Forall₂ (fun name f => r.processes name = some f) cfg.listProcesses p.listChain ∧
        List.Forall₂ (fun name f => r.processes name = some f) cfg.patchProcesses p.patchChain ∧
        List.Forall₂ (fun name f => r.processes name = some f) cfg.deleteProcesses p.deleteChain) := by
  refine ⟨fun r p => ⟨registerProcess_error_iff heap r p, fun ⟨_, h⟩ => register_of_error heap h,
    fun _ h => registerProcess_ok heap h⟩, registerAll_keys_agree heap,
    fun ps name => ⟨registerAll_empty_processes heap ps name,
      registerAll_empty_internalProcesses heap ps name⟩, ?_, fun ps cfg => ⟨?_, ?_⟩⟩
  · intro ps qs name f h
    rw [registerAll_append]
    exact registerAll_processes_of_some heap qs h
  · rw [exists_error_iff, newProcessor_ok_iff]
    simp
  · intro p h
    obtain ⟨hc, hd, hg, hl, hq⟩ := (newProcessor_eq_ok_iff _ cfg p).1 h
    simp only [resolveChain_eq_ok_iff] at hc hd hg hl hq
    exact ⟨hc, hg, hl, hq, hd⟩

end NeuronCore.Query
