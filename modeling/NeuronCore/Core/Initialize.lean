import Mathlib.Data.List.Nodup
import Mathlib.Logic.Function.Basic
import NeuronCore.Core.Service

set_option autoImplicit false

/-! # `core.Service.Initialize`

`Initialize` brings a service up. It gives its context a deadline of 30 seconds unless the
caller's context has one, lets every codec that is an `Initializer` initialize itself, dials
every repository, registers the options' models, maps models to their repositories, migrates
the models to migrate, initializes the collections, and initializes the server if there is one.
The first call that fails ends it with that call's error.

Every call's arguments are fixed by the options before the first call is made, so `Initialize` is
the list of its calls (`initCalls`) made in order until one fails (`runCalls`). The calls go to
code outside `src/`; what each returns is a parameter, so the results hold whatever they do.

The one computation of its own is the list of models to map (`modelsToMap`). With no
non-repository models it is `Models` as given. Otherwise `Initialize` indexes the models by
collection name in a map, so a later model replaces an earlier one of the same collection,
deletes the collections of the non-repository models, and collects the map's values in Go's
unspecified order (`order`). `modelsToMap_spec` states what it maps in both cases. -/

namespace NeuronCore.Core

/-- Modelled from the source's use: a `context.Context`, as `Initialize` uses it, through its
    deadline (in seconds). -/
structure Context where
  deadline : Option Nat
deriving DecidableEq, Repr

/-- `context.Background()`: no deadline. -/
def Context.background : Context := ⟨none⟩

/-- Modelled from the source's use: the fields of `Options` (declared outside `src/`) that
    `Initialize` reads. -/
structure InitOptions (Model Collection : Type) where
  models : List Model
  nonRepositoryModels : List Model
  migrateModels : List Model
  collections : List Collection

/-- A call `Initialize` makes to code outside `src/`, with its arguments. -/
inductive InitCall (Model Collection Codec : Type) where
  | codecInitialize (codec : Codec)
  | dialAll (ctx : Context)
  | registerModels (models : List Model)
  | mapModelsRepositories (models : List Model)
  | migrateModels (ctx : Context) (models : List Model)
  | initializeCollection (collection : Collection)
  | serverInitialize
deriving DecidableEq, Repr

/-- The parts of `Initialize`'s world outside `src/`: each model's `NeuronCollectionName()`,
    `codec.ListCodecs()` and which of them are `Initializer`s, the time of the call, the order in
    which `range` visits the keys of `modelsCollections`, and what each outside call returns. -/
structure InitEnv (Model Collection Codec : Type) where
  collectionName : Model → String
  codecs : List Codec
  isInitializer : Codec → Bool
  now : Nat
  order : List String
  answer : InitCall Model Collection Codec → Option Error

/-! ## The models to map -/

section

variable {Model : Type} (collectionName : Model → String)

/-- The map `modelsCollections` after its two loops: every model under its collection name, a
    later one replacing an earlier one, then the collections of the non-repository models
    deleted. -/
def modelsCollections (models nonRepositoryModels : List Model) : String → Option Model :=
  nonRepositoryModels.foldl (fun m model => Function.update m (collectionName model) none)
    (models.foldl (fun m model => Function.update m (collectionName model) (some model))
      fun _ => none)

/-- `modelsToMap`, the `range` over `modelsCollections` visiting its keys in `order`. -/
def modelsToMap (order : List String) (models nonRepositoryModels : List Model) : List Model :=
  if nonRepositoryModels.length > 0 then
    order.filterMap (modelsCollections collectionName models nonRepositoryModels)
  else models

/-- `order` is an order `range` may visit the map `m` in: each key of `m` once. -/
def IsKeyOrder (m : String → Option Model) (order : List String) : Prop :=
  order.Nodup ∧ ∀ key, key ∈ order ↔ (m key).isSome

theorem foldl_update_some (models : List Model) (init : String → Option Model) (key : String) :
    models.foldl (fun m model => Function.update m (collectionName model) (some model)) init key
      = (models.reverse.find? fun m => collectionName m = key).or (init key) := by
  induction models generalizing init with
  | nil => rfl
  | cons model models ih =>
    rw [List.foldl_cons, ih, List.reverse_cons, List.find?_append, Option.or_assoc]
    by_cases h : collectionName model = key
    · subst h; simp
    · simp [h, Ne.symm h]

theorem foldl_update_none (nonRepositoryModels : List Model) (init : String → Option Model)
    (key : String) :
    nonRepositoryModels.foldl (fun m model => Function.update m (collectionName model) none)
      init key
      = if nonRepositoryModels.any (fun m => collectionName m = key) then none else init key := by
  induction nonRepositoryModels generalizing init with
  | nil => rfl
  | cons model models ih =>
    rw [List.foldl_cons, ih]
    by_cases h : collectionName model = key
    · subst h; simp
    · simp [h, Ne.symm h]

theorem modelsCollections_apply (models nonRepositoryModels : List Model) (key : String) :
    modelsCollections collectionName models nonRepositoryModels key
      = if nonRepositoryModels.any (fun m => collectionName m = key) then none
        else models.reverse.find? fun m => collectionName m = key := by
  rw [modelsCollections, foldl_update_none, foldl_update_some, Option.or_none]

theorem modelsCollections_eq_some {models nonRepositoryModels : List Model} {key : String}
    {model : Model} :
    modelsCollections collectionName models nonRepositoryModels key = some model ↔
      collectionName model = key ∧ (∀ other ∈ nonRepositoryModels, collectionName other ≠ key) ∧
      models.reverse.find? (fun m => collectionName m = key) = some model := by
  rw [modelsCollections_apply]
  split
  · next hany =>
    obtain ⟨other, hother, hname⟩ := by simpa using hany
    exact iff_of_false nofun fun ⟨_, hnot, _⟩ => hnot other hother hname
  · next hany =>
    exact ⟨fun h => ⟨by simpa using List.find?_some h, by simpa using hany, h⟩, fun h => h.2.2⟩

/-- **The models `Initialize` maps to repositories.** With no non-repository models it maps
    `Models` as given, repeats and all. Otherwise, in whatever order Go visits the map, it maps
    exactly the models that are the last of `Models` with their collection name and whose
    collection is not that of a non-repository model, one per collection name. -/
theorem modelsToMap_spec (order : List String) (models nonRepositoryModels : List Model)
    (horder : IsKeyOrder (modelsCollections collectionName models nonRepositoryModels) order) :
    (nonRepositoryModels = [] →
      modelsToMap collectionName order models nonRepositoryModels = models) ∧
    (nonRepositoryModels ≠ [] →
      (∀ model, model ∈ modelsToMap collectionName order models nonRepositoryModels ↔
        (∀ other ∈ nonRepositoryModels, collectionName other ≠ collectionName model) ∧
        models.reverse.find? (fun m => collectionName m = collectionName model) = some model) ∧
      ((modelsToMap collectionName order models nonRepositoryModels).map
        collectionName).Nodup) := by
  refine ⟨fun h => by simp [modelsToMap, h], fun h => ?_⟩
  have hpos : nonRepositoryModels.length > 0 := List.length_pos.2 h
  simp only [modelsToMap, hpos, if_true]
  refine ⟨fun model => ?_, ?_⟩
  · rw [List.mem_filterMap]
    constructor
    · rintro ⟨key, -, hk⟩
      obtain ⟨rfl, hnot, hfind⟩ := (modelsCollections_eq_some collectionName).1 hk
      exact ⟨hnot, hfind⟩
    · rintro ⟨hnot, hfind⟩
      have hk := (modelsCollections_eq_some collectionName).2 ⟨rfl, hnot, hfind⟩
      exact ⟨_, (horder.2 _).2 (by simp [hk]), hk⟩
  · rw [List.map_filterMap]
    refine List.Nodup.filterMap (fun a a' b ha ha' => ?_) horder.1
    simp only [Option.mem_def, Option.map_eq_some'] at ha ha'
    obtain ⟨x, hx, rfl⟩ := ha
    obtain ⟨y, hy, hxy⟩ := ha'
    rw [← ((modelsCollections_eq_some collectionName).1 hx).1,
      ← ((modelsCollections_eq_some collectionName).1 hy).1, hxy]

/-- Two models of collection `x`, one of `y`, and a non-repository model of `y`: the `y` model
    is deleted and the later `x` model is mapped. -/
theorem modelsToMap_spec_last_wins :
    IsKeyOrder (modelsCollections Prod.snd [("a", "x"), ("b", "y"), ("c", "x")] [("d", "y")])
      ["x"] ∧
    ([("d", "y")] = [] →
      modelsToMap Prod.snd ["x"] [("a", "x"), ("b", "y"), ("c", "x")] [("d", "y")]
        = [("a", "x"), ("b", "y"), ("c", "x")]) ∧
    ([("d", "y")] ≠ [] →
      (∀ model, model ∈ modelsToMap Prod.snd ["x"] [("a", "x"), ("b", "y"), ("c", "x")]
          [("d", "y")] ↔
        (∀ other ∈ [("d", "y")], Prod.snd other ≠ Prod.snd model) ∧
        [("a", "x"), ("b", "y"), ("c", "x")].reverse.find? (fun m => Prod.snd m = Prod.snd model)
          = some model) ∧
      ((modelsToMap Prod.snd ["x"] [("a", "x"), ("b", "y"), ("c", "x")]
        [("d", "y")]).map Prod.snd).Nodup) :=
  have h : IsKeyOrder (modelsCollections Prod.snd [("a", "x"), ("b", "y"), ("c", "x")]
      [("d", "y")]) ["x"] := ⟨by decide, fun key => by
    rw [modelsCollections_apply]
    by_cases hx : key = "x"
    · subst hx; decide
    by_cases hy : key = "y"
    · subst hy; decide
    simp [hx, hy, Ne.symm hx, Ne.symm hy]⟩
  ⟨h, modelsToMap_spec Prod.snd _ _ _ h⟩

end

/-! ## The calls -/

/-- The context `Initialize` hands on: `context.Background()` for a `nil` one, then
    `context.WithTimeout(ctx, 30 s)` if it has no deadline, `context.WithCancel(ctx)`, which keeps
    its deadline, otherwise. -/
def initContext (now : Nat) (ctx : Option Context) : Context :=
  match (ctx.getD .background).deadline with
  | none => ⟨some (now + 30)⟩
  | some deadline => ⟨some deadline⟩

section

variable {Model Collection Codec Server : Type}

/-- The calls of `s.Initialize(ctx)`, in order, if none fails. -/
def initCalls (env : InitEnv Model Collection Codec)
    (s : Service (InitOptions Model Collection) Server) (ctx : Option Context) :
    List (InitCall Model Collection Codec) :=
  let ctx := initContext env.now ctx
  let toMap := modelsToMap env.collectionName env.order s.options.models
    s.options.nonRepositoryModels
  (env.codecs.filter env.isInitializer).map .codecInitialize ++
    [.dialAll ctx, .registerModels s.options.models] ++
    (if toMap.length > 0 then [.mapModelsRepositories toMap] else []) ++
    (if s.options.migrateModels.length > 0 then [.migrateModels ctx s.options.migrateModels]
      else []) ++
    s.options.collections.map .initializeCollection ++
    (if s.server.isSome then [.serverInitialize] else [])

/-- Make the calls in order until one fails: the calls made, and the error of the failing one. -/
def runCalls (answer : InitCall Model Collection Codec → Option Error) :
    List (InitCall Model Collection Codec) → List (InitCall Model Collection Codec) × Option Error
  | [] => ([], none)
  | c :: cs =>
    match answer c with
    | some err => ([c], some err)
    | none => ((c :: (runCalls answer cs).1), (runCalls answer cs).2)

/-- `s.Initialize(ctx)`: the calls it makes and the error it returns. -/
def Service.initialize (env : InitEnv Model Collection Codec)
    (s : Service (InitOptions Model Collection) Server) (ctx : Option Context) :
    List (InitCall Model Collection Codec) × Option Error :=
  runCalls env.answer (initCalls env s ctx)

end

end NeuronCore.Core
