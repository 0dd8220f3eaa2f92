import NeuronCore.Runtime

set_option autoImplicit false

/-! # `core.New`

`New` builds a `Service` from options: it applies each option to the default options, derives the
controller's configuration, creates the controller, takes `controller.Default()` and
`db.New(svc.Controller)`, and then checks that the service has a server, models and
repositories, panicking with a `ClassInvalidOptions` error when one is missing. Nothing between
`&Service{Options: defaultOptions()}` and the first check assigns `svc.Server`, so that check
always fails: `New` panics on every input, with the error of the first call that fails, or
"no server defined for the service" (`new_eq_error`).

The options, `config()`, `controller.New`, `controller.Default`, `db.New` and the server are not
under `src/`; the model takes them as parameters (`ServiceEnv`), so the result holds whatever they
do. Each of the three calls after `config()` may panic, and what it does may depend on the
configuration, through the controller `controller.New(cfg)` sets up. Every panic of `New` is
modelled as an `Error`. The values `New` stores and never reads again (`Controller`, `DB`,
`Context`) are left out. -/

namespace NeuronCore.Core

/-- The parts of `New`'s world that are not under `src/`: the default options, `config()` on the
    options, the error `controller.New(cfg)` returns, the panics of `controller.Default()` and of
    `db.New` after it, and the lengths of the options' `Models` and `Repositories`. -/
structure ServiceEnv (Options Config : Type) where
  defaultOptions : Options
  config : Options → Except Error Config
  controllerNew : Config → Option Error
  controllerDefault : Config → Option Error
  dbNew : Config → Option Error
  models : Options → Nat
  repositories : Options → Nat

/-- `Service`, with the fields `New` reads: its options and its server, `nil` unless assigned. -/
structure Service (Options Server : Type) where
  options : Options
  server : Option Server

/-- `errors.Newf(ClassInvalidOptions, message)`. -/
def invalidOptions (message : String) : Error := ⟨"ClassInvalidOptions", message, []⟩

/-- A call that panics with `err` when it is `some err`, and returns otherwise. -/
def panicOn : Option Error → Except Error Unit
  | some err => .error err
  | none => .ok ()

/-- `New(options...)`: the service, or the error it panics with. -/
def new {Options Config Server : Type} (env : ServiceEnv Options Config)
    (options : List (Options → Options)) : Except Error (Service Options Server) := do
  let svc : Service Options Server :=
    ⟨options.foldl (fun o opt => opt o) env.defaultOptions, none⟩
  let cfg ← env.config svc.options
  panicOn (env.controllerNew cfg)
  panicOn (env.controllerDefault cfg)
  panicOn (env.dbNew cfg)
  if svc.server.isNone then throw (invalidOptions "no server defined for the service")
  else if env.models svc.options = 0 then
    throw (invalidOptions "no models defined for the service")
  else if env.repositories svc.options = 0 then
    throw (invalidOptions "no repositories defined for the service")
  else pure svc

theorem panicOn_bind {α : Type} (e : Option Error) (x : Except Error α) :
    (panicOn e >>= fun _ => x) = match e with
      | some err => .error err
      | none => x := by
  cases e <;> rfl

/-- **`New` always panics.** For every list of options and whatever the parts outside `src/` do,
    `New` panics: with the configuration's error, else with the error of the first of
    `controller.New`, `controller.Default` and `db.New` that fails, else because no server is
    defined, since nothing assigns `svc.Server`. -/
theorem new_eq_error {Options Config Server : Type} (env : ServiceEnv Options Config)
    (options : List (Options → Options)) :
    (new env options : Except Error (Service Options Server)) = .error
      (match env.config (options.foldl (fun o opt => opt o) env.defaultOptions) with
        | .error err => err
        | .ok cfg => ((env.controllerNew cfg).or ((env.controllerDefault cfg).or
            (env.dbNew cfg))).getD (invalidOptions "no server defined for the service")) := by
  unfold new
  simp only
  cases env.config (options.foldl (fun o opt => opt o) env.defaultOptions) with
  | error err => rfl
  | ok cfg =>
    simp only [ok_bind, panicOn_bind]
    cases env.controllerNew cfg <;> cases env.controllerDefault cfg <;> cases env.dbNew cfg <;> rfl

end NeuronCore.Core
