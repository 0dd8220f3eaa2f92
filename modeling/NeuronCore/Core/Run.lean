import Mathlib.Data.List.Basic
import NeuronCore.Runtime

set_option autoImplicit false

/-! # `core.Service.Run`

With `HandleSignals` off, `Run` is `s.Server.Serve()` and returns what it returns. With it on,
`Run` makes a `quit` channel of capacity one that `signal.Notify` feeds, an `errorChan` of
capacity one, and starts a goroutine that calls `Serve` and sends the error to `errorChan` when it
is neither `nil` nor `http.ErrServerClosed`. It then selects on the context's `Done`, on `quit` and
on `errorChan`: an error from `errorChan` is returned as it is; after the other two it calls
`Shutdown` and returns what that returns.

The model is the run's state (`RunState`: where each goroutine stands, what each channel holds,
whether the context is done) and one step per event (`RunEvent`): `Serve` or `Shutdown`
returning with any result, the goroutine's send, a signal, the context ending, and each case of
the `select`. A step is `none` where its event cannot happen, so `runEvents` over a list of events
is one interleaving, and every theorem holds for every list. `Serve`, `Shutdown`, the signals and
the context are outside `src/`; their results are the events' arguments.

`RunInv` is what every interleaving keeps (`runInv_runEvents`): `errorChan` stays empty until
the goroutine sends, and every value a channel holds and every phase of `Run` is explained by
the events so far. From it, the goroutine's send never blocks (`run_send_ready`), and `Run`
returns only with `Serve`'s own result, a failure of `Serve`, or `Shutdown`'s result after a
signal or the end of the context (`run_returned`). -/

namespace NeuronCore.Core

/-- Where the goroutine that called `Run` stands. -/
inductive MainPhase where
  /-- `HandleSignals` is off and `Run` is inside `s.Server.Serve()`. -/
  | serving
  /-- In the `select`. -/
  | selecting
  /-- Inside `s.Server.Shutdown(ctx)`. -/
  | shuttingDown
  /-- `Run` returned this error (`none` for `nil`). -/
  | returned (err : Option Error)
deriving DecidableEq, Repr

/-- Where the goroutine started by `Run` stands. -/
inductive ServerPhase where
  /-- Inside `s.Server.Serve()`. -/
  | serving
  /-- At `errorChan <- err`. -/
  | sending (err : Error)
  /-- Returned, or never started. -/
  | exited
deriving DecidableEq, Repr

/-- The state of a run of `Run`. A channel of capacity one holds at most one value, so
    `errorChan` is an `Option` and `quit` records whether a signal is buffered; `quit` is `none`
    when `Run` made no channel. -/
structure RunState where
  main : MainPhase
  server : ServerPhase
  errorChan : Option Error
  quit : Option Bool
  ctxDone : Bool
deriving DecidableEq, Repr

/-- What can happen next in a run. -/
inductive RunEvent where
  /-- `s.Server.Serve()` returns this error. -/
  | serveReturns (err : Option Error)
  /-- The goroutine's `errorChan <- err` completes. -/
  | send
  /-- A signal is delivered to `quit`. -/
  | signal
  /-- `s.Context` is done. -/
  | cancel
  /-- The `select` takes its `<-s.Context.Done()` case. -/
  | selectDone
  /-- The `select` takes its `<-quit` case. -/
  | selectQuit
  /-- The `select` takes its `<-errorChan` case. -/
  | selectError
  /-- `s.Server.Shutdown(ctx)` returns this error. -/
  | shutdownReturns (err : Option Error)
deriving DecidableEq, Repr

/-- The state `Run` starts from: with `HandleSignals` the channels are made, the goroutine
    started and `Run` is in the `select`; without it `Run` is inside `Serve`. -/
def RunState.init : Bool → RunState
  | true => ⟨.selecting, .serving, none, some false, false⟩
  | false => ⟨.serving, .exited, none, none, false⟩

section

variable (errServerClosed : Error)

/-- Where the goroutine goes when `Serve` returns `err`: to the send when
    `err != nil && err != http.ErrServerClosed`, out otherwise. -/
def afterServe : Option Error → ServerPhase
  | some err => if err = errServerClosed then .exited else .sending err
  | none => .exited

/-- One event of a run, `none` where it cannot happen. A signal is a non-blocking send: it is
    dropped when `quit` is full. -/
def RunState.step (s : RunState) : RunEvent → Option RunState
  | .serveReturns err =>
    if s.main = .serving then some { s with main := .returned err }
    else if s.server = .serving then some { s with server := afterServe errServerClosed err }
    else none
  | .send =>
    match s.server, s.errorChan with
    | .sending err, none => some { s with server := .exited, errorChan := some err }
    | _, _ => none
  | .signal => s.quit.map fun _ => { s with quit := some true }
  | .cancel => some { s with ctxDone := true }
  | .selectDone =>
    if s.main = .selecting ∧ s.ctxDone then some { s with main := .shuttingDown } else none
  | .selectQuit =>
    if s.main = .selecting ∧ s.quit = some true then
      some { s with main := .shuttingDown, quit := some false }
    else none
  | .selectError =>
    match s.main, s.errorChan with
    | .selecting, some err => some { s with main := .returned (some err), errorChan := none }
    | _, _ => none
  | .shutdownReturns err =>
    if s.main = .shuttingDown then some { s with main := .returned err } else none

/-- The state after a run of events from the start, `none` if one of them could not happen. -/
def runEvents (handleSignals : Bool) (evs : List RunEvent) : Option RunState :=
  evs.foldlM (fun s e => s.step errServerClosed e) (RunState.init handleSignals)

@[simp]
theorem runEvents_nil (handleSignals : Bool) :
    runEvents errServerClosed handleSignals [] = some (RunState.init handleSignals) := rfl

theorem runEvents_concat (handleSignals : Bool) (evs : List RunEvent) (e : RunEvent) :
    runEvents errServerClosed handleSignals (evs ++ [e]) =
      (runEvents errServerClosed handleSignals evs).bind fun s => s.step errServerClosed e := by
  simp only [runEvents, List.foldlM_append, List.foldlM_cons, List.foldlM_nil, bind_pure]
  rfl

/-! ## What the events explain -/

/-- `Serve` returned `err` in the run, and `err` is not `http.ErrServerClosed`. -/
def ServeFailed (evs : List RunEvent) (err : Error) : Prop :=
  .serveReturns (some err) ∈ evs ∧ err ≠ errServerClosed

/-- A signal came or the context ended in the run. -/
def Stopped (evs : List RunEvent) : Prop := .signal ∈ evs ∨ .cancel ∈ evs

/-- Why `Run` with `HandleSignals` may return `r`: `r` is an error `Serve` failed with, or a
    signal came or the context ended and `r` is what `Shutdown` returned. -/
def ReturnReason (evs : List RunEvent) (r : Option Error) : Prop :=
  (∃ err, r = some err ∧ ServeFailed errServerClosed evs err) ∨
    (Stopped evs ∧ .shutdownReturns r ∈ evs)

variable {errServerClosed}

theorem ServeFailed.mono {evs evs' : List RunEvent} (h : evs ⊆ evs') {err : Error}
    (hf : ServeFailed errServerClosed evs err) : ServeFailed errServerClosed evs' err :=
  ⟨h hf.1, hf.2⟩

theorem Stopped.mono {evs evs' : List RunEvent} (h : evs ⊆ evs') (hs : Stopped evs) :
    Stopped evs' :=
  hs.imp (@h _) (@h _)

theorem ReturnReason.mono {evs evs' : List RunEvent} (h : evs ⊆ evs') {r : Option Error}
    (hr : ReturnReason errServerClosed evs r) : ReturnReason errServerClosed evs' r :=
  hr.imp (fun ⟨err, he, hf⟩ => ⟨err, he, hf.mono h⟩) fun ⟨hs, hm⟩ => ⟨hs.mono h, h hm⟩

variable (errServerClosed)

/-- What every interleaving keeps, for a run started with `handleSignals`. -/
structure RunInv (handleSignals : Bool) (evs : List RunEvent) (s : RunState) : Prop where
  /-- Only the goroutine sends to `errorChan`, once, when it leaves `Serve`. -/
  errorChan_none : s.server ≠ .exited → s.errorChan = none
  sending : ∀ err, s.server = .sending err → ServeFailed errServerClosed evs err
  errorChan : ∀ err, s.errorChan = some err → ServeFailed errServerClosed evs err
  quit : s.quit = some true → .signal ∈ evs
  ctxDone : s.ctxDone = true → .cancel ∈ evs
  serving : s.main = .serving → handleSignals = false
  selecting : s.main = .selecting ∨ s.main = .shuttingDown → handleSignals = true
  shuttingDown : s.main = .shuttingDown → Stopped evs
  returned : ∀ r, s.main = .returned r →
    if handleSignals then ReturnReason errServerClosed evs r else .serveReturns r ∈ evs

variable {errServerClosed}

theorem RunInv.mono {handleSignals : Bool} {evs evs' : List RunEvent} {s : RunState}
    (h : RunInv errServerClosed handleSignals evs s) (hsub : evs ⊆ evs') :
    RunInv errServerClosed handleSignals evs' s where
  errorChan_none := h.errorChan_none
  sending err he := (h.sending err he).mono hsub
  errorChan err he := (h.errorChan err he).mono hsub
  quit hq := hsub (h.quit hq)
  ctxDone hc := hsub (h.ctxDone hc)
  serving := h.serving
  selecting := h.selecting
  shuttingDown hm := (h.shuttingDown hm).mono hsub
  returned r hr := by
    have := h.returned r hr
    cases handleSignals
    · exact hsub this
    · exact this.mono hsub

theorem runInv_init (handleSignals : Bool) :
    RunInv errServerClosed handleSignals [] (RunState.init handleSignals) := by
  cases handleSignals <;> constructor <;> simp [RunState.init]

/-- One event keeps the invariant. -/
theorem RunInv.step {handleSignals : Bool} {evs : List RunEvent} {s s' : RunState}
    {e : RunEvent} (h : RunInv errServerClosed handleSignals evs s)
    (hs : s.step errServerClosed e = some s') :
    RunInv errServerClosed handleSignals (evs ++ [e]) s' := by
  have h' := h.mono (List.subset_append_left evs [e])
  have he : e ∈ evs ++ [e] := List.mem_append_right evs (List.mem_singleton_self e)
  cases e with
  | serveReturns err =>
    simp only [RunState.step] at hs
    split_ifs at hs with hm hsv <;> cases hs
    · refine
        { h' with
          serving := nofun
          selecting := nofun
          shuttingDown := nofun
          returned := fun r hr => ?_ }
      cases hr
      simp [h.serving hm]
    · refine
        { h' with
          errorChan_none := fun _ => h.errorChan_none (by simp [hsv])
          sending := fun e' hse => ?_ }
      cases err with
      | none => cases hse
      | some err =>
        simp only [afterServe] at hse
        split_ifs at hse with hc
        cases hse
        exact ⟨he, hc⟩
  | send =>
    simp only [RunState.step] at hs
    split at hs <;> cases hs
    rename_i err _ _
    exact
      { h' with
        errorChan_none := fun hx => absurd rfl hx
        sending := nofun
        errorChan := fun e' he' => by cases he'; exact h'.sending err ‹_› }
  | signal =>
    simp only [RunState.step, Option.map_eq_some'] at hs
    obtain ⟨_, -, rfl⟩ := hs
    exact { h' with quit := fun _ => he }
  | cancel =>
    cases hs
    exact { h' with ctxDone := fun _ => he }
  | selectDone =>
    simp only [RunState.step] at hs
    split_ifs at hs with hm
    cases hs
    exact
      { h' with
        serving := nofun
        selecting := fun _ => h.selecting (.inl hm.1)
        shuttingDown := fun _ => .inr (h'.ctxDone hm.2)
        returned := nofun }
  | selectQuit =>
    simp only [RunState.step] at hs
    split_ifs at hs with hm
    cases hs
    exact
      { h' with
        quit := nofun
        serving := nofun
        selecting := fun _ => h.selecting (.inl hm.1)
        shuttingDown := fun _ => .inl (h'.quit hm.2)
        returned := nofun }
  | selectError =>
    simp only [RunState.step] at hs
    split at hs <;> cases hs
    rename_i err hm hc
    refine
      { h' with
        errorChan_none := fun _ => rfl
        errorChan := nofun
        serving := nofun
        selecting := nofun
        shuttingDown := nofun
        returned := fun r hr => ?_ }
    cases hr
    rw [if_pos (h.selecting (.inl hm))]
    exact .inl ⟨err, rfl, h'.errorChan err hc⟩
  | shutdownReturns err =>
    simp only [RunState.step] at hs
    split_ifs at hs with hm
    cases hs
    refine
      { h' with
        serving := nofun
        selecting := nofun
        shuttingDown := nofun
        returned := fun r hr => ?_ }
    cases hr
    rw [if_pos (h.selecting (.inr hm))]
    exact .inr ⟨h'.shuttingDown hm, he⟩

/-- Every interleaving keeps the invariant. -/
theorem runInv_runEvents {handleSignals : Bool} {evs : List RunEvent} {s : RunState}
    (h : runEvents errServerClosed handleSignals evs = some s) :
    RunInv errServerClosed handleSignals evs s := by
  induction evs using List.reverseRecOn generalizing s with
  | nil =>
    cases h
    exact runInv_init handleSignals
  | append_singleton evs e ih =>
    rw [runEvents_concat, Option.bind_eq_some] at h
    obtain ⟨s₀, h₀, hs⟩ := h
    exact (ih h₀).step hs

/-! ## The run's guarantees -/

/-- **The goroutine's send never blocks.** In every interleaving, when the goroutine stands at
    `errorChan <- err`, the channel is empty and the send completes at once, whether `Run` is
    still in the `select`, took a signal, or has returned: the goroutine always ends. -/
theorem run_send_ready (handleSignals : Bool) (evs : List RunEvent) (s : RunState)
    (h : runEvents errServerClosed handleSignals evs = some s) (err : Error)
    (hsend : s.server = .sending err) :
    s.step errServerClosed .send = some { s with server := .exited, errorChan := some err } := by
  have hnone := (runInv_runEvents h).errorChan_none (by simp [hsend])
  simp [RunState.step, hsend, hnone]

/-- The send of a failure, while `Run` is still in the `select`. -/
theorem run_send_ready_in_select :
    runEvents ⟨"", "http: Server closed", []⟩ true [.serveReturns (some ⟨"", "bind", []⟩)] =
      some ⟨.selecting, .sending ⟨"", "bind", []⟩, none, some false, false⟩ ∧
    RunState.step ⟨"", "http: Server closed", []⟩
        ⟨.selecting, .sending ⟨"", "bind", []⟩, none, some false, false⟩ .send =
      some ⟨.selecting, .exited, some ⟨"", "bind", []⟩, some false, false⟩ :=
  have h : runEvents ⟨"", "http: Server closed", []⟩ true [.serveReturns (some ⟨"", "bind", []⟩)] =
      some ⟨.selecting, .sending ⟨"", "bind", []⟩, none, some false, false⟩ := rfl
  ⟨h, run_send_ready true _ _ h _ rfl⟩

/-- **Why `Run` returns.** In every interleaving, when `Run` has returned `r`: without
    `HandleSignals`, `r` is what `Serve` returned, `nil` and `http.ErrServerClosed` included;
    with it, `r` is an error `Serve` failed with, or a signal came or the context ended and `r`
    is what `Shutdown` returned. So with `HandleSignals`, a `Serve` that returns `nil` or
    `http.ErrServerClosed` by itself leaves `Run` in the `select` until a signal or the end of
    the context. -/
theorem run_returned (handleSignals : Bool) (evs : List RunEvent) (s : RunState)
    (h : runEvents errServerClosed handleSignals evs = some s) (r : Option Error)
    (hr : s.main = .returned r) :
    if handleSignals then ReturnReason errServerClosed evs r else .serveReturns r ∈ evs :=
  (runInv_runEvents h).returned r hr

/-- A failure of `Serve` returned through `errorChan`. -/
theorem run_returned_serve_failure :
    runEvents ⟨"", "http: Server closed", []⟩ true
        [.serveReturns (some ⟨"", "bind", []⟩), .send, .selectError] =
      some ⟨.returned (some ⟨"", "bind", []⟩), .exited, none, some false, false⟩ ∧
    ReturnReason ⟨"", "http: Server closed", []⟩
      [.serveReturns (some ⟨"", "bind", []⟩), .send, .selectError] (some ⟨"", "bind", []⟩) :=
  have h : runEvents ⟨"", "http: Server closed", []⟩ true
      [.serveReturns (some ⟨"", "bind", []⟩), .send, .selectError] =
      some ⟨.returned (some ⟨"", "bind", []⟩), .exited, none, some false, false⟩ := rfl
  ⟨h, run_returned true _ _ h _ rfl⟩

end

end NeuronCore.Core
