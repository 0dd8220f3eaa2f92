import NeuronCore.Common.Brackets

set_option autoImplicit false

/-! # The bracket alternation

What `SplitBracketParameter` accepts depends only on the bracket bytes of its input,
`brackets s`: the input is well formed when they are `[ ]` repeated, `pairs n`, and the text
outside the pairs is ignored.

`BracketPhase` is the four-state automaton that checks this alternation: `closed` and `opened`
while the brackets read so far are `pairs n` or `pairs n ++ [`, and two absorbing states for the
first bracket that breaks it, a `]` or a `[`. The language lemmas at the end name the shape of
`brackets s` that each final state stands for. `Common/BracketsProofs.lean` shows that the Go loop
simulates the automaton. -/

namespace NeuronCore.Common

theorem annotationOpenedBracket_ne_closed : annotationOpenedBracket ≠ annotationClosedBracket := by
  decide

/-- Whether `c` is one of the two bracket bytes. -/
def isBracket (c : UInt8) : Bool := c = annotationOpenedBracket || c = annotationClosedBracket

/-- The bracket bytes of `s`, in order. -/
def brackets (s : List UInt8) : List UInt8 := s.filter isBracket

/-- `[ ]` repeated `n` times. -/
def pairs (n : Nat) : List UInt8 :=
  (List.replicate n [annotationOpenedBracket, annotationClosedBracket]).flatten

@[simp] theorem pairs_zero : pairs 0 = [] := rfl

theorem pairs_succ (n : Nat) :
    pairs (n + 1) = annotationOpenedBracket :: annotationClosedBracket :: pairs n := rfl

/-- The states of the alternation check. -/
inductive BracketPhase where
  | closed
  | opened
  | brokenByClose
  | brokenByOpen
deriving DecidableEq, Repr

/-- Read one byte; bytes other than brackets leave the state as it is. -/
def BracketPhase.next : BracketPhase → UInt8 → BracketPhase
  | .closed, c =>
    if c = annotationOpenedBracket then .opened
    else if c = annotationClosedBracket then .brokenByClose else .closed
  | .opened, c =>
    if c = annotationOpenedBracket then .brokenByOpen
    else if c = annotationClosedBracket then .closed else .opened
  | .brokenByClose, _ => .brokenByClose
  | .brokenByOpen, _ => .brokenByOpen

/-- The state after reading all of `s`. -/
def bracketPhase (s : List UInt8) : BracketPhase := s.foldl BracketPhase.next .closed

@[simp] theorem bracketPhase_nil : bracketPhase [] = .closed := rfl

@[simp] theorem bracketPhase_concat (p : List UInt8) (c : UInt8) :
    bracketPhase (p ++ [c]) = (bracketPhase p).next c := by
  simp [bracketPhase, List.foldl_append]

theorem BracketPhase.next_of_not_bracket (ph : BracketPhase) {c : UInt8}
    (hc : isBracket c = false) : ph.next c = ph := by
  simp only [isBracket, Bool.or_eq_false_iff, decide_eq_false_iff_not] at hc
  cases ph <;> simp [BracketPhase.next, hc.1, hc.2]

/-- Reading `s` and reading only its brackets end in the same state. -/
theorem foldl_next_brackets (s : List UInt8) (ph : BracketPhase) :
    (brackets s).foldl BracketPhase.next ph = s.foldl BracketPhase.next ph := by
  induction s generalizing ph with
  | nil => rfl
  | cons c s ih =>
    cases hc : isBracket c
    · simp [brackets, List.filter_cons, hc, BracketPhase.next_of_not_bracket _ hc, ← ih]
    · simp [brackets, List.filter_cons, hc, ← ih]

theorem bracketPhase_brackets (s : List UInt8) : bracketPhase (brackets s) = bracketPhase s :=
  foldl_next_brackets s .closed

/-! ## The shapes of the bracket bytes -/

theorem foldl_next_brokenByClose (l : List UInt8) :
    l.foldl BracketPhase.next .brokenByClose = .brokenByClose := by
  induction l with
  | nil => rfl
  | cons c l ih => exact ih

theorem foldl_next_brokenByOpen (l : List UInt8) :
    l.foldl BracketPhase.next .brokenByOpen = .brokenByOpen := by
  induction l with
  | nil => rfl
  | cons c l ih => exact ih

theorem foldl_next_pairs (n : Nat) (l : List UInt8) :
    (pairs n ++ l).foldl BracketPhase.next .closed = l.foldl BracketPhase.next .closed := by
  induction n with
  | zero => rfl
  | succ n ih =>
    simp [pairs_succ, BracketPhase.next, annotationOpenedBracket_ne_closed.symm, ih]

theorem bracketPhase_pairs (n : Nat) : bracketPhase (pairs n) = .closed := by
  simpa using foldl_next_pairs n []

theorem bracketPhase_pairs_opened (n : Nat) :
    bracketPhase (pairs n ++ [annotationOpenedBracket]) = .opened := by
  simp [bracketPhase_pairs, BracketPhase.next]

theorem bracketPhase_pairs_close (n : Nat) (rest : List UInt8) :
    bracketPhase (pairs n ++ annotationClosedBracket :: rest) = .brokenByClose := by
  rw [bracketPhase, foldl_next_pairs]
  simp [BracketPhase.next, annotationOpenedBracket_ne_closed.symm, foldl_next_brokenByClose]

theorem bracketPhase_pairs_open_open (n : Nat) (rest : List UInt8) :
    bracketPhase (pairs n ++ annotationOpenedBracket :: annotationOpenedBracket :: rest)
      = .brokenByOpen := by
  rw [bracketPhase, foldl_next_pairs]
  simp [BracketPhase.next, foldl_next_brokenByOpen]

/-- Every string of brackets is `pairs n` followed by nothing, by a lone `[`, by a `]`, or by
    `[[`: the first bracket that breaks the alternation, if any, is a `]` or a second `[`. -/
theorem brackets_shape : ∀ l : List UInt8, (∀ c ∈ l, isBracket c) → ∃ n,
    l = pairs n ∨ l = pairs n ++ [annotationOpenedBracket] ∨
    (∃ rest, l = pairs n ++ annotationClosedBracket :: rest) ∨
    ∃ rest, l = pairs n ++ annotationOpenedBracket :: annotationOpenedBracket :: rest
  | [], _ => ⟨0, .inl rfl⟩
  | [c], h => by
    have hc := h c (List.mem_singleton_self c)
    simp only [isBracket, Bool.or_eq_true, decide_eq_true_eq] at hc
    rcases hc with rfl | rfl
    · exact ⟨0, .inr (.inl rfl)⟩
    · exact ⟨0, .inr (.inr (.inl ⟨[], rfl⟩))⟩
  | c :: d :: rest, h => by
    have hc := h c (by simp)
    have hd := h d (by simp)
    simp only [isBracket, Bool.or_eq_true, decide_eq_true_eq] at hc hd
    rcases hc with rfl | rfl
    · rcases hd with rfl | rfl
      · exact ⟨0, .inr (.inr (.inr ⟨rest, rfl⟩))⟩
      · obtain ⟨n, hn⟩ := brackets_shape rest (fun x hx => h x (by simp [hx]))
        refine ⟨n + 1, ?_⟩
        rcases hn with rfl | rfl | ⟨r, rfl⟩ | ⟨r, rfl⟩
        · exact .inl rfl
        · exact .inr (.inl rfl)
        · exact .inr (.inr (.inl ⟨r, rfl⟩))
        · exact .inr (.inr (.inr ⟨r, rfl⟩))
    · exact ⟨0, .inr (.inr (.inl ⟨d :: rest, rfl⟩))⟩

theorem isBracket_of_mem_brackets {s : List UInt8} {c : UInt8} (h : c ∈ brackets s) :
    isBracket c := (List.mem_filter.1 h).2

/-- **The accepted language.** The automaton ends in `closed` exactly when `brackets s` is `pairs n`. -/
theorem bracketPhase_eq_closed_iff (s : List UInt8) :
    bracketPhase s = .closed ↔ ∃ n, brackets s = pairs n := by
  refine ⟨fun h => ?_, fun ⟨n, hn⟩ => by rw [← bracketPhase_brackets, hn, bracketPhase_pairs]⟩
  rw [← bracketPhase_brackets] at h
  obtain ⟨n, hn | hn | ⟨r, hn⟩ | ⟨r, hn⟩⟩ :=
    brackets_shape (brackets s) fun _ => isBracket_of_mem_brackets
  · exact ⟨n, hn⟩
  · rw [hn, bracketPhase_pairs_opened] at h; cases h
  · rw [hn, bracketPhase_pairs_close] at h; cases h
  · rw [hn, bracketPhase_pairs_open_open] at h; cases h

end NeuronCore.Common
