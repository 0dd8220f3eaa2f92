import Mathlib.Data.List.Basic
import NeuronCore.Common.BracketPhase

set_option autoImplicit false

/-! # `SplitBracketParameter` is correct

The loop of `splitBracketParameter` simulates the automaton `BracketPhase`. After any prefix `p`
of the input `s` it has stopped exactly when the automaton is in a broken state, with the error
that names that state, and otherwise `startIndex` and `endIndex` are the indexes of the last `[`
and `]` of `p` and `values` are the contents of the pairs of `p` (`scanResult`). The step from
`p` to `p ++ [c]` rests on what the automaton's state says about those indexes (`IndexFacts`):
the comparisons `startIndex > endIndex` and `startIndex < endIndex` of the source read the state
back, and the slice of a closing `]` is in range.

`splitBracketParameter_spec` then states the contract for every byte string, in terms of `brackets s`. -/

namespace NeuronCore.Common

/-! ## Positions of the brackets -/

/-- The indexes of the byte `b` in `p`, in order. -/
def positions (b : UInt8) (p : List UInt8) : List Nat := (p.enum.filter (·.2 = b)).map (·.1)

/-- The index of the last `b` in `p`, or `-1`. -/
def lastIndex (b : UInt8) (p : List UInt8) : Int := ((positions b p).getLast?.map (↑)).getD (-1)

/-- The bytes of `s` strictly between the indexes `i` and `j`. -/
def between (s : List UInt8) (i j : Nat) : List UInt8 := (s.drop (i + 1)).take (j - (i + 1))

/-- The contents of the pairs of `p`, read in `s`: the `i`-th is between the `i`-th `[` and the
    `i`-th `]` of `p`. -/
def bracketTokens (s p : List UInt8) : List (List UInt8) :=
  List.zipWith (between s) (positions annotationOpenedBracket p)
    (positions annotationClosedBracket p)

section Positions

variable (b : UInt8) (p : List UInt8) (c : UInt8)

@[simp] theorem positions_nil : positions b [] = [] := rfl

@[simp] theorem lastIndex_nil : lastIndex b [] = -1 := rfl

theorem positions_concat :
    positions b (p ++ [c]) = positions b p ++ if c = b then [p.length] else [] := by
  by_cases h : c = b <;> simp [positions, List.enum_append, List.filter_append, h]

@[simp] theorem positions_concat_self : positions b (p ++ [b]) = positions b p ++ [p.length] := by
  simp [positions_concat]

@[simp] theorem positions_concat_of_ne {b c : UInt8} (h : c ≠ b) :
    positions b (p ++ [c]) = positions b p := by
  simp [positions_concat, h]

@[simp] theorem lastIndex_concat_self : lastIndex b (p ++ [b]) = p.length := by
  simp [lastIndex, List.getLast?_append]

@[simp] theorem lastIndex_concat_of_ne {b c : UInt8} (h : c ≠ b) :
    lastIndex b (p ++ [c]) = lastIndex b p := by
  simp [lastIndex, h]

theorem length_positions : (positions b p).length = p.count b := by
  induction p using List.reverseRecOn with
  | nil => rfl
  | append_singleton p c ih =>
    by_cases h : c = b
    · subst h; simp [ih]
    · simp [h, ih, List.count_singleton, Ne.symm h]

theorem lastIndex_bounds : -1 ≤ lastIndex b p ∧ lastIndex b p < p.length := by
  induction p using List.reverseRecOn with
  | nil => simp
  | append_singleton p c ih =>
    by_cases h : c = b
    · subst h; simp; omega
    · simp only [lastIndex_concat_of_ne p h, List.length_append, List.length_singleton]; omega

end Positions

/-! ## What the automaton's state says about the indexes -/

/-- The facts about the last `[` and `]` of `p` that the state of the automaton after `p` gives:
    as many `[` as `]` and the last `[` before the last `]` when `closed`; one `[` more, the last
    `[` after the last `]`, and no bracket after it when `opened`. -/
def IndexFacts (p : List UInt8) : Prop :=
  match bracketPhase p with
  | .closed =>
    (positions annotationOpenedBracket p).length = (positions annotationClosedBracket p).length ∧
    (lastIndex annotationOpenedBracket p < lastIndex annotationClosedBracket p ∨
      lastIndex annotationOpenedBracket p = -1)
  | .opened =>
    (positions annotationOpenedBracket p).length
      = (positions annotationClosedBracket p).length + 1 ∧
    lastIndex annotationClosedBracket p < lastIndex annotationOpenedBracket p ∧
    ∀ x ∈ p.drop ((lastIndex annotationOpenedBracket p).toNat + 1), isBracket x = false
  | _ => True

theorem isBracket_eq_false {c : UInt8} (ho : c ≠ annotationOpenedBracket)
    (hc : c ≠ annotationClosedBracket) : isBracket c = false := by
  simp [isBracket, ho, hc]

theorem indexFacts (p : List UInt8) : IndexFacts p := by
  induction p using List.reverseRecOn with
  | nil => simp [IndexFacts]
  | append_singleton p c ih =>
    have hbo := lastIndex_bounds annotationOpenedBracket p
    have hbc := lastIndex_bounds annotationClosedBracket p
    have hne := annotationOpenedBracket_ne_closed
    unfold IndexFacts at ih ⊢
    rw [bracketPhase_concat]
    generalize bracketPhase p = ph at ih ⊢
    by_cases ho : c = annotationOpenedBracket
    · subst ho
      cases ph <;> simp_all [BracketPhase.next, Ne.symm hne]
    by_cases hc : c = annotationClosedBracket
    · subst hc
      cases ph <;> simp_all [BracketPhase.next]
    cases ph <;> simp only [BracketPhase.next, ho, hc, if_false] at ih ⊢
    · simpa [ho, hc] using ih
    · refine ⟨by simpa [ho, hc] using ih.1, by simpa [ho, hc] using ih.2.1, ?_⟩
      rw [lastIndex_concat_of_ne _ ho, List.drop_append_of_le_length (by omega)]
      simp only [List.mem_append, List.mem_singleton]
      rintro x (hx | rfl)
      exacts [ih.2.2 x hx, isBracket_eq_false ho hc]

/-! ## The contents of the pairs, one byte at a time -/

private theorem zipWith_concat_left {α β γ : Type} (f : α → β → γ) (l : List α) (a : α)
    (l' : List β) (h : l.length = l'.length) :
    List.zipWith f (l ++ [a]) l' = List.zipWith f l l' := by
  simpa using List.zipWith_append f l [a] l' [] h

theorem getLast?_positions {b : UInt8} {p : List UInt8} (h : 0 ≤ lastIndex b p) :
    (positions b p).getLast? = some (lastIndex b p).toNat := by
  unfold lastIndex at h ⊢
  cases hl : (positions b p).getLast? with
  | none => simp [hl] at h
  | some i => simp

theorem bracketTokens_concat_of_ne {s p : List UInt8} {c : UInt8}
    (ho : c ≠ annotationOpenedBracket) (hc : c ≠ annotationClosedBracket) :
    bracketTokens s (p ++ [c]) = bracketTokens s p := by
  simp [bracketTokens, ho, hc]

theorem bracketTokens_concat_open {s p : List UInt8}
    (h : (positions annotationOpenedBracket p).length
      = (positions annotationClosedBracket p).length) :
    bracketTokens s (p ++ [annotationOpenedBracket]) = bracketTokens s p := by
  simp [bracketTokens, annotationOpenedBracket_ne_closed, zipWith_concat_left _ _ _ _ h]

/-- A `]` that closes the last `[` of `p` adds the bytes between them as the last content. -/
theorem bracketTokens_concat_close {s p : List UInt8}
    (h : (positions annotationOpenedBracket p).length
      = (positions annotationClosedBracket p).length + 1)
    (hlo : 0 ≤ lastIndex annotationOpenedBracket p) :
    bracketTokens s (p ++ [annotationClosedBracket])
      = bracketTokens s p ++ [between s (lastIndex annotationOpenedBracket p).toNat p.length] := by
  have hpos := List.dropLast_append_getLast? _ (getLast?_positions hlo)
  have hlen : (positions annotationOpenedBracket p).dropLast.length
      = (positions annotationClosedBracket p).length := by simp [h]
  unfold bracketTokens
  rw [positions_concat_of_ne _ annotationOpenedBracket_ne_closed.symm, positions_concat_self,
    ← hpos, List.zipWith_append _ _ _ _ _ hlen, zipWith_concat_left _ _ _ _ hlen]
  rfl

/-! ## The loop simulates the automaton -/

/-- The loop's result after the prefix `p` of `s`, read off the automaton's state after `p`. -/
def scanResult (s p : List UInt8) : Except BracketExit BracketScan :=
  match bracketPhase p with
  | .brokenByClose => .error (.fail (noOpeningBracket s))
  | .brokenByOpen => .error (.fail (doubleOpen s))
  | .closed | .opened =>
    .ok ⟨lastIndex annotationOpenedBracket p, lastIndex annotationClosedBracket p,
      bracketTokens s p⟩

/-- **One iteration.** Reading the byte `c` at index `p.length` takes the loop from the result
    for `p` to the result for `p ++ [c]`. -/
theorem scanResult_concat {s p q : List UInt8} {c : UInt8} (hs : p ++ c :: q = s) :
    scanResult s p >>= (scanByte s · (p.length, c)) = scanResult s (p ++ [c]) := by
  have hf := indexFacts p
  have hbo := lastIndex_bounds annotationOpenedBracket p
  have hbc := lastIndex_bounds annotationClosedBracket p
  have hne := annotationOpenedBracket_ne_closed
  have hslen : p.length < s.length := by subst hs; simp
  unfold IndexFacts at hf
  unfold scanResult
  rw [bracketPhase_concat]
  generalize bracketPhase p = ph at hf ⊢
  by_cases ho : c = annotationOpenedBracket
  · subst ho
    cases ph with
    | closed =>
      obtain ⟨hlen, hlt⟩ := hf
      have : ¬ lastIndex annotationClosedBracket p < lastIndex annotationOpenedBracket p := by
        omega
      simp [scanByte, BracketPhase.next, this, bracketTokens_concat_open hlen, hne, Ne.symm hne]
    | opened => simp [scanByte, BracketPhase.next, hf.2.1]
    | brokenByClose | brokenByOpen => rfl
  by_cases hc : c = annotationClosedBracket
  · subst hc
    cases ph with
    | closed =>
      have : lastIndex annotationOpenedBracket p = -1 ∨
          lastIndex annotationOpenedBracket p < lastIndex annotationClosedBracket p := by omega
      simp [scanByte, BracketPhase.next, this, Ne.symm hne]
    | opened =>
      obtain ⟨hlen, hlt, -⟩ := hf
      have hsl := slice_of_le s (lastIndex annotationOpenedBracket p + 1) p.length
        (by omega) (by omega) (by omega)
      have h1 : (lastIndex annotationOpenedBracket p + 1).toNat
          = (lastIndex annotationOpenedBracket p).toNat + 1 := by omega
      have h2 : ((p.length : Int) - (lastIndex annotationOpenedBracket p + 1)).toNat
          = p.length - ((lastIndex annotationOpenedBracket p).toNat + 1) := by omega
      have h3 : ¬ lastIndex annotationOpenedBracket p = -1 := by omega
      have h4 : ¬ lastIndex annotationOpenedBracket p < lastIndex annotationClosedBracket p := by
        omega
      simp [scanByte, BracketPhase.next, Ne.symm hne, h3, h4, hsl, h1, h2,
        bracketTokens_concat_close hlen (by omega), between]
    | brokenByClose | brokenByOpen => rfl
  · cases ph <;> simp [scanByte, BracketPhase.next, ho, hc, bracketTokens_concat_of_ne ho hc]

/-- **The loop simulates the automaton** over every prefix `p` of the input `s`. -/
theorem foldlM_scanByte {s : List UInt8} (p q : List UInt8) (hs : p ++ q = s) :
    p.enum.foldlM (scanByte s) .init = scanResult s p := by
  induction p using List.reverseRecOn generalizing q with
  | nil => rfl
  | append_singleton p c ih =>
    rw [List.enum_append, List.enumFrom_singleton, List.foldlM_append,
      ih (c :: q) (by simpa using hs),
      ← @scanResult_concat s p q c (by simpa using hs)]
    simp

/-! ## The contract -/

/-- `SplitBracketParameter` is the automaton's verdict on its input. -/
theorem splitBracketParameter_eq (s : List UInt8) :
    splitBracketParameter s = match bracketPhase s with
      | .closed => .ok (bracketTokens s s, none)
      | .opened | .brokenByOpen => .ok ([], some (doubleOpen s))
      | .brokenByClose => .ok ([], some (noOpeningBracket s)) := by
  have hf := indexFacts s
  have hbo := lastIndex_bounds annotationOpenedBracket s
  have hbc := lastIndex_bounds annotationClosedBracket s
  unfold splitBracketParameter
  rw [foldlM_scanByte s [] (by simp)]
  unfold IndexFacts at hf
  unfold scanResult
  generalize bracketPhase s = ph at hf ⊢
  cases ph with
  | closed =>
    have : ¬ ((lastIndex annotationOpenedBracket s ≠ -1 ∧
        lastIndex annotationClosedBracket s = -1) ∨
        lastIndex annotationClosedBracket s < lastIndex annotationOpenedBracket s) := by omega
    simp [this]
  | opened => simp [hf.2.1]
  | brokenByClose => rfl
  | brokenByOpen => rfl

theorem between_append {p q : List UInt8} {i : Nat} (h : i < p.length) :
    between (p ++ q) i p.length = p.drop (i + 1) := by
  unfold between
  rw [List.drop_append_of_le_length (by omega), List.take_left' (by simp)]

/-- While the alternation holds, no content of a pair holds a bracket. -/
theorem bracketTokens_not_bracket {s : List UInt8} (p q : List UInt8) (hs : p ++ q = s)
    (hph : bracketPhase p = .closed ∨ bracketPhase p = .opened) :
    ∀ t ∈ bracketTokens s p, ∀ x ∈ t, isBracket x = false := by
  induction p using List.reverseRecOn generalizing q with
  | nil => simp [bracketTokens]
  | append_singleton p c ih =>
    have ih := ih (c :: q) (by simpa using hs)
    have hf := indexFacts p
    have hbc := lastIndex_bounds annotationClosedBracket p
    have hne := annotationOpenedBracket_ne_closed
    rw [bracketPhase_concat] at hph
    unfold IndexFacts at hf
    generalize bracketPhase p = ph at ih hf hph
    cases ph with
    | brokenByClose => simp [BracketPhase.next] at hph
    | brokenByOpen => simp [BracketPhase.next] at hph
    | closed =>
      by_cases ho : c = annotationOpenedBracket
      · subst ho; rw [bracketTokens_concat_open hf.1]; exact ih (.inl rfl)
      by_cases hc : c = annotationClosedBracket
      · subst hc; simp [BracketPhase.next, Ne.symm hne] at hph
      · rw [bracketTokens_concat_of_ne ho hc]; exact ih (.inl rfl)
    | opened =>
      by_cases ho : c = annotationOpenedBracket
      · subst ho; simp [BracketPhase.next] at hph
      by_cases hc : c = annotationClosedBracket
      · subst hc
        have hbo := lastIndex_bounds annotationOpenedBracket p
        have hlo : 0 ≤ lastIndex annotationOpenedBracket p := by omega
        have hb : between s (lastIndex annotationOpenedBracket p).toNat p.length
            = p.drop ((lastIndex annotationOpenedBracket p).toNat + 1) := by
          rw [← hs, List.append_assoc]; exact between_append (by omega)
        rw [bracketTokens_concat_close hf.1 hlo, hb]
        simp only [List.mem_append, List.mem_singleton]
        rintro t (ht | rfl)
        exacts [ih (.inr rfl) t ht, hf.2.2]
      · rw [bracketTokens_concat_of_ne ho hc]; exact ih (.inr rfl)

theorem count_pairs_opened (n : Nat) : (pairs n).count annotationOpenedBracket = n := by
  induction n with
  | zero => rfl
  | succ n ih => simp [pairs_succ, List.count_cons, ih, annotationOpenedBracket_ne_closed.symm]

theorem count_pairs_closed (n : Nat) : (pairs n).count annotationClosedBracket = n := by
  induction n with
  | zero => rfl
  | succ n ih => simp [pairs_succ, List.count_cons, ih, annotationOpenedBracket_ne_closed]

theorem length_positions_of_pairs {s : List UInt8} {n : Nat} (h : brackets s = pairs n) :
    (positions annotationOpenedBracket s).length = n ∧
    (positions annotationClosedBracket s).length = n := by
  have ho : (brackets s).count annotationOpenedBracket = s.count annotationOpenedBracket :=
    List.count_filter (by simp [isBracket])
  have hc : (brackets s).count annotationClosedBracket = s.count annotationClosedBracket :=
    List.count_filter (by simp [isBracket])
  simp only [length_positions, ← ho, ← hc, h, count_pairs_opened, count_pairs_closed, and_self]

theorem bracketPhase_of_brackets_eq {s l : List UInt8} (h : brackets s = l) :
    bracketPhase s = bracketPhase l := by
  rw [← bracketPhase_brackets, h]

/-- On input whose brackets are `pairs n`, the `n` contents of the pairs, none holding a
    bracket. -/
theorem splitBracketParameter_of_pairs {s : List UInt8} {n : Nat} (h : brackets s = pairs n) :
    splitBracketParameter s = .ok (bracketTokens s s, none) ∧
    (positions annotationOpenedBracket s).length = n ∧
    (positions annotationClosedBracket s).length = n ∧
    (bracketTokens s s).length = n ∧
    ∀ t ∈ bracketTokens s s, ∀ x ∈ t, isBracket x = false := by
  have hcl := (bracketPhase_of_brackets_eq h).trans (bracketPhase_pairs n)
  obtain ⟨ho, hc⟩ := length_positions_of_pairs h
  exact ⟨by rw [splitBracketParameter_eq, hcl], ho, hc, by simp [bracketTokens, ho, hc],
    bracketTokens_not_bracket s [] (by simp) (.inl hcl)⟩

theorem splitBracketParameter_ok_none_iff (s : List UInt8) :
    (∃ values, splitBracketParameter s = .ok (values, none)) ↔ bracketPhase s = .closed := by
  rw [splitBracketParameter_eq]
  cases bracketPhase s <;> simp

/-- **`SplitBracketParameter` meets its contract** on every byte string `s`. It never panics:
    every slice it takes is in range. It succeeds exactly when `brackets s` is `[ ]` repeated `n`
    times, and then returns `n` tokens, the `i`-th being the bytes strictly between the `i`-th `[`
    and the `i`-th `]`, none of them a bracket. Otherwise it returns no tokens and an error: "no opening
    bracket" when the first bracket that breaks the alternation is a `]`, "double open" when it is
    a `[` or when the last `[` is never closed. -/
theorem splitBracketParameter_spec (s : List UInt8) :
    (∃ r, splitBracketParameter s = .ok r) ∧
    ((∃ values, splitBracketParameter s = .ok (values, none)) ↔ ∃ n, brackets s = pairs n) ∧
    (∀ n, brackets s = pairs n →
      splitBracketParameter s = .ok (bracketTokens s s, none) ∧
      (positions annotationOpenedBracket s).length = n ∧
      (positions annotationClosedBracket s).length = n ∧
      (bracketTokens s s).length = n ∧
      ∀ t ∈ bracketTokens s s, ∀ x ∈ t, isBracket x = false) ∧
    (∀ n rest, brackets s = pairs n ++ annotationClosedBracket :: rest →
      splitBracketParameter s = .ok ([], some (noOpeningBracket s))) ∧
    (∀ n rest, brackets s = pairs n ++ annotationOpenedBracket :: annotationOpenedBracket :: rest →
      splitBracketParameter s = .ok ([], some (doubleOpen s))) ∧
    (∀ n, brackets s = pairs n ++ [annotationOpenedBracket] →
      splitBracketParameter s = .ok ([], some (doubleOpen s))) := by
  refine ⟨?_, (splitBracketParameter_ok_none_iff s).trans (bracketPhase_eq_closed_iff s),
    fun n h => splitBracketParameter_of_pairs h, fun n rest h => ?_, fun n rest h => ?_,
    fun n h => ?_⟩
  · rw [splitBracketParameter_eq]; cases bracketPhase s <;> exact ⟨_, rfl⟩
  · rw [splitBracketParameter_eq, bracketPhase_of_brackets_eq h, bracketPhase_pairs_close]
  · rw [splitBracketParameter_eq, bracketPhase_of_brackets_eq h, bracketPhase_pairs_open_open]
  · rw [splitBracketParameter_eq, bracketPhase_of_brackets_eq h, bracketPhase_pairs_opened]

/-! Two pairs, a `[` left open, and a `]` with no `[` before it. -/

example : splitBracketParameter (latin1 "[a][b]") = .ok ([latin1 "a", latin1 "b"], none) := by
  rfl

example : splitBracketParameter (latin1 "[a") = .ok ([], some (doubleOpen (latin1 "[a"))) := by
  rfl

example : splitBracketParameter (latin1 "a]") = .ok ([], some (noOpeningBracket (latin1 "a]"))) :=
  by rfl

end NeuronCore.Common
