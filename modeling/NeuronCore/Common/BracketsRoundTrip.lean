import NeuronCore.Common.BracketsProofs

set_option autoImplicit false

/-! # Bracketing tokens and splitting them again

The inverse of `SplitBracketParameter` on well formed input: writing tokens that hold no bracket
one after the other, each between a `[` and a `]` (`bracketJoin`), and splitting the result gives
the tokens back with no error (`splitBracketParameter_bracketJoin`).

The proof reads the joined text one pair at a time. Appending a pair `[t]` to a prefix with as
many `[` as `]` adds the one content `t` to the prefix's contents (`bracketTokens_append_pair`),
and the joined text is accepted because its brackets are `pairs n` (`brackets_bracketJoin`).

The other direction holds up to the bytes the splitter ignores. `pairedText s` keeps the brackets
of `s` and the bytes inside its pairs; on an accepted input, writing the tokens back gives
`pairedText s` (`bracketJoin_of_splitBracketParameter`). Its proof follows the loop over every
prefix, as `Common/BracketsProofs.lean` does, with the open pair's bytes as part of the state
(`PairedFacts`). -/

namespace NeuronCore.Common

/-- The tokens `ts` written as `[t₁][t₂]…[tₙ]`. -/
def bracketJoin (ts : List (List UInt8)) : List UInt8 :=
  (ts.map fun t => annotationOpenedBracket :: t ++ [annotationClosedBracket]).flatten

@[simp] theorem bracketJoin_nil : bracketJoin [] = [] := rfl

theorem bracketJoin_cons (t : List UInt8) (ts : List (List UInt8)) :
    bracketJoin (t :: ts)
      = annotationOpenedBracket :: t ++ annotationClosedBracket :: bracketJoin ts := by
  simp [bracketJoin]

theorem bracketJoin_concat (ts : List (List UInt8)) (t : List UInt8) :
    bracketJoin (ts ++ [t])
      = bracketJoin ts ++ annotationOpenedBracket :: t ++ [annotationClosedBracket] := by
  simp [bracketJoin]

/-! ## Bytes that are not brackets -/

section NoBrackets

variable {t : List UInt8} (ht : ∀ x ∈ t, isBracket x = false)
include ht

theorem filter_isBracket_eq_nil : t.filter isBracket = [] :=
  List.filter_eq_nil_iff.2 fun x hx => by simp [ht x hx]

theorem positions_append_of_not_bracket (b : UInt8) (hb : isBracket b) (p : List UInt8) :
    positions b (p ++ t) = positions b p := by
  induction t using List.reverseRecOn with
  | nil => simp
  | append_singleton t c ih =>
    have hc : c ≠ b := by
      rintro rfl
      simp [ht c (by simp)] at hb
    rw [← List.append_assoc, positions_concat_of_ne _ hc, ih fun x hx => ht x (by simp [hx])]

theorem bracketTokens_append_of_not_bracket (s p : List UInt8) :
    bracketTokens s (p ++ t) = bracketTokens s p := by
  rw [bracketTokens, bracketTokens, positions_append_of_not_bracket ht annotationOpenedBracket
    (by decide), positions_append_of_not_bracket ht annotationClosedBracket (by decide)]

end NoBrackets

/-! ## One pair at a time -/

/-- **One pair.** Appending `[t]` to a prefix with as many `[` as `]` adds one `[` and one `]`,
    and `t` as the last content. -/
theorem bracketTokens_append_pair {s p t rest : List UInt8}
    (hlen : (positions annotationOpenedBracket p).length
      = (positions annotationClosedBracket p).length)
    (ht : ∀ x ∈ t, isBracket x = false)
    (hs : p ++ annotationOpenedBracket :: t ++ annotationClosedBracket :: rest = s) :
    bracketTokens s (p ++ annotationOpenedBracket :: t ++ [annotationClosedBracket])
      = bracketTokens s p ++ [t] := by
  have hne := annotationOpenedBracket_ne_closed
  have hpo : positions annotationOpenedBracket (p ++ [annotationOpenedBracket] ++ t)
      = positions annotationOpenedBracket p ++ [p.length] := by
    rw [positions_append_of_not_bracket ht _ (by decide), positions_concat_self]
  have hpc : positions annotationClosedBracket (p ++ [annotationOpenedBracket] ++ t)
      = positions annotationClosedBracket p := by
    rw [positions_append_of_not_bracket ht _ (by decide), positions_concat_of_ne _ hne]
  have hlo :
      lastIndex annotationOpenedBracket (p ++ [annotationOpenedBracket] ++ t) = p.length := by
    simp only [lastIndex, hpo, List.getLast?_concat, Option.map_some', Option.getD_some]
  have hbetween : between s p.length (p ++ [annotationOpenedBracket] ++ t).length = t := by
    rw [between, ← hs, List.length_append, List.length_append, List.length_singleton,
      show p.length + 1 + t.length - (p.length + 1) = t.length by omega]
    simp
  rw [show p ++ annotationOpenedBracket :: t ++ [annotationClosedBracket]
      = p ++ [annotationOpenedBracket] ++ t ++ [annotationClosedBracket] by simp,
    bracketTokens_concat_close (by rw [hpo, hpc, List.length_append, hlen]; rfl) (by omega), hlo,
    bracketTokens_append_of_not_bracket ht, bracketTokens_concat_open hlen]
  simpa using hbetween

theorem brackets_bracketJoin (ts : List (List UInt8)) (h : ∀ t ∈ ts, ∀ x ∈ t, isBracket x = false) :
    brackets (bracketJoin ts) = pairs ts.length := by
  induction ts with
  | nil => rfl
  | cons t ts ih =>
    have ht := filter_isBracket_eq_nil (h t (List.mem_cons_self _ _))
    simp [brackets, bracketJoin_cons, List.filter_append, ht, pairs_succ, isBracket,
      ← ih fun t' h' => h t' (List.mem_cons_of_mem _ h')]

/-- **The pairs of a joined text.** Read in any text that starts with it, the contents of the
    pairs of `bracketJoin ts` are `ts`. -/
theorem bracketTokens_bracketJoin (ts : List (List UInt8))
    (h : ∀ t ∈ ts, ∀ x ∈ t, isBracket x = false) {s rest : List UInt8}
    (hs : bracketJoin ts ++ rest = s) : bracketTokens s (bracketJoin ts) = ts := by
  induction ts using List.reverseRecOn generalizing rest with
  | nil => simp [bracketTokens]
  | append_singleton ts t ih =>
    have h' : ∀ t' ∈ ts, ∀ x ∈ t', isBracket x = false := fun t' ht' => h t' (by simp [ht'])
    have hlen := length_positions_of_pairs (brackets_bracketJoin ts h')
    rw [bracketJoin_concat] at hs ⊢
    have hs' : bracketJoin ts ++ (annotationOpenedBracket :: t ++ annotationClosedBracket :: rest)
        = s := by rw [← hs]; simp
    rw [bracketTokens_append_pair (hlen.1.trans hlen.2.symm) (h t (by simp)) (by simpa using hs),
      ih h' hs']

/-- **Round trip.** Splitting `[t₁][t₂]…[tₙ]`, tokens that hold no bracket, gives the tokens back
    with no error. -/
theorem splitBracketParameter_bracketJoin (ts : List (List UInt8))
    (h : ∀ t ∈ ts, ∀ x ∈ t, isBracket x = false) :
    splitBracketParameter (bracketJoin ts) = .ok (ts, none) := by
  rw [(splitBracketParameter_of_pairs (brackets_bracketJoin ts h)).1,
    bracketTokens_bracketJoin ts h (List.append_nil _)]

/-- The round trip on the tokens `a` and `bc`. -/
theorem splitBracketParameter_bracketJoin_a_bc :
    (∀ t ∈ [latin1 "a", latin1 "bc"], ∀ x ∈ t, isBracket x = false) ∧
    splitBracketParameter (bracketJoin [latin1 "a", latin1 "bc"])
      = .ok ([latin1 "a", latin1 "bc"], none) :=
  ⟨by decide, splitBracketParameter_bracketJoin _ (by decide)⟩

/-! ## The bytes the splitter reads -/

/-- The bytes of the rest of an input that the splitter reads, from the automaton's state `ph`:
    every bracket, and every byte read while a pair is open. -/
def pairedTextFrom : BracketPhase → List UInt8 → List UInt8
  | _, [] => []
  | ph, c :: s =>
    (if isBracket c || ph == .opened then [c] else []) ++ pairedTextFrom (ph.next c) s

/-- The input with the bytes outside every pair dropped. -/
def pairedText (s : List UInt8) : List UInt8 := pairedTextFrom .closed s

theorem pairedTextFrom_concat (ph : BracketPhase) (p : List UInt8) (c : UInt8) :
    pairedTextFrom ph (p ++ [c]) = pairedTextFrom ph p ++
      if isBracket c || p.foldl BracketPhase.next ph == .opened then [c] else [] := by
  induction p generalizing ph with
  | nil => simp [pairedTextFrom]
  | cons d p ih => simp [pairedTextFrom, ih]

theorem pairedText_concat (p : List UInt8) (c : UInt8) :
    pairedText (p ++ [c]) = pairedText p ++
      if isBracket c || bracketPhase p == .opened then [c] else [] :=
  pairedTextFrom_concat .closed p c

/-- What the contents of the pairs of a prefix `p` of `s` say about `pairedText p`: it is their
    bracketed form, followed, while a pair is open, by its `[` and the bytes read since. -/
def PairedFacts (s p : List UInt8) : Prop :=
  match bracketPhase p with
  | .closed => bracketJoin (bracketTokens s p) = pairedText p
  | .opened => bracketJoin (bracketTokens s p) ++
      annotationOpenedBracket :: p.drop ((lastIndex annotationOpenedBracket p).toNat + 1)
      = pairedText p
  | _ => True

/-- **The loop's contents track the text it reads**, over every prefix of the input. -/
theorem pairedFacts {s : List UInt8} (p q : List UInt8) (hs : p ++ q = s) : PairedFacts s p := by
  induction p using List.reverseRecOn generalizing q with
  | nil => simp [PairedFacts, bracketTokens, pairedText, pairedTextFrom]
  | append_singleton p c ih =>
    have ih := ih (c :: q) (by simpa using hs)
    have hf := indexFacts p
    have hbo := lastIndex_bounds annotationOpenedBracket p
    have hbc := lastIndex_bounds annotationClosedBracket p
    have hne := annotationOpenedBracket_ne_closed
    unfold PairedFacts at ih ⊢
    unfold IndexFacts at hf
    rw [bracketPhase_concat, pairedText_concat]
    generalize bracketPhase p = ph at ih hf
    by_cases ho : c = annotationOpenedBracket
    · subst ho
      cases ph with
      | closed =>
        simp [BracketPhase.next, bracketTokens_concat_open hf.1, ih, isBracket]
      | opened | brokenByClose | brokenByOpen => simp [BracketPhase.next]
    by_cases hc : c = annotationClosedBracket
    · subst hc
      cases ph with
      | opened =>
        obtain ⟨hlen, hlt, -⟩ := hf
        have hlo : 0 ≤ lastIndex annotationOpenedBracket p := by omega
        have hb : between s (lastIndex annotationOpenedBracket p).toNat p.length
            = p.drop ((lastIndex annotationOpenedBracket p).toNat + 1) := by
          rw [← hs, List.append_assoc]; exact between_append (by omega)
        simp [BracketPhase.next, Ne.symm hne, bracketTokens_concat_close hlen hlo, hb,
          bracketJoin_concat, ← ih, isBracket]
      | closed | brokenByClose | brokenByOpen => simp [BracketPhase.next, Ne.symm hne]
    · have hnb : isBracket c = false := isBracket_eq_false ho hc
      rw [bracketTokens_concat_of_ne ho hc]
      cases ph with
      | closed => simp [BracketPhase.next, ho, hc, hnb, ih]
      | opened =>
        obtain ⟨-, hlt, -⟩ := hf
        have hle : (lastIndex annotationOpenedBracket p).toNat + 1 ≤ p.length := by omega
        simp [BracketPhase.next, ho, hc, hnb, lastIndex_concat_of_ne _ ho, ← ih,
          List.drop_append_of_le_length hle]
      | brokenByClose | brokenByOpen => simp [BracketPhase.next, ho, hc]

/-- **Canonical form.** When `SplitBracketParameter` accepts an input, writing its tokens back
    in brackets gives the input with the bytes outside every pair dropped, and splitting that text
    gives the same tokens: the splitter ignores exactly those bytes. -/
theorem bracketJoin_of_splitBracketParameter {s : List UInt8} {ts : List (List UInt8)}
    (h : splitBracketParameter s = .ok (ts, none)) :
    bracketJoin ts = pairedText s ∧ splitBracketParameter (pairedText s) = .ok (ts, none) := by
  have hcl : bracketPhase s = .closed := (splitBracketParameter_ok_none_iff s).1 ⟨ts, h⟩
  have hts : bracketTokens s s = ts := by
    rw [splitBracketParameter_eq, hcl] at h
    simpa using h
  have hjoin : bracketJoin ts = pairedText s := by
    have hf := pairedFacts s [] (List.append_nil s)
    unfold PairedFacts at hf
    rwa [hcl, hts] at hf
  have hnb : ∀ t ∈ ts, ∀ x ∈ t, isBracket x = false :=
    hts ▸ bracketTokens_not_bracket s [] (by simp) (.inl hcl)
  refine ⟨hjoin, ?_⟩
  rw [← hjoin, (splitBracketParameter_of_pairs (brackets_bracketJoin ts hnb)).1,
    bracketTokens_bracketJoin ts hnb (List.append_nil _)]

/-- The canonical form of `x[a]y[bc]z`. -/
theorem bracketJoin_of_splitBracketParameter_text :
    splitBracketParameter (latin1 "x[a]y[bc]z") = .ok ([latin1 "a", latin1 "bc"], none) ∧
    bracketJoin [latin1 "a", latin1 "bc"] = pairedText (latin1 "x[a]y[bc]z") ∧
    splitBracketParameter (pairedText (latin1 "x[a]y[bc]z"))
      = .ok ([latin1 "a", latin1 "bc"], none) :=
  have h : splitBracketParameter (latin1 "x[a]y[bc]z") = .ok ([latin1 "a", latin1 "bc"], none) :=
    rfl
  ⟨h, bracketJoin_of_splitBracketParameter h⟩
end NeuronCore.Common
