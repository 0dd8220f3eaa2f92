import NeuronCore.Runtime

set_option autoImplicit false

/-! # `common.SplitBracketParameter`

`SplitBracketParameter` lexes a `key[a][b]...` string into the contents of its bracket pairs. It
scans the bytes left to right and keeps the index of the last `[` (`startIndex`) and of the last
`]` (`endIndex`), both `-1` until one is seen. A `[` while another one is still open, or a `]`
with no newer `[`, ends the scan with an error; any other `]` appends the bytes between the two
indexes. A `[` left open at the end is reported as a double open bracket.

The `for i := 0; i < len(bracketed); i++` loop is `List.foldlM` over the indexed bytes in
`Except`, where the exception is how the loop stops early (`BracketExit`): a `return nil, err`,
or the runtime panic of a slice out of range. Every slice the code takes is in range
(`splitBracketParameter_spec`), so the panic never happens; it is modelled so that this is a
theorem and not an assumption. -/

namespace NeuronCore.Common

/-- Modelled from the spec: `AnnotationOpenedBracket`, the `[` byte (its declaration is not under
    `src/`). -/
def annotationOpenedBracket : UInt8 := 91

/-- Modelled from the spec: `AnnotationClosedBracket`, the `]` byte. -/
def annotationClosedBracket : UInt8 := 93

/-- The error of the `doubleOpen` closure: an open `[` met another `[`, or the end of the input. -/
def doubleOpen (bracketed : List UInt8) : Error :=
  { errorClass := "CommonParseBrackets"
    message := "double open square brackets"
    detail := latin1 "open square bracket '[' found, without closing ']' in: '" ++ bracketed
      ++ latin1 "'" }

/-- The error of a `]` with no `[` after the previous `]`. -/
def noOpeningBracket (bracketed : List UInt8) : Error :=
  { errorClass := "CommonParseBrackets"
    message := "no opening bracket found"
    detail := latin1 "close square bracket ']' found, without opening '[' in '" ++ bracketed
      ++ latin1 "'" }

/-- The loop variables of `SplitBracketParameter`. -/
structure BracketScan where
  startIndex : Int
  endIndex : Int
  values : List (List UInt8)
deriving DecidableEq, Repr

/-- `startIndex := -1`, `endIndex := -1`, no values. -/
def BracketScan.init : BracketScan := ⟨-1, -1, []⟩

/-- How the loop stops before its end. -/
inductive BracketExit where
  | fail (err : Error)
  | panic (p : Panic)
deriving DecidableEq, Repr

/-- One iteration of the loop: the byte `c` at index `i` (the `switch c` of the source). -/
def scanByte (bracketed : List UInt8) (st : BracketScan) :
    Nat × UInt8 → Except BracketExit BracketScan
  | (i, c) =>
    if c = annotationOpenedBracket then
      if st.startIndex > st.endIndex then .error (.fail (doubleOpen bracketed))
      else .ok { st with startIndex := i }
    else if c = annotationClosedBracket then
      if st.startIndex = -1 ∨ st.startIndex < st.endIndex then
        .error (.fail (noOpeningBracket bracketed))
      else
        match slice bracketed (st.startIndex + 1) i with
        | .ok v => .ok { st with endIndex := i, values := st.values ++ [v] }
        | .error p => .error (.panic p)
    else .ok st

/-- `SplitBracketParameter(bracketed)`: the Go pair `(values, err)`, or a runtime panic. -/
def splitBracketParameter (bracketed : List UInt8) :
    Except Panic (List (List UInt8) × Option Error) :=
  match bracketed.enum.foldlM (scanByte bracketed) .init with
  | .error (.panic p) => .error p
  | .error (.fail err) => .ok ([], some err)
  | .ok st =>
    if (st.startIndex ≠ -1 ∧ st.endIndex = -1) ∨ st.startIndex > st.endIndex then
      .ok ([], some (doubleOpen bracketed))
    else .ok (st.values, none)

end NeuronCore.Common
