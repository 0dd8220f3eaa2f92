import Mathlib.Logic.Function.Basic
import Mathlib.Tactic.SplitIfs
import NeuronCore.Runtime

set_option autoImplicit false

/-! # `query.Pagination.FormatQuery`

A pagination is one of two strategies, limit and offset or page number and size.
`FormatQuery` renders it into a query (`url.Values`): it takes the query it is given, or an empty
one, and `Set`s each non-zero value of the pagination's own strategy under its page key. It
removes nothing, so a page key already in the query survives whenever the pagination leaves it
unset: a zero value, or a key of the other strategy (`formatQuery_entries`). -/

namespace NeuronCore.Query

/-- `url.Values`: a map from query keys to their lists of values. -/
@[ext] structure Values where
  entries : String → Option (List String)

/-- `url.Values{}`; a `nil` map reads the same. -/
def Values.empty : Values := ⟨fun _ => none⟩

/-- `query.Set(key, value)`: the key's values become `[value]`. -/
def Values.set (query : Values) (key value : String) : Values :=
  ⟨Function.update query.entries key (some [value])⟩

/-- Modelled from the spec: `paginations.Pagination`, whose declaration is not under `src/`. It
    holds exactly one strategy, each with its two integers; `Type()`, `GetLimitOffset()` and
    `GetNumberSize()` read the constructor and its fields. -/
inductive Pagination where
  | limitOffset (limit offset : Int)
  | paged (number size : Int)
deriving DecidableEq, Repr

/-- Modelled from the spec: `internal.QueryParamPageLimit`. -/
def queryParamPageLimit : String := "page[limit]"

/-- Modelled from the spec: `internal.QueryParamPageOffset`. -/
def queryParamPageOffset : String := "page[offset]"

/-- Modelled from the spec: `internal.QueryParamPageNumber`. -/
def queryParamPageNumber : String := "page[number]"

/-- Modelled from the spec: `internal.QueryParamPageSize`. -/
def queryParamPageSize : String := "page[size]"

/-- One `if v != 0 { query.Set(k, strconv.Itoa(v)) }` of `FormatQuery`. -/
def Values.setNonZero (query : Values) (k : String) (v : Int) : Values :=
  if v ≠ 0 then query.set k (toString v) else query

/-- `p.FormatQuery(q...)`: the first query given, or an empty one, with the pagination's
    non-zero values set. When `q[0]` is a non-`nil` map the source writes into it and returns it;
    the model returns the map as written. The `default` branch, for a type that is neither
    strategy, has no counterpart: a `Pagination` holds one of the two. -/
def Pagination.formatQuery (p : Pagination) (q : List Values) : Values :=
  let query := q.head?.getD .empty
  match p with
  | .limitOffset limit offset =>
    (query.setNonZero queryParamPageLimit limit).setNonZero queryParamPageOffset offset
  | .paged number size =>
    (query.setNonZero queryParamPageNumber number).setNonZero queryParamPageSize size

/-! ## What the rendered query holds -/

/-- The value `p` renders under `key`: a non-zero value of `p`'s own strategy, in decimal. -/
def Pagination.pageEntry (p : Pagination) (key : String) : Option String :=
  match p with
  | .limitOffset limit offset =>
    if key = queryParamPageOffset ∧ offset ≠ 0 then some (toString offset)
    else if key = queryParamPageLimit ∧ limit ≠ 0 then some (toString limit) else none
  | .paged number size =>
    if key = queryParamPageSize ∧ size ≠ 0 then some (toString size)
    else if key = queryParamPageNumber ∧ number ≠ 0 then some (toString number) else none

theorem Values.setNonZero_entries (query : Values) (k : String) (v : Int) (key : String) :
    (query.setNonZero k v).entries key
      = if key = k ∧ v ≠ 0 then some [toString v] else query.entries key := by
  unfold Values.setNonZero Values.set
  by_cases hv : v = 0 <;> by_cases hk : key = k <;> simp [hv, hk]

/-- **`FormatQuery` only sets.** Under every key the rendered query holds `p`'s value if `p`
    renders one there, and otherwise what the given query (or the empty one) held. -/
theorem formatQuery_entries (p : Pagination) (q : List Values) (key : String) :
    (p.formatQuery q).entries key = match p.pageEntry key with
      | some v => some [v]
      | none => (q.head?.getD .empty).entries key := by
  cases p <;>
    simp only [Pagination.formatQuery, Pagination.pageEntry, Values.setNonZero_entries] <;>
    split_ifs <;> rfl

/-- **`FormatQuery` renders `p` over the given query.** With a query `q`, each page key under which
    `p` has a non-zero value of its own strategy holds that value in decimal, as its only value;
    every other key, including the other strategy's page keys and the keys whose value in `p` is
    zero, holds what `q` held. Without a query the rendering starts from an empty one. -/
theorem formatQuery_spec (p : Pagination) (q : Values) (key : String) :
    (p.formatQuery [q]).entries key = (match p.pageEntry key with
      | some v => some [v]
      | none => q.entries key) ∧
    (p.formatQuery []).entries key = (p.pageEntry key).map fun v => [v] := by
  refine ⟨formatQuery_entries p [q] key, ?_⟩
  rw [formatQuery_entries]
  cases p.pageEntry key <;> rfl

/-- **Rendering twice is rendering once.** Rendering `p` into a query it has already rendered
    changes nothing. -/
theorem formatQuery_idempotent (p : Pagination) (q : List Values) :
    p.formatQuery [p.formatQuery q] = p.formatQuery q := by
  ext key : 2
  rw [formatQuery_entries p [p.formatQuery q]]
  cases h : p.pageEntry key with
  | none => rfl
  | some v => rw [formatQuery_entries, h]

/-- The four page keys. -/
def pageKeys : List String :=
  [queryParamPageLimit, queryParamPageOffset, queryParamPageNumber, queryParamPageSize]

/-- The law of a rendering that replaces the page of `q`: the output is `q` with its four page
    keys removed, plus the non-zero values of `p`'s own strategy. `FormatQuery` does not meet it:
    it never removes a key. -/
def FormatQueryLaw (p : Pagination) (q out : Values) : Prop :=
  ∀ key, out.entries key = match p.pageEntry key with
    | some v => some [v]
    | none => if key ∈ pageKeys then none else q.entries key

/-- A stale `page[offset]` survives a limit/offset pagination whose offset is 0, against the law. -/
theorem formatQuery_keeps_stale_offset :
    ¬ FormatQueryLaw (.limitOffset 10 0) ⟨fun k => if k = "page[offset]" then some ["5"] else none⟩
      ((Pagination.limitOffset 10 0).formatQuery
        [⟨fun k => if k = "page[offset]" then some ["5"] else none⟩]) := by
  intro h
  have := h queryParamPageOffset
  rw [formatQuery_entries] at this
  revert this
  decide

end NeuronCore.Query
