/-
# `BackupCli.Conn.Stores` — `GetAllTiKVStores`

`GetAllTiKVStores(ctx, pdClient, storeBehavior)` (`pkg/rtree/logging.go`, lines 120–169): the
stores PD lists, filtered in place by the `StoreBehavior` — skip the TiFlash stores, keep only
them, or fail on the first one.

The filter is a compaction of the slice itself: `for _, store := range stores` reads
`stores[i]` from the slice as it is at that turn, and a kept store is written back at
`stores[j]`.  The model keeps that slice and both indices (`CompactState`), one `step` a
turn and `len(stores)` turns, so that it could see a write that clobbers a store before it
is read.  `version.IsTiFlash` is not in the sources and is a parameter.

## What is proved

* `CompactState.Layout` — midway, the slice is the stores kept so far, some stale entries,
  then the stores not visited yet exactly as PD returned them.  `step_layout` keeps it, and
  `run_layout` gives the outcome of the whole loop from it.
* `getAllTiKVStores_compacts` — the result is the error on the first TiFlash store under
  `ErrorOnTiFlash`, and otherwise the stores `selectStores` keeps, in PD's order; and at
  every turn the stores not visited yet are the ones PD returned.
-/
import Mathlib.Data.List.Basic

namespace BackupCli

/-- A `metapb.Store`, by what is read of it: the id and address the error names, and the
labels `version.IsTiFlash` looks at. -/
structure Store where
  id : Nat
  address : String
  labels : List (String × String)
deriving DecidableEq, Repr

/-- `StoreBehavior`, a `uint8`. -/
abbrev StoreBehavior := UInt8

/-- `ErrorOnTiFlash StoreBehavior = 0`. -/
def StoreBehavior.errorOnTiFlash : StoreBehavior := 0

/-- `SkipTiFlash StoreBehavior = 1`. -/
def StoreBehavior.skipTiFlash : StoreBehavior := 1

/-- `TiFlashOnly StoreBehavior = 2`. -/
def StoreBehavior.tiFlashOnly : StoreBehavior := 2

/-- An error of `GetAllTiKVStores`: PD's own, passed on by `errors.Trace`, or
`berrors.ErrPDInvalidResponse` annotated with a message. -/
inductive StoresError
  | pd (err : String)
  | invalidResponse (msg : String)
deriving DecidableEq, Repr

/-- The annotation of the error on a TiFlash store under `ErrorOnTiFlash`. -/
def tiFlashMessage (store : Store) : String :=
  "cannot restore to a cluster with active TiFlash stores (store " ++ toString store.id ++
    " at " ++ store.address ++ ")"

/-- The loop of `GetAllTiKVStores`: the slice, the range position `i`, and the count `j` of
stores kept so far. -/
structure CompactState where
  stores : List Store
  i : Nat
  j : Nat

section GetAllTiKVStores
variable (isTiFlash : Store → Bool) (behavior : StoreBehavior)

/-! ## The code -/

/-- The body of the loop for one store: whether it is kept (`stores[j] = store`) or skipped
(`continue`), or the error that ends the call.  A TiFlash store that reaches the second test
has `isTiFlash = true` and is kept. -/
def keepStore (store : Store) : Except StoresError Bool :=
  if isTiFlash store then
    if behavior = StoreBehavior.skipTiFlash then .ok false
    else if behavior = StoreBehavior.errorOnTiFlash then
      .error (.invalidResponse (tiFlashMessage store))
    else .ok true
  else if behavior = StoreBehavior.tiFlashOnly then .ok false
  else .ok true

/-- One turn of the range loop: read `stores[i]` from the slice as it is now, then keep it at
`stores[j]` or skip it.  Past the end there is nothing to read (the loop never gets there). -/
def CompactState.step (c : CompactState) : Except StoresError CompactState :=
  match c.stores[c.i]? with
  | none => .ok c
  | some store => do
    if ← keepStore isTiFlash behavior store then pure ⟨c.stores.set c.j store, c.i + 1, c.j + 1⟩
    else pure ⟨c.stores, c.i + 1, c.j⟩

/-- `k` turns of the loop, stopping at the first error. -/
def CompactState.run : Nat → CompactState → Except StoresError CompactState
  | 0, c => .ok c
  | k + 1, c =>
    match c.step isTiFlash behavior with
    | .ok c' => run k c'
    | .error err => .error err

/-- `GetAllTiKVStores`, given what `pdClient.GetAllStores` answered: `len(stores)` turns from
`j = 0`, then `stores[:j]`. -/
def getAllTiKVStores (getAllStores : Except String (List Store)) :
    Except StoresError (List Store) :=
  match getAllStores with
  | .error err => .error (.pd err)
  | .ok stores => do
    let c ← CompactState.run isTiFlash behavior stores.length ⟨stores, 0, 0⟩
    pure (c.stores.take c.j)

/-! ## What it is for -/

/-- The stores each behaviour keeps: the TiKV ones under `SkipTiFlash`, the TiFlash ones under
`TiFlashOnly`, and every store under any other value. -/
def selectStores (store : Store) : Bool :=
  if behavior = StoreBehavior.skipTiFlash then !isTiFlash store
  else if behavior = StoreBehavior.tiFlashOnly then isTiFlash store
  else true

/-- The store the call fails on: under `ErrorOnTiFlash`, the first TiFlash store. -/
def rejectedStore (stores : List Store) : Option Store :=
  if behavior = StoreBehavior.errorOnTiFlash then stores.find? isTiFlash else none

theorem rejectedStore_isSome_iff (stores : List Store) :
    (rejectedStore isTiFlash behavior stores).isSome ↔
      behavior = StoreBehavior.errorOnTiFlash ∧ ∃ s ∈ stores, isTiFlash s := by
  unfold rejectedStore
  split_ifs with h <;> simp [h, List.find?_isSome]

theorem rejectedStore_cons (s : Store) (rest : List Store) :
    rejectedStore isTiFlash behavior (s :: rest) =
      if behavior = StoreBehavior.errorOnTiFlash ∧ isTiFlash s then some s
      else rejectedStore isTiFlash behavior rest := by
  unfold rejectedStore
  by_cases hb : behavior = StoreBehavior.errorOnTiFlash <;> by_cases hs : isTiFlash s <;>
    simp [hb, hs]

@[simp] theorem rejectedStore_nil : rejectedStore isTiFlash behavior [] = none := by
  simp [rejectedStore]

/-! ## The slice midway -/

/-- The slice after the stores `visited`, with `rest` still to come: the kept ones
(`stores[:j]`), `i - j` stale entries, then `rest` as PD returned it. -/
def CompactState.Layout (visited rest : List Store) (c : CompactState) : Prop :=
  visited.length = c.i ∧ (visited.filter (selectStores isTiFlash behavior)).length = c.j ∧
    ∃ stale : List Store, c.j + stale.length = c.i ∧
      c.stores = visited.filter (selectStores isTiFlash behavior) ++ (stale ++ rest)

variable {isTiFlash behavior}

/-! ## One store -/

theorem keepStore_rejected {s : Store} (hb : behavior = StoreBehavior.errorOnTiFlash)
    (hs : isTiFlash s) :
    keepStore isTiFlash behavior s = .error (.invalidResponse (tiFlashMessage s)) := by
  have h10 : StoreBehavior.errorOnTiFlash ≠ StoreBehavior.skipTiFlash := by decide
  simp only [keepStore, hs, hb, if_neg h10, ↓reduceIte]

theorem keepStore_ok {s : Store} (h : ¬(behavior = StoreBehavior.errorOnTiFlash ∧ isTiFlash s)) :
    keepStore isTiFlash behavior s = .ok (selectStores isTiFlash behavior s) := by
  unfold keepStore selectStores
  by_cases hs : isTiFlash s
  · simp only [hs, if_neg fun hb => h ⟨hb, hs⟩, ↓reduceIte, Bool.not_true]
    split_ifs <;> rfl
  · have h21 : StoreBehavior.tiFlashOnly ≠ StoreBehavior.skipTiFlash := by decide
    simp only [hs, ↓reduceIte, Bool.not_false, Bool.false_eq_true]
    split_ifs with h2 h1 <;> first | rfl | exact absurd (h2.symm.trans h1) h21

/-! ## The slice, turn by turn -/

theorem CompactState.Layout.read {visited rest : List Store} {s : Store} {c : CompactState}
    (h : c.Layout isTiFlash behavior visited (s :: rest)) : c.stores[c.i]? = some s := by
  obtain ⟨-, hj, stale, hi, hc⟩ := h
  rw [hc, List.getElem?_append_right (by omega), List.getElem?_append_right (by omega),
    show c.i - _ - stale.length = 0 by omega, List.getElem?_cons_zero]

theorem CompactState.Layout.read_end {visited : List Store} {c : CompactState}
    (h : c.Layout isTiFlash behavior visited []) : c.stores[c.i]? = none := by
  obtain ⟨-, hj, stale, hi, hc⟩ := h
  exact List.getElem?_eq_none (by simp [hc]; omega)

theorem CompactState.Layout.drop {visited rest : List Store} {c : CompactState}
    (h : c.Layout isTiFlash behavior visited rest) : c.stores.drop c.i = rest := by
  obtain ⟨-, hj, stale, hi, hc⟩ := h
  rw [hc, ← List.append_assoc]
  exact List.drop_left' (by simp; omega)

theorem CompactState.Layout.take {visited : List Store} {c : CompactState}
    (h : c.Layout isTiFlash behavior visited []) :
    c.stores.take c.j = visited.filter (selectStores isTiFlash behavior) := by
  obtain ⟨-, hj, stale, -, hc⟩ := h
  rw [hc]
  exact List.take_left' hj

/-! ## One turn, and the loop -/

theorem step_rejected {visited rest : List Store} {s : Store} {c : CompactState}
    (h : c.Layout isTiFlash behavior visited (s :: rest))
    (hb : behavior = StoreBehavior.errorOnTiFlash) (hs : isTiFlash s) :
    c.step isTiFlash behavior = .error (.invalidResponse (tiFlashMessage s)) := by
  simp only [CompactState.step, h.read, keepStore_rejected hb hs]
  rfl

/-- A turn that does not fail keeps the layout: the store written at `j` lands on a kept or
stale entry, never on one still to be read. -/
theorem step_layout {visited rest : List Store} {s : Store} {c : CompactState}
    (h : c.Layout isTiFlash behavior visited (s :: rest))
    (hs : ¬(behavior = StoreBehavior.errorOnTiFlash ∧ isTiFlash s)) :
    ∃ c', c.step isTiFlash behavior = .ok c' ∧
      c'.Layout isTiFlash behavior (visited ++ [s]) rest := by
  have hread := h.read
  obtain ⟨hv, hj, stale, hi, hc⟩ := h
  simp only [CompactState.step, hread, keepStore_ok hs]
  cases hsel : selectStores isTiFlash behavior s
  · refine ⟨_, rfl, by simp [hv], by simp [hsel, hj], stale ++ [s], by simp; omega, ?_⟩
    simp [hc, hsel]
  · refine ⟨_, rfl, by simp [hv], by simp [hsel, hj], (stale ++ [s]).tail, ?_, ?_⟩
    · cases stale <;> simp at hi ⊢ <;> omega
    · rw [hc, List.set_append_right _ _ (by omega), show c.j - _ = 0 by omega]
      cases stale <;> simp [hsel]

theorem run_layout : ∀ (rest visited : List Store) (c : CompactState),
    c.Layout isTiFlash behavior visited rest →
    match rejectedStore isTiFlash behavior rest with
    | some s => c.run isTiFlash behavior rest.length = .error (.invalidResponse (tiFlashMessage s))
    | none => ∃ c', c.run isTiFlash behavior rest.length = .ok c' ∧
        c'.Layout isTiFlash behavior (visited ++ rest) []
  | [], visited, c, h => by
    simp only [rejectedStore_nil]
    exact ⟨c, rfl, by simpa using h⟩
  | s :: rest, visited, c, h => by
    rw [rejectedStore_cons]
    by_cases hs : behavior = StoreBehavior.errorOnTiFlash ∧ isTiFlash s
    · simp only [if_pos hs, List.length_cons, CompactState.run, step_rejected h hs.1 hs.2]
    · obtain ⟨c', hstep, h'⟩ := step_layout h hs
      have ih := run_layout rest (visited ++ [s]) c' h'
      simp only [List.append_assoc, List.singleton_append] at ih
      simpa only [if_neg hs, List.length_cons, CompactState.run, hstep] using ih

theorem run_keeps_layout : ∀ (k : Nat) (visited rest : List Store) (c c' : CompactState),
    c.Layout isTiFlash behavior visited rest → c.run isTiFlash behavior k = .ok c' →
    ∃ v r, visited ++ rest = v ++ r ∧ c'.Layout isTiFlash behavior v r
  | 0, visited, rest, c, c', h, hrun => ⟨visited, rest, rfl, by cases hrun; exact h⟩
  | k + 1, visited, [], c, c', h, hrun => by
    have hstep : c.step isTiFlash behavior = .ok c := by simp only [CompactState.step, h.read_end]
    simp only [CompactState.run, hstep] at hrun
    exact run_keeps_layout k visited [] c c' h hrun
  | k + 1, visited, s :: rest, c, c', h, hrun => by
    by_cases hs : behavior = StoreBehavior.errorOnTiFlash ∧ isTiFlash s
    · simp only [CompactState.run, step_rejected h hs.1 hs.2] at hrun
      cases hrun
    · obtain ⟨c'', hstep, h'⟩ := step_layout h hs
      simp only [CompactState.run, hstep] at hrun
      obtain ⟨v, r, hvr, hc'⟩ := run_keeps_layout k _ _ c'' c' h' hrun
      exact ⟨v, r, by simpa using hvr, hc'⟩

/-- `GetAllTiKVStores` on the stores PD returned: the error on the first TiFlash store under
`ErrorOnTiFlash`, and otherwise the stores `selectStores` keeps, in PD's order, none lost or
repeated; and at every turn of the compaction the stores not visited yet are still the ones
PD returned. -/
theorem getAllTiKVStores_compacts (stores : List Store) :
    getAllTiKVStores isTiFlash behavior (.ok stores) =
      (match rejectedStore isTiFlash behavior stores with
        | some store => .error (.invalidResponse (tiFlashMessage store))
        | none => .ok (stores.filter (selectStores isTiFlash behavior))) ∧
    ∀ k c, CompactState.run isTiFlash behavior k ⟨stores, 0, 0⟩ = .ok c →
      c.stores.drop c.i = stores.drop c.i := by
  have h0 : CompactState.Layout isTiFlash behavior [] stores ⟨stores, 0, 0⟩ :=
    ⟨rfl, rfl, [], rfl, rfl⟩
  refine ⟨?_, fun k c hrun => ?_⟩
  · have hrun := run_layout stores [] _ h0
    simp only [getAllTiKVStores]
    cases hrej : rejectedStore isTiFlash behavior stores with
    | some s => simp only [hrej] at hrun; rw [hrun]; rfl
    | none =>
      simp only [hrej] at hrun
      obtain ⟨c, hc, hl⟩ := hrun
      rw [hc]
      exact congrArg Except.ok hl.take
  · obtain ⟨v, r, hvr, hc⟩ := run_keeps_layout k [] stores _ c h0 hrun
    rw [List.nil_append] at hvr
    rw [hc.drop, hvr, ← hc.1, List.drop_left]

end GetAllTiKVStores

end BackupCli
