/-
# `BackupCli.Duplicate.Table` — `DuplicateTable` and the requests it builds

`buildDuplicateRequests`, `buildTableRequest`, `buildIndexRequest` and `DuplicateTable` of
`part_001` (lines 160–190 and 545–597).  The key ranges come from TiDB's `ranger` and
`distsql` packages, which are not in the sources: `KeyRanges` stands for them.

Both request builders start their list with `make([]*DuplicateRequest, 1)`, one nil request,
before appending the real ones.  `DuplicateTable` starts one worker per request; the workers
are modelled running one after another, in any order (`order`, indices into the requests),
each on the context the previous one left.

## What is proved

* `buildDuplicateRequests_head` — every request list built starts with a nil request.
* `buildDuplicateRequests_layout` — the whole list: a nil request and the table's ranges,
  then a nil request and the ranges of each public index in declaration order, every
  request under the table's own id.
* `runWorkers_ok` — a run of workers that returns ran no worker on a nil request, whose
  `sendRequestToTiKV` panics on `req.start` (`sendRequestToTiKV_none`).
* `duplicateTable_never_returns` — so `DuplicateTable` returns under no order that runs the
  first worker, and the errors its workers record are never returned.
-/
import BackupCli.Duplicate.Send

namespace BackupCli

/-- `model.TableInfo`, by the fields read: the table's id and its indices. -/
structure TableInfo where
  id : Int
  indices : List IndexInfo
deriving DecidableEq, Repr

/-- The key ranges of a whole table (`TableRangesToKVRanges` of `FullIntRange`) and of a
whole index (`IndexRangesToKVRanges` of `FullRange`, which may fail). -/
structure KeyRanges where
  table : Int → List (Bytes × Bytes)
  index : Int → Int → Except String (List (Bytes × Bytes))

/-- `buildTableRequest(tableID)`. -/
def buildTableRequest (kr : KeyRanges) (tableID : Int) : List (Option DuplicateRequest) :=
  List.replicate 1 none ++ (kr.table tableID).map fun r => some ⟨tableID, 0, r.1, r.2, none⟩

/-- `buildIndexRequest(tableID, indexInfo)`. -/
def buildIndexRequest (kr : KeyRanges) (tableID : Int) (indexInfo : IndexInfo) :
    Except String (List (Option DuplicateRequest)) := do
  let keysRanges ← kr.index tableID indexInfo.id
  pure (List.replicate 1 none ++
    keysRanges.map fun r => some ⟨tableID, indexInfo.id, r.1, r.2, some indexInfo⟩)

/-- The index loop of `buildDuplicateRequests`: indices not in the public state are
skipped. -/
def appendIndexRequests (kr : KeyRanges) (tableID : Int) :
    List IndexInfo → List (Option DuplicateRequest) →
      Except String (List (Option DuplicateRequest))
  | [], reqs => .ok reqs
  | indexInfo :: rest, reqs =>
      if indexInfo.state ≠ .public then appendIndexRequests kr tableID rest reqs
      else match buildIndexRequest kr tableID indexInfo with
        | .error e => .error e
        | .ok req => appendIndexRequests kr tableID rest (reqs ++ req)

/-- `buildDuplicateRequests(tableInfo)`. -/
def buildDuplicateRequests (kr : KeyRanges) (tableInfo : TableInfo) :
    Except String (List (Option DuplicateRequest)) :=
  appendIndexRequests kr tableInfo.id tableInfo.indices ([] ++ buildTableRequest kr tableInfo.id)

/-- `common.OnceError.Set`: the first error set is kept. -/
def onceErrorSet (tableErr : Option String) (err : String) : Option String :=
  match tableErr with
  | none => some err
  | some first => some first

section Table
variable (R : Remote) (dec : Decoder) (maxRetryTimes : Nat) (regionConcurrency : Int)
  (fuel : Nat)

/-- The worker goroutine of `DuplicateTable`: `sendRequestToTiKV`, then `tableErr.Set(err)`
when it fails (`cancel()` only reaches the cluster, whose answers are arbitrary anyway). -/
def duplicateWorker (req : Option DuplicateRequest) (tableErr : Option String) :
    M (Option String) := do
  match ← sendRequestToTiKV R dec maxRetryTimes regionConcurrency fuel req with
  | none => pure tableErr
  | some err => pure (onceErrorSet tableErr err)

/-- The workers, run in the order `order`; each `wg.Done()`s when it returns. -/
def runWorkers (reqs : List (Option DuplicateRequest)) :
    List Nat → Option String → M (Option String)
  | [], tableErr => pure tableErr
  | i :: rest, tableErr => do
      let req ← index reqs i
      let tableErr ← duplicateWorker R dec maxRetryTimes regionConcurrency fuel req tableErr
      runWorkers reqs rest tableErr

/-- `DuplicateTable(ctx, tbl)`: build the requests and the decoder (`decoderErr` is the
error of `NewTableKVDecoder`), run the workers, `wg.Wait()`, and `return nil`. -/
def duplicateTable (kr : KeyRanges) (decoderErr : Option String) (tbl : TableInfo)
    (order : List Nat) : M (Option String) :=
  match buildDuplicateRequests kr tbl with
  | .error e => pure (some e)
  | .ok reqs =>
      match decoderErr with
      | some e => pure (some e)
      | none => do
          let _ ← runWorkers R dec maxRetryTimes regionConcurrency fuel reqs order none
          pure none

/-! ## A worker on the nil request panics -/

theorem sendRequestToTiKV_none (c : Ctx) :
    sendRequestToTiKV R dec maxRetryTimes regionConcurrency fuel none c =
      .error (.panic "invalid memory address or nil pointer dereference") c := rfl

/-- A run of workers that returns ran every worker it was given on a real request. -/
theorem runWorkers_ok (reqs : List (Option DuplicateRequest)) :
    ∀ (order : List Nat) (tableErr r : Option String) (c c' : Ctx),
      runWorkers R dec maxRetryTimes regionConcurrency fuel reqs order tableErr c = .ok r c' →
        ∀ i ∈ order, ∃ req, reqs[i]? = some (some req)
  | [], _, _, _, _, _ => by simp
  | i :: rest, tableErr, r, c, c', h => by
      obtain ⟨req, c1, hreq, h⟩ := M.bind_eq_ok h
      obtain ⟨err, c2, hw, h⟩ := M.bind_eq_ok h
      have hrest := runWorkers_ok reqs rest err r c2 c' h
      refine List.forall_mem_cons.2 ⟨?_, hrest⟩
      cases hx : reqs[i]? with
      | none => simp [index, hx] at hreq
      | some x =>
          simp only [index, hx, M.pure_apply, EStateM.Result.ok.injEq] at hreq
          cases req with
          | some q => exact ⟨q, by rw [hreq.1]⟩
          | none =>
              obtain ⟨a, c3, hs, -⟩ := M.bind_eq_ok hw
              rw [sendRequestToTiKV_none] at hs
              cases hs

end Table

/-! ## The requests built -/

theorem appendIndexRequests_extends (kr : KeyRanges) (tableID : Int) :
    ∀ (indices : List IndexInfo) (reqs reqs' : List (Option DuplicateRequest)),
      appendIndexRequests kr tableID indices reqs = .ok reqs' → reqs <+: reqs'
  | [], reqs, reqs', h => by cases h; exact List.prefix_refl _
  | indexInfo :: rest, reqs, reqs', h => by
      unfold appendIndexRequests at h
      split at h
      · exact appendIndexRequests_extends kr tableID rest _ _ h
      · split at h
        · cases h
        · exact (List.prefix_append _ _).trans (appendIndexRequests_extends kr tableID rest _ _ h)

theorem buildDuplicateRequests_head {kr : KeyRanges} {tbl : TableInfo}
    {reqs : List (Option DuplicateRequest)} (h : buildDuplicateRequests kr tbl = .ok reqs) :
    reqs[0]? = some none := by
  obtain ⟨t, rfl⟩ := appendIndexRequests_extends kr tbl.id _ _ _ h
  simp [buildTableRequest]

theorem appendIndexRequests_layout (kr : KeyRanges) (tableID : Int) :
    ∀ (indices : List IndexInfo) (reqs reqs' : List (Option DuplicateRequest)),
      appendIndexRequests kr tableID indices reqs = .ok reqs' →
      ∃ ranges : List (List (Bytes × Bytes)),
        List.Forall₂ (fun i rs => kr.index tableID i.id = .ok rs)
          (indices.filter (·.state = .public)) ranges ∧
        reqs' = reqs ++ (List.zipWith
          (fun i rs => none :: rs.map fun r => some ⟨tableID, i.id, r.1, r.2, some i⟩)
          (indices.filter (·.state = .public)) ranges).flatten
  | [], reqs, reqs', h => by cases h; exact ⟨[], .nil, by simp⟩
  | indexInfo :: rest, reqs, reqs', h => by
      unfold appendIndexRequests at h
      split at h
      · rename_i hs
        rw [List.filter_cons_of_neg (by simpa using hs)]
        exact appendIndexRequests_layout kr tableID rest reqs reqs' h
      · rename_i hs
        unfold buildIndexRequest at h
        cases hr : kr.index tableID indexInfo.id with
        | error e => simp [hr] at h
        | ok rs =>
            simp only [hr, bind, Except.bind, pure, Except.pure] at h
            obtain ⟨ranges, hf, rfl⟩ := appendIndexRequests_layout kr tableID rest _ _ h
            refine ⟨rs :: ranges, ?_, ?_⟩
            · rw [List.filter_cons_of_pos (by simpa using hs)]
              exact .cons hr hf
            · rw [List.filter_cons_of_pos (by simpa using hs), List.zipWith_cons_cons,
                List.flatten_cons]
              simp

/-- The requests `buildDuplicateRequests` returns, exactly: a nil request and one request
per key range of the table, then, for each public index in declaration order, a nil request
and one request per key range of the index.  Every request carries the table's own id. -/
theorem buildDuplicateRequests_layout {kr : KeyRanges} {tbl : TableInfo}
    {reqs : List (Option DuplicateRequest)} (h : buildDuplicateRequests kr tbl = .ok reqs) :
    ∃ ranges : List (List (Bytes × Bytes)),
      List.Forall₂ (fun i rs => kr.index tbl.id i.id = .ok rs)
        (tbl.indices.filter (·.state = .public)) ranges ∧
      reqs = none :: (kr.table tbl.id).map (fun r => some ⟨tbl.id, 0, r.1, r.2, none⟩) ++
        (List.zipWith
          (fun i rs => none :: rs.map fun r => some ⟨tbl.id, i.id, r.1, r.2, some i⟩)
          (tbl.indices.filter (·.state = .public)) ranges).flatten := by
  obtain ⟨ranges, hf, rfl⟩ := appendIndexRequests_layout kr tbl.id _ _ _ h
  exact ⟨ranges, hf, by simp [buildTableRequest]⟩

/-! ## What `DuplicateTable` returns -/

section Result
variable (R : Remote) (dec : Decoder) (maxRetryTimes : Nat) (regionConcurrency : Int)
  (fuel : Nat)

/-- Once the requests and the decoder are built, `DuplicateTable` never returns under an
order that runs every worker: the first worker's request is nil and it panics. -/
theorem duplicateTable_never_returns (kr : KeyRanges) (tbl : TableInfo)
    {reqs : List (Option DuplicateRequest)} (hbuild : buildDuplicateRequests kr tbl = .ok reqs)
    (order : List Nat) (horder : 0 ∈ order) (r : Option String) (c c' : Ctx) :
    duplicateTable R dec maxRetryTimes regionConcurrency fuel kr none tbl order c ≠ .ok r c' := by
  intro h
  simp only [duplicateTable, hbuild] at h
  obtain ⟨_, c1, hrun, -⟩ := M.bind_eq_ok h
  obtain ⟨req, hreq⟩ := runWorkers_ok R dec maxRetryTimes regionConcurrency fuel reqs order none _
    c c1 hrun 0 horder
  rw [buildDuplicateRequests_head hbuild] at hreq
  cases hreq

end Result

/-- One table range, no index. -/
def oneRangeNoIndex : KeyRanges := ⟨fun _ => [([1], [2])], fun _ _ => .ok []⟩

theorem duplicateTable_one_range_no_return :
    buildDuplicateRequests oneRangeNoIndex ⟨1, []⟩ = .ok [none, some ⟨1, 0, [1], [2], none⟩] ∧
      0 ∈ [1, 0] ∧
      duplicateTable quietRemote ⟨fun _ _ _ => none, fun _ => []⟩ 3 16 100 oneRangeNoIndex none
        ⟨1, []⟩ [1, 0] ⟨0, fun _ => none, []⟩ ≠ .ok none ⟨0, fun _ => none, []⟩ :=
  ⟨rfl, by decide, duplicateTable_never_returns quietRemote _ 3 16 100 oneRangeNoIndex ⟨1, []⟩ rfl
    [1, 0] (by decide) none _ _⟩

/-- One key range for the table and one for each index. -/
def oneRangeEach : KeyRanges := ⟨fun _ => [([1], [2])], fun _ _ => .ok [([4], [5])]⟩

/-- A table with a public index and an index still being added. -/
def tableWithTwoIndices : TableInfo := ⟨1, [⟨2, .public⟩, ⟨3, .writeOnly⟩]⟩

theorem buildDuplicateRequests_one_public_index :
    buildDuplicateRequests oneRangeEach tableWithTwoIndices =
        .ok [none, some ⟨1, 0, [1], [2], none⟩, none, some ⟨1, 2, [4], [5], some ⟨2, .public⟩⟩] ∧
      ∃ ranges : List (List (Bytes × Bytes)),
        List.Forall₂ (fun i rs => oneRangeEach.index tableWithTwoIndices.id i.id = .ok rs)
          (tableWithTwoIndices.indices.filter (·.state = .public)) ranges ∧
        ([none, some ⟨1, 0, [1], [2], none⟩, none, some ⟨1, 2, [4], [5], some ⟨2, .public⟩⟩] :
            List (Option DuplicateRequest)) =
          none :: (oneRangeEach.table tableWithTwoIndices.id).map
              (fun r => some ⟨tableWithTwoIndices.id, 0, r.1, r.2, none⟩) ++
            (List.zipWith (fun i rs => none :: rs.map fun r =>
                some ⟨tableWithTwoIndices.id, i.id, r.1, r.2, some i⟩)
              (tableWithTwoIndices.indices.filter (·.state = .public)) ranges).flatten :=
  ⟨rfl, @buildDuplicateRequests_layout oneRangeEach tableWithTwoIndices _ rfl⟩

end BackupCli
