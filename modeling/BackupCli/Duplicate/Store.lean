/-
# `BackupCli.Duplicate.Store` — writing what the cluster returns

`storeDuplicateData`, `getValuesFromRegion` and `GetValues` of `part_001` (lines 317–461),
in the monad of `Duplicate.Remote`.  `maxRetryTimes`, a constant of the package that is not
in the sources, is a parameter.

The code is modelled as it is written, slips included:

* `storeDuplicateData` starts `handles` with `make([][]byte, len(resp.Pairs))`, so the
  row keys it collects follow `len(resp.Pairs)` nil entries, and a table request, which
  collects none, still sends those nil keys to `getValuesFromRegion`.
* `getValuesFromRegion` keeps `err` across its retries, and commits when the batch holds
  *more* than `maxWriteBatchCount` sets.
* `GetValues` starts its result with one nil entry (`make([][]byte, 1)`), never resets
  `batch` between regions, and its inner `for endIdx < l` loop never advances `endIdx`.

## What is proved

* `collectPairs_table`, `collectPairs_index` — what one attempt of `storeDuplicateData`
  collects: every pair as a set (table request), or the `len(resp.Pairs)` placeholders
  followed by the decodable row keys (index request).
* `storeDuplicateData_batchGet_keys` — an attempt whose commit succeeds sends one
  `KvBatchGet`, for a table request too, of `len(resp.Pairs)` nil keys followed by the
  decodable row keys, and returns those keys when it fails.
* `setPairs_batches` — every run of the pair loop of an attempt, whatever its commits
  answer: the successful commits write the pairs in consecutive batches of
  `maxWriteBatchCount + 1` sets, and the loop then holds the rest for the final commit, or
  stops on the failed commit of the next such batch.
* `setPairs_db`, `writePairs_none`, `writePairs_failed`, `getValuesFromRegion_commit_retry`
  — `getValuesFromRegion` returns nil only once the response's pairs are the last sets
  written; but after a failed final commit the kept `err` makes every later attempt skip
  its commit, so the call fails having written nothing.
* `gatherBatch_loops` — the inner loop of `GetValues`, started on a key below the region's
  end, runs out of any fuel.
* `regionLoop_spec`, `regionLoop_stuck`, `getValues_never_batches` — hence `GetValues`
  never sends a `KvBatchGet`: it logs its own call and nothing else, returns its input
  sorted or `[nil]`, and never returns once a scanned region ends above the least key.
* `storeDuplicateData_table_db` — for a table request whose commits succeed, the DB after
  `storeDuplicateData` is the old one with the response's pairs set in order, so of two
  versions of a key only the later is kept (`storeDuplicateData_keeps_last_version`).
-/
import BackupCli.Duplicate.Remote
import Mathlib.Data.List.Sort

namespace BackupCli

/-- `maxWriteBatchCount`. -/
def maxWriteBatchCount : Nat := 128

/-- Replace the DB by the batch applied to it. -/
def writeSets (sets : List (Bytes × Bytes)) : M Unit :=
  fun c => .ok () { c with db := c.db.setAll sets }

@[simp] theorem writeSets_apply (sets : List (Bytes × Bytes)) (c : Ctx) :
    writeSets sets c = .ok () { c with db := c.db.setAll sets } := rfl

section Manager
variable (R : Remote) (dec : Decoder) (maxRetryTimes : Nat)

/-- `b.Commit(opts)`: the batch's sets all land, or none does. -/
def commitBatch (sets : List (Bytes × Bytes)) : M (Option String) := do
  let err ← ask R.commit
  if err.isNone then writeSets sets
  pure err

/-- The pair loop of one attempt of `getValuesFromRegion`: `b.Set` each pair, and commit
and `b.Reset()` once the batch holds more than `maxWriteBatchCount` sets.  A failed commit
`break`s with `err` set; `err` is otherwise the attempt's last commit result, or what the
previous attempt left in it. -/
def setPairs : Option String → List (Bytes × Bytes) → List (Bytes × Bytes) →
    M (Option String × List (Bytes × Bytes))
  | err, [], b => pure (err, b)
  | err, kv :: rest, b =>
      if maxWriteBatchCount < (b ++ [kv]).length then do
        match ← commitBatch R (b ++ [kv]) with
        | none => setPairs none rest []
        | some e => pure (some e, b ++ [kv])
      else setPairs err rest (b ++ [kv])

/-- The `maxRetryTimes` attempts of `getValuesFromRegion` to write the pairs: the final
commit runs only `if err == nil`. -/
def writePairs (pairs : List (Bytes × Bytes)) : Nat → Option String → M (Option String)
  | 0, err => pure err
  | i + 1, err => do
      let (err, b) ← setPairs R err pairs []
      let err ← match err with
        | none => commitBatch R b
        | some e => pure (some e)
      match err with
      | none => pure none
      | some e => writePairs pairs i (some e)

/-- `getValuesFromRegion(ctx, region, handles)`: one `KvBatchGet` of `handles`, then the
returned pairs written to the DB.  The log records the keys and whether it returned nil. -/
def getValuesFromRegion (region : RegionInfo) (handles : List Bytes) : M (Option String) := do
  let err ← match ← ask (R.kvBatchGet · region handles) with
    | .error e => pure (some e)
    | .ok resp =>
        match resp.regionError, resp.error with
        | some m, _ => pure (some ("region error because of " ++ m))
        | none, some _ => pure (some "key error")
        | none, none => writePairs R resp.pairs maxRetryTimes none
  record (.kvBatchGet region.id handles err.isNone)
  pure err

/-- The pair loop of one attempt of `storeDuplicateData`: a table request puts every pair
in the batch; an index request appends `EncodeHandleKey(h)` for each pair whose handle `h`
decodes, and skips the others. -/
def collectPairs (indexInfo : Option IndexInfo) :
    List KvPair → List (Bytes × Bytes) × List Bytes → List (Bytes × Bytes) × List Bytes
  | [], acc => acc
  | kv :: rest, (sets, handles) =>
      match indexInfo with
      | some info =>
          match dec.decodeHandleFromIndex info kv.key kv.value with
          | none => collectPairs indexInfo rest (sets, handles)
          | some h => collectPairs indexInfo rest (sets, handles ++ [dec.encodeHandleKey h])
      | none => collectPairs indexInfo rest (sets ++ [(kv.key, kv.value)], handles)

/-- `storeDuplicateData(ctx, region, resp, decoder, req)`: up to `maxRetryTimes` attempts
to commit the batch, then `getValuesFromRegion` of the handles, which start with
`len(resp.Pairs)` nil entries.  It returns the handles when that fails, nothing when it
succeeds, and the last commit error when every attempt failed to commit. -/
def storeDuplicateData (region : RegionInfo) (resp : DuplicateDetectResponse)
    (req : DuplicateRequest) : M (Except String (List Bytes)) := do
  record (.store resp.pairs)
  attempt maxRetryTimes none
where
  attempt : Nat → Option String → M (Except String (List Bytes))
    | 0, err => pure (match err with | none => .ok [] | some e => .error e)
    | i + 1, _ => do
        let (sets, handles) := collectPairs dec req.indexInfo resp.pairs
          ([], List.replicate resp.pairs.length [])
        match ← commitBatch R sets with
        | some e => attempt i (some e)
        | none =>
            match ← getValuesFromRegion R maxRetryTimes region handles with
            | none => pure (.ok [])
            | some _ => pure (.ok handles)

/-- The inner `for endIdx < l` loop of `GetValues`: it appends `handles[endIdx]` while
that key's encoding is below the region's end, and never advances `endIdx`. -/
def gatherBatch (handles : List Bytes) (endKey : Bytes) :
    Nat → Nat → List Bytes → M (Nat × List Bytes)
  | 0, _, _ => throw .outOfFuel
  | fuel + 1, endIdx, batch =>
      if endIdx < handles.length then do
        let h ← index handles endIdx
        if compareBytes (encodeBytes .nil h).bytes endKey = .lt then
          gatherBatch handles endKey fuel endIdx (batch ++ [h])
        else pure (endIdx, batch)
      else pure (endIdx, batch)

/-- The region loop of `GetValues`: a region whose end is not above the current key is
skipped; otherwise its batch is gathered and sent, and kept for a retry if that fails. -/
def regionLoop (fuel : Nat) (handles : List Bytes) :
    List RegionInfo → Nat → List Bytes → List Bytes → M (List Bytes)
  | [], _, _, retryHandles => pure retryHandles
  | region :: rest, startIdx, batch, retryHandles => do
      let h ← index handles startIdx
      if compareBytes (encodeBytes .nil h).bytes region.endKey ≠ .lt then
        regionLoop fuel handles rest startIdx batch retryHandles
      else do
        let (endIdx, batch) ← gatherBatch handles region.endKey fuel startIdx batch
        let err ← getValuesFromRegion R maxRetryTimes region batch
        regionLoop fuel handles rest endIdx batch
          (if err.isSome then retryHandles ++ batch else retryHandles)

/-- `GetValues(ctx, handles)`: sort the row keys, scan the regions from the first key's
encoding to the last one's, and batch-get region by region.  `fuel` bounds the inner
loop. -/
def getValues (fuel : Nat) (handles : List Bytes) : M (List Bytes) := do
  record (.getValues handles)
  let handles := handles.insertionSort fun a b => compareBytes a b ≠ .gt
  let first ← index handles 0
  let last ← index handles (handles.length - 1)
  match ← ask (R.scanRegions · (encodeBytes .nil first).bytes (encodeBytes .nil last).bytes 128)
  with
  | .error _ => pure handles
  | .ok regions =>
      regionLoop R maxRetryTimes fuel handles regions 0 (List.replicate handles.length []) [[]]

/-! ## What one attempt of `storeDuplicateData` collects -/

theorem collectPairs_table (pairs : List KvPair) (acc : List (Bytes × Bytes) × List Bytes) :
    collectPairs dec none pairs acc = (acc.1 ++ pairs.map fun kv => (kv.key, kv.value), acc.2) := by
  induction pairs generalizing acc with
  | nil => simp [collectPairs]
  | cons kv rest ih => simp [collectPairs, ih]

theorem collectPairs_index (info : IndexInfo) (pairs : List KvPair)
    (acc : List (Bytes × Bytes) × List Bytes) :
    collectPairs dec (some info) pairs acc = (acc.1, acc.2 ++ pairs.filterMap fun kv =>
      (dec.decodeHandleFromIndex info kv.key kv.value).map dec.encodeHandleKey) := by
  induction pairs generalizing acc with
  | nil => simp [collectPairs]
  | cons kv rest ih =>
      cases h : dec.decodeHandleFromIndex info kv.key kv.value <;> simp [collectPairs, h, ih]

/-! ## The write loop of `getValuesFromRegion`

`setPairs` commits only when the batch outgrows `maxWriteBatchCount`, and a failed commit
ends it.  So an attempt that ends with no error has committed a prefix of the pairs and
holds the rest; and a failed attempt hands its error to the next one, whose pair loop then
commits nothing as long as the pairs fit in one batch, and whose final commit is skipped. -/

@[simp] theorem commitBatch_apply (sets : List (Bytes × Bytes)) (c : Ctx) :
    commitBatch R sets c = .ok (R.commit c.tick)
      { c with tick := c.tick + 1, db := if (R.commit c.tick).isNone then c.db.setAll sets else c.db } := by
  cases h : R.commit c.tick <;> simp [commitBatch, h]

theorem returns_commitBatch (sets : List (Bytes × Bytes)) : Returns (commitBatch R sets) :=
  fun c => ⟨_, _, commitBatch_apply R sets c, rfl⟩

theorem returns_setPairs (err : Option String) (pairs b : List (Bytes × Bytes)) :
    Returns (setPairs R err pairs b) := by
  induction pairs generalizing err b with
  | nil => exact returns_pure _
  | cons kv rest ih =>
      unfold setPairs
      split_ifs
      · exact (returns_commitBatch R _).bind fun r => by cases r <;> [exact ih _ _; exact returns_pure _]
      · exact ih _ _

theorem returns_writePairs (pairs : List (Bytes × Bytes)) :
    ∀ k err, Returns (writePairs R pairs k err)
  | 0, _ => returns_pure _
  | k + 1, _ => (returns_setPairs R _ pairs []).bind fun ⟨err, _⟩ => by
      have jp : ∀ err, Returns (match err with
          | none => pure none
          | some e => writePairs R pairs k (some e) : M (Option String)) := fun err => by
        cases err <;> [exact returns_pure _; exact returns_writePairs pairs k _]
      cases err with
      | none => exact (returns_commitBatch R _).bind jp
      | some e => exact jp (some e)

theorem setPairs_db {err : Option String} {pairs b b' : List (Bytes × Bytes)} {c c' : Ctx}
    (h : setPairs R err pairs b c = .ok (none, b') c') :
    c'.db.setAll b' = c.db.setAll (b ++ pairs) := by
  induction pairs generalizing err b c with
  | nil => cases h; simp
  | cons kv rest ih =>
      unfold setPairs at h
      split_ifs at h
      · cases hc : R.commit c.tick with
        | none =>
            simp only [M.bind_apply, commitBatch_apply, hc, Option.isNone_none, if_true] at h
            rw [ih h, List.nil_append, ← DB.setAll_append, List.append_assoc, List.singleton_append]
        | some e => simp [hc] at h
      · rw [ih h, List.append_assoc, List.singleton_append]

theorem setPairs_append_short (err : Option String) {p b : List (Bytes × Bytes)}
    (hlen : (b ++ p).length ≤ maxWriteBatchCount) (rest : List (Bytes × Bytes)) (c : Ctx) :
    setPairs R err (p ++ rest) b c = setPairs R err rest (b ++ p) c := by
  induction p generalizing b with
  | nil => simp
  | cons kv p ih =>
      have hle : (b ++ [kv] ++ p).length ≤ maxWriteBatchCount := by simpa using hlen
      rw [List.cons_append, setPairs, if_neg (by simp at hle ⊢; omega), ih hle, List.append_assoc,
        List.singleton_append]

theorem setPairs_short (err : Option String) {pairs b : List (Bytes × Bytes)}
    (hlen : (b ++ pairs).length ≤ maxWriteBatchCount) (c : Ctx) :
    setPairs R err pairs b c = .ok (err, b ++ pairs) c := by
  have h := setPairs_append_short R err hlen [] c
  rw [List.append_nil] at h
  rw [h]
  rfl

theorem setPairs_chunk (err : Option String) {p : List (Bytes × Bytes)} (kv : Bytes × Bytes)
    (rest : List (Bytes × Bytes)) (hp : p.length = maxWriteBatchCount) (c : Ctx) :
    setPairs R err (p ++ kv :: rest) [] c =
      match R.commit c.tick with
      | none => setPairs R none rest [] { c with tick := c.tick + 1, db := c.db.setAll (p ++ [kv]) }
      | some e => .ok (some e, p ++ [kv]) { c with tick := c.tick + 1 } := by
  rw [setPairs_append_short R err (by simp [hp]) _ c, List.nil_append, setPairs,
    if_pos (by simp [hp])]
  simp only [M.bind_apply, commitBatch_apply]
  cases R.commit c.tick <;> rfl

/-- Every run of the pair loop, from an empty batch: the `k` commits that succeed write the
pairs in consecutive batches of `maxWriteBatchCount + 1`, and the loop then holds the
remaining pairs, fewer than that, for the attempt's final commit; or it stops at the failed
commit of the next `maxWriteBatchCount + 1` pairs. -/
theorem setPairs_batches (err : Option String) (pairs : List (Bytes × Bytes)) (c : Ctx) :
    ∃ k ≤ pairs.length / (maxWriteBatchCount + 1), (∀ t < k, R.commit (c.tick + t) = none) ∧
      ((k = pairs.length / (maxWriteBatchCount + 1) ∧
          setPairs R err pairs [] c =
            .ok (if k = 0 then err else none, pairs.drop ((maxWriteBatchCount + 1) * k))
              { c with tick := c.tick + k,
                       db := c.db.setAll (pairs.take ((maxWriteBatchCount + 1) * k)) }) ∨
        ∃ e, R.commit (c.tick + k) = some e ∧
          setPairs R err pairs [] c =
            .ok (some e, (pairs.drop ((maxWriteBatchCount + 1) * k)).take (maxWriteBatchCount + 1))
              { c with tick := c.tick + k + 1,
                       db := c.db.setAll (pairs.take ((maxWriteBatchCount + 1) * k)) }) := by
  by_cases hshort : pairs.length < maxWriteBatchCount + 1
  · refine ⟨0, Nat.zero_le _, fun t ht => absurd ht (Nat.not_lt_zero t),
      .inl ⟨(Nat.div_eq_of_lt hshort).symm, ?_⟩⟩
    rw [@setPairs_short R err pairs [] (by simpa using Nat.le_of_lt_succ hshort) c]
    rfl
  obtain ⟨p, kv, rest, hp, rfl⟩ :
      ∃ p kv rest, p.length = maxWriteBatchCount ∧ pairs = p ++ kv :: rest := by
    cases h : pairs.drop maxWriteBatchCount with
    | nil => simp only [List.drop_eq_nil_iff] at h; omega
    | cons kv rest =>
      exact ⟨pairs.take maxWriteBatchCount, kv, rest, by simp; omega,
        by rw [← h, List.take_append_drop]⟩
  have hchunk : ∀ m, (maxWriteBatchCount + 1) * (m + 1) =
      (p ++ [kv]).length + (maxWriteBatchCount + 1) * m := fun m => by
    simp [hp, Nat.mul_succ]; omega
  have hassoc : p ++ kv :: rest = (p ++ [kv]) ++ rest := by simp
  have hlen : (p ++ kv :: rest).length / (maxWriteBatchCount + 1) =
      rest.length / (maxWriteBatchCount + 1) + 1 := by
    rw [← Nat.add_div_right _ (Nat.succ_pos _)]; congr 1; simp [hp]; omega
  rw [setPairs_chunk R err kv rest hp c, hlen]
  cases hc : R.commit c.tick with
  | some e =>
    refine ⟨0, Nat.zero_le _, fun t ht => absurd ht (Nat.not_lt_zero t), .inr ⟨e, hc, ?_⟩⟩
    rw [Nat.mul_zero, List.drop_zero, ← hp, List.take_append]
    rfl
  | none =>
    obtain ⟨k, hk, hok, hres⟩ :=
      setPairs_batches none rest { c with tick := c.tick + 1, db := c.db.setAll (p ++ [kv]) }
    dsimp only at hok hres
    simp only [Nat.add_right_comm c.tick 1, ← DB.setAll_append] at hok hres
    refine ⟨k + 1, by omega, fun t ht => ?_, ?_⟩
    · cases t with
      | zero => exact hc
      | succ t => rw [← Nat.add_assoc]; exact hok t (by omega)
    · dsimp only
      rw [hchunk, hassoc, List.take_append, List.drop_append, ← Nat.add_assoc]
      simp only [Nat.add_one_ne_zero, if_false]
      rcases hres with ⟨rfl, hres⟩ | ⟨e, he, hres⟩
      · exact .inl ⟨rfl, by simpa only [ite_self] using hres⟩
      · exact .inr ⟨e, he, hres⟩
termination_by pairs.length
decreasing_by simp_wf; subst_vars; simp only [List.length_append, List.length_cons]; omega

theorem writePairs_none {pairs : List (Bytes × Bytes)} :
    ∀ {k err c c'}, writePairs R pairs k err c = .ok none c' →
      k = 0 ∨ ∃ db₀ : DB, c'.db = db₀.setAll pairs
  | 0, _, _, _, _ => .inl rfl
  | k + 1, err, c, c', h => .inr <| by
      have retry : ∀ {e c₁}, writePairs R pairs k (some e) c₁ = .ok none c' →
          ∃ db₀ : DB, c'.db = db₀.setAll pairs := fun h => by
        rcases writePairs_none h with rfl | hdb
        · simp [writePairs] at h
        · exact hdb
      obtain ⟨⟨err₁, b⟩, c₁, h₁, h⟩ := M.bind_eq_ok h
      cases err₁ with
      | some e => exact retry h
      | none =>
          simp only [M.bind_apply, commitBatch_apply] at h
          cases hc : R.commit c₁.tick with
          | some e => simp only [hc] at h; exact retry h
          | none =>
              simp only [hc, Option.isNone_none, if_true, M.pure_apply, EStateM.Result.ok.injEq] at h
              exact ⟨c.db, by rw [← h.2, setPairs_db R h₁, List.nil_append]⟩

theorem writePairs_failed {pairs : List (Bytes × Bytes)} (hlen : pairs.length ≤ maxWriteBatchCount)
    (e : String) (c : Ctx) : ∀ k, writePairs R pairs k (some e) c = .ok (some e) c
  | 0 => rfl
  | k + 1 => by
      simp only [writePairs, M.bind_apply, @setPairs_short R (some e) pairs [] (by simpa using hlen),
        List.nil_append, M.pure_apply]
      exact writePairs_failed hlen e c k

theorem getValuesFromRegion_returns (region : RegionInfo) (handles : List Bytes) (c : Ctx) :
    ∃ err c', getValuesFromRegion R maxRetryTimes region handles c = .ok err c' ∧
      c'.log = c.log ++ [.kvBatchGet region.id handles err.isNone] := by
  rcases hg : R.kvBatchGet c.tick region handles with e | ⟨_ | m, _ | ke, pairs⟩
  case ok.mk.none.none =>
    obtain ⟨err, c₁, h₁, hl⟩ := returns_writePairs R pairs maxRetryTimes none { c with tick := c.tick + 1 }
    simp only [getValuesFromRegion, M.bind_apply, ask_apply, hg, h₁, record_apply, M.pure_apply]
    exact ⟨_, _, rfl, by simp [hl]⟩
  all_goals
    simp only [getValuesFromRegion, M.bind_apply, ask_apply, hg, record_apply, M.pure_apply]
    exact ⟨_, _, rfl, rfl⟩

theorem getValuesFromRegion_ok_log {region : RegionInfo} {handles : List Bytes} {c c' : Ctx}
    {err : Option String} (h : getValuesFromRegion R maxRetryTimes region handles c = .ok err c') :
    c'.log = c.log ++ [.kvBatchGet region.id handles err.isNone] := by
  obtain ⟨_, _, h', hl⟩ := getValuesFromRegion_returns R maxRetryTimes region handles c
  rw [h] at h'; cases h'; exact hl

theorem getValuesFromRegion_ne_error (region : RegionInfo) (handles : List Bytes) (c c' : Ctx)
    (e : Stop) : getValuesFromRegion R maxRetryTimes region handles c ≠ .error e c' := fun h => by
  obtain ⟨_, _, h', -⟩ := getValuesFromRegion_returns R maxRetryTimes region handles c
  rw [h] at h'; cases h'

/-- The retries of `getValuesFromRegion`, for a batch get answered without error.  It
returns nil only once the response's pairs are the last sets written to the DB.  But a
failed final commit of the first attempt is never retried: the error stays in `err`, so the
later attempts skip the commit, and the call returns that error having written nothing. -/
theorem getValuesFromRegion_commit_retry (hretry : 0 < maxRetryTimes) (region : RegionInfo)
    (handles : List Bytes) (c : Ctx) {resp : BatchGetResponse}
    (hget : R.kvBatchGet c.tick region handles = .ok resp) (hre : resp.regionError = none)
    (hke : resp.error = none) :
    (∀ c', getValuesFromRegion R maxRetryTimes region handles c = .ok none c' →
      ∃ db₀ : DB, c'.db = db₀.setAll resp.pairs) ∧
    (resp.pairs.length ≤ maxWriteBatchCount → ∀ e, R.commit (c.tick + 1) = some e →
      ∃ c', getValuesFromRegion R maxRetryTimes region handles c = .ok (some e) c' ∧
        c'.db = c.db ∧ c'.tick = c.tick + 2) := by
  constructor
  · intro c' h
    cases hw : writePairs R resp.pairs maxRetryTimes none { c with tick := c.tick + 1 } with
    | ok err c₁ =>
        simp only [getValuesFromRegion, M.bind_apply, ask_apply, hget, hre, hke, hw, record_apply,
          M.pure_apply, EStateM.Result.ok.injEq] at h
        obtain ⟨rfl, rfl⟩ := h
        exact (writePairs_none R hw).resolve_left (Nat.pos_iff_ne_zero.1 hretry)
    | error e c₁ => simp [getValuesFromRegion, hget, hre, hke, hw] at h
  · intro hlen e hc
    obtain ⟨m, rfl⟩ := Nat.exists_eq_add_of_lt hretry
    refine ⟨{ c with tick := c.tick + 2, log := c.log ++ [.kvBatchGet region.id handles false] }, ?_,
      rfl, rfl⟩
    simp [getValuesFromRegion, hget, hre, hke, writePairs,
      @setPairs_short R none resp.pairs [] (by simpa using hlen), hc, writePairs_failed R hlen]

/-! ## What `storeDuplicateData` sends -/

/-- The row keys of the pairs whose handle decodes, `EncodeHandleKey(h)` in response order;
a table request has none. -/
def decodedRowKeys : Option IndexInfo → List KvPair → List Bytes
  | none, _ => []
  | some info, pairs => pairs.filterMap fun kv =>
      (dec.decodeHandleFromIndex info kv.key kv.value).map dec.encodeHandleKey

@[simp] theorem collectPairs_handles (indexInfo : Option IndexInfo) (pairs : List KvPair)
    (hs : List Bytes) :
    (collectPairs dec indexInfo pairs ([], hs)).2 = hs ++ decodedRowKeys dec indexInfo pairs := by
  cases indexInfo <;> simp [collectPairs_table, collectPairs_index, decodedRowKeys]

/-- An attempt of `storeDuplicateData` whose commit succeeds sends one `KvBatchGet`, for a
table request too.  Its keys, which the call returns when the batch get fails, are
`len(resp.Pairs)` nil keys followed by the decodable row keys. -/
theorem storeDuplicateData_batchGet_keys (hretry : 0 < maxRetryTimes) (region : RegionInfo)
    (resp : DuplicateDetectResponse) (req : DuplicateRequest) (c : Ctx)
    (hcommit : R.commit c.tick = none) :
    ∃ ok c', storeDuplicateData R dec maxRetryTimes region resp req c =
        .ok (.ok (if ok then [] else
          List.replicate resp.pairs.length [] ++ decodedRowKeys dec req.indexInfo resp.pairs)) c' ∧
      c'.log = c.log ++ [.store resp.pairs, .kvBatchGet region.id
        (List.replicate resp.pairs.length [] ++ decodedRowKeys dec req.indexInfo resp.pairs) ok] := by
  obtain ⟨m, rfl⟩ := Nat.exists_eq_add_of_lt hretry
  simp only [storeDuplicateData, storeDuplicateData.attempt, M.bind_apply, record_apply,
    commitBatch_apply, hcommit, collectPairs_handles]
  split
  next err c₂ hgv =>
    refine ⟨err.isNone, c₂, by cases err <;> rfl, ?_⟩
    rw [getValuesFromRegion_ok_log R _ hgv, List.append_assoc]; rfl
  next e c₂ hgv => exact absurd hgv (getValuesFromRegion_ne_error R _ _ _ _ _ _)

/-! ## The inner loop of `GetValues` stops at once or never -/

theorem gatherBatch_loops {handles : List Bytes} {endKey : Bytes} {endIdx : Nat} {h : Bytes}
    (hh : handles[endIdx]? = some h)
    (hlt : compareBytes (encodeGroups h) endKey = .lt) :
    ∀ fuel batch c, gatherBatch handles endKey fuel endIdx batch c = .error .outOfFuel c
  | 0, _, _ => rfl
  | fuel + 1, batch, c => by
      have hi : endIdx < handles.length := (List.getElem?_eq_some_iff.1 hh).1
      simp only [gatherBatch, hi, if_true, M.bind_apply, index, hh, M.pure_apply, encodeBytes_bytes, Slice.nil_bytes, List.nil_append, hlt]
      exact gatherBatch_loops hh hlt fuel _ c

/-! ## `GetValues` never sends a batch

A region whose end is not above the current key is skipped; at any other region the inner
loop starts on that very key and spins.  So `getValuesFromRegion` is never reached: the
region loop leaves the context as it found it, and when it returns it returns the retry
list it started with, `[nil]`. -/

theorem regionLoop_spec (fuel : Nat) (handles : List Bytes) (startIdx : Nat)
    (batch retry : List Bytes) (c : Ctx) : ∀ regions : List RegionInfo,
      regionLoop R maxRetryTimes fuel handles regions startIdx batch retry c = .ok retry c ∨
      ∃ e, regionLoop R maxRetryTimes fuel handles regions startIdx batch retry c = .error e c
  | [] => .inl rfl
  | region :: rest => by
      cases hh : handles[startIdx]? with
      | none => exact .inr ⟨.panic "index out of range", by simp [regionLoop, index, hh]⟩
      | some h =>
        by_cases hlt : compareBytes (encodeGroups h) region.endKey = .lt
        · exact .inr ⟨.outOfFuel, by simp [regionLoop, index, hh, hlt, gatherBatch_loops hh hlt]⟩
        · simpa [regionLoop, index, hh, hlt] using regionLoop_spec fuel handles startIdx batch retry c rest

theorem regionLoop_keepsLog (fuel : Nat) (handles : List Bytes) (regions : List RegionInfo)
    (startIdx : Nat) (batch retry : List Bytes) :
    KeepsLog (regionLoop R maxRetryTimes fuel handles regions startIdx batch retry) := fun c => by
  rcases regionLoop_spec R maxRetryTimes fuel handles startIdx batch retry c regions with h | ⟨e, h⟩ <;>
    rw [h] <;> rfl

theorem regionLoop_stuck (fuel : Nat) {handles : List Bytes} {startIdx : Nat} {h : Bytes}
    (hh : handles[startIdx]? = some h) (batch retry : List Bytes) (c : Ctx) :
    ∀ regions : List RegionInfo,
      (∃ region ∈ regions, compareBytes (encodeGroups h) region.endKey = .lt) →
      regionLoop R maxRetryTimes fuel handles regions startIdx batch retry c = .error .outOfFuel c
  | [], ⟨_, hm, _⟩ => absurd hm (List.not_mem_nil _)
  | region :: rest, ⟨r, hm, hr⟩ => by
      by_cases hlt : compareBytes (encodeGroups h) region.endKey = .lt
      · simp [regionLoop, index, hh, hlt, gatherBatch_loops hh hlt]
      · have hrest : ∃ region ∈ rest, compareBytes (encodeGroups h) region.endKey = .lt := by
          rcases List.mem_cons.1 hm with rfl | hm
          · exact absurd hr hlt
          · exact ⟨r, hm, hr⟩
        simpa [regionLoop, index, hh, hlt] using regionLoop_stuck fuel hh batch retry c rest hrest

theorem getValues_log (fuel : Nat) (handles : List Bytes) (c : Ctx) :
    (resultCtx (getValues R maxRetryTimes fuel handles c)).log = c.log ++ [.getValues handles] := by
  have rest : KeepsLog (do
      let handles := handles.insertionSort fun a b => compareBytes a b ≠ .gt
      let first ← index handles 0
      let last ← index handles (handles.length - 1)
      match ← ask (R.scanRegions · (encodeBytes .nil first).bytes (encodeBytes .nil last).bytes 128)
      with
      | .error _ => pure handles
      | .ok regions =>
          regionLoop R maxRetryTimes fuel handles regions 0 (List.replicate handles.length []) [[]]) :=
    (keepsLog_index _ _).bind fun _ => (keepsLog_index _ _).bind fun _ =>
      (keepsLog_ask _).bind fun r => by
        cases r
        · exact keepsLog_pure _
        · exact regionLoop_keepsLog R maxRetryTimes fuel _ _ _ _ _
  have := rest { c with log := c.log ++ [.getValues handles] }
  simpa [getValues] using this

theorem getValues_ok {fuel : Nat} {handles r : List Bytes} {c c' : Ctx}
    (h : getValues R maxRetryTimes fuel handles c = .ok r c') :
    r = handles.insertionSort (fun a b => compareBytes a b ≠ .gt) ∨ r = [[]] := by
  unfold getValues at h
  obtain ⟨-, c1, -, h⟩ := M.bind_eq_ok h
  obtain ⟨first, c2, -, h⟩ := M.bind_eq_ok h
  obtain ⟨last, c3, -, h⟩ := M.bind_eq_ok h
  obtain ⟨scan, c4, -, h⟩ := M.bind_eq_ok h
  cases scan with
  | error => exact .inl (EStateM.Result.ok.inj h).1.symm
  | ok regions =>
      dsimp only at h
      rcases regionLoop_spec R maxRetryTimes fuel _ 0 _ [[]] c4 regions with h' | ⟨e, h'⟩ <;>
        rw [h'] at h
      · exact .inr (EStateM.Result.ok.inj h).1.symm
      · cases h

/-- `GetValues` never sends a batch get.  However it ends, its one entry in the log is its
own call; what it returns is its input sorted (the region scan failed) or `[nil]`; and when
the scan returns a region that ends above the least key's encoding, as the region of that
key does in any cover unless it is the open last one, it returns for no fuel at all. -/
theorem getValues_never_batches (fuel : Nat) (handles : List Bytes) (c : Ctx) :
    (resultCtx (getValues R maxRetryTimes fuel handles c)).log = c.log ++ [.getValues handles] ∧
    (∀ r c', getValues R maxRetryTimes fuel handles c = .ok r c' →
      r = handles.insertionSort (fun a b => compareBytes a b ≠ .gt) ∨ r = [[]]) ∧
    (∀ first rest regions,
      handles.insertionSort (fun a b => compareBytes a b ≠ .gt) = first :: rest →
      R.scanRegions c.tick (encodeGroups first)
          (encodeGroups ((first :: rest).getLast (List.cons_ne_nil first rest))) 128 = .ok regions →
      (∃ region ∈ regions, compareBytes (encodeGroups first) region.endKey = .lt) →
      ∀ r c', getValues R maxRetryTimes fuel handles c ≠ .ok r c') := by
  refine ⟨getValues_log R maxRetryTimes fuel handles c, fun _ _ => getValues_ok R maxRetryTimes,
    fun first rest regions hsort hscan hreg r c' h => ?_⟩
  have hlast : (first :: rest)[rest.length]? =
      some ((first :: rest).getLast (List.cons_ne_nil first rest)) := by
    rw [List.getLast_eq_getElem]; simp
  simp only [getValues, M.bind_apply, record_apply, hsort, index, List.getElem?_cons_zero,
    List.length_cons, Nat.add_sub_cancel, hlast, M.pure_apply, ask_apply, encodeBytes_bytes,
    Slice.nil_bytes, List.nil_append, hscan,
    regionLoop_stuck R maxRetryTimes fuel List.getElem?_cons_zero _ _ _ regions hreg] at h
  cases h

/-! ## Conflicting versions of a key

A table request's pairs go into the batch with `b.Set(kv.Key, kv.Value)`: the key is the
row key itself and the commit timestamp is dropped, so of two versions of one key the DB
keeps the later. -/

/-- For a table request, when every commit succeeds and every batch get answers with no
pair, `storeDuplicateData` returns nil having applied the response's pairs in order. -/
theorem storeDuplicateData_table_db (region : RegionInfo) (resp : DuplicateDetectResponse)
    (req : DuplicateRequest) (hreq : req.indexInfo = none) (hcommit : ∀ t, R.commit t = none)
    (hget : ∀ t region keys, R.kvBatchGet t region keys = .ok ⟨none, none, []⟩)
    (hretry : 0 < maxRetryTimes) (c : Ctx) :
    ∃ c', storeDuplicateData R dec maxRetryTimes region resp req c = .ok (.ok []) c' ∧
      c'.db = c.db.setAll (resp.pairs.map fun kv => (kv.key, kv.value)) := by
  obtain ⟨n, rfl⟩ := Nat.exists_eq_succ_of_ne_zero (Nat.pos_iff_ne_zero.1 hretry)
  simp [storeDuplicateData, storeDuplicateData.attempt, hreq, collectPairs_table, commitBatch,
    getValuesFromRegion, writePairs, setPairs, hcommit, hget, DB.setAll]

/-- Two versions of one key in a response to a table request: the DB keeps only the second. -/
theorem storeDuplicateData_keeps_last_version (region : RegionInfo) (req : DuplicateRequest)
    (hreq : req.indexInfo = none) (hcommit : ∀ t, R.commit t = none)
    (hget : ∀ t region keys, R.kvBatchGet t region keys = .ok ⟨none, none, []⟩)
    (hretry : 0 < maxRetryTimes) (k v1 v2 : Bytes) (ts1 ts2 : Nat) (c : Ctx) :
    ∃ c', storeDuplicateData R dec maxRetryTimes region
        ⟨none, none, [⟨k, v1, ts1⟩, ⟨k, v2, ts2⟩]⟩ req c = .ok (.ok []) c' ∧
      c'.db k = some v2 := by
  obtain ⟨c', h, hdb⟩ := storeDuplicateData_table_db R dec maxRetryTimes region _ req hreq hcommit
    hget hretry c
  exact ⟨c', h, by simp [hdb, DB.setAll_apply]⟩

end Manager

/-- A cluster on which every commit succeeds and every batch get finds nothing. -/
def quietRemote : Remote where
  scanRegions _ _ _ _ := .ok []
  getRegionByID _ _ := .error "region not found"
  duplicateDetect _ _ _ _ _ := none
  recv _ _ := .eof
  kvBatchGet _ _ _ := .ok ⟨none, none, []⟩
  commit _ := none

/-- A response of `maxWriteBatchCount + 1` pairs, under the keys `[0]` to `[128]`. -/
def fullBatchPairs : List (Bytes × Bytes) :=
  (List.range (maxWriteBatchCount + 1)).map fun i => ([UInt8.ofNat i], [])

/-- With every commit succeeding, the pair loop writes all `maxWriteBatchCount + 1` pairs of
`fullBatchPairs` in a single commit, and holds nothing for the final one. -/
theorem setPairs_commits_full_batch :
    fullBatchPairs.length = maxWriteBatchCount + 1 ∧
      setPairs quietRemote none fullBatchPairs [] ⟨0, fun _ => none, []⟩ =
        .ok (none, []) ⟨1, DB.setAll (fun _ => none) fullBatchPairs, []⟩ := by
  have hlen : fullBatchPairs.length = maxWriteBatchCount + 1 := by simp [fullBatchPairs]
  refine ⟨hlen, ?_⟩
  obtain ⟨k, -, -, ⟨hk, h⟩ | ⟨e, he, -⟩⟩ :=
    setPairs_batches quietRemote none fullBatchPairs ⟨0, fun _ => none, []⟩
  · rw [hlen, Nat.div_self (Nat.succ_pos _)] at hk
    subst hk
    rw [h, Nat.mul_one, ← hlen, List.drop_length, List.take_length]
    rfl
  · cases he

/-- A cluster whose region scan returns the one region `[nil, encodeGroups [5])`. -/
def oneRegionRemote : Remote :=
  { quietRemote with scanRegions := fun _ _ _ _ => .ok [⟨1, [], encodeGroups [5], [⟨1⟩], some ⟨1⟩⟩] }

theorem getValues_one_region_spins :
    ¬ ∃ r c', getValues oneRegionRemote 3 100 [[1]] ⟨0, fun _ => none, []⟩ = .ok r c' :=
  fun ⟨r, c', h⟩ => (getValues_never_batches oneRegionRemote 3 100 [[1]] _).2.2 [1] [] _ rfl rfl
    ⟨_, List.mem_singleton_self _, by decide⟩ r c' h

theorem storeDuplicateData_table_nil_key :
    ∃ ok c', storeDuplicateData quietRemote ⟨fun _ _ _ => none, fun _ => []⟩ 3 ⟨1, [], [], [], none⟩
        ⟨none, none, [⟨[7], [1], 10⟩]⟩ ⟨1, 0, [], [], none⟩ ⟨0, fun _ => none, []⟩ =
        .ok (.ok (if ok then [] else [[]])) c' ∧
      c'.log = [.store [⟨[7], [1], 10⟩], .kvBatchGet 1 [[]] ok] :=
  storeDuplicateData_batchGet_keys quietRemote _ 3 (by decide) _ _ _ _ rfl

/-- A cluster whose batch get returns one pair, and whose local commit fails at call 1 only. -/
def commitFailsOnceRemote : Remote :=
  { quietRemote with
    kvBatchGet := fun _ _ _ => .ok ⟨none, none, [([1], [2])]⟩
    commit := fun t => if t = 1 then some "commit failed" else none }

theorem getValuesFromRegion_commit_fails_once :
    ∃ c', getValuesFromRegion commitFailsOnceRemote 3 ⟨1, [], [], [], none⟩ [[]]
        ⟨0, fun _ => none, []⟩ = .ok (some "commit failed") c' ∧
      c'.db = (⟨0, fun _ => none, []⟩ : Ctx).db ∧ c'.tick = 2 :=
  (getValuesFromRegion_commit_retry commitFailsOnceRemote 3 (by decide) _ _ _ rfl rfl rfl).2
    (by decide) _ rfl

end BackupCli
