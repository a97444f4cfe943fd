/-
# `BackupCli.Restore.Tables` — `RestoreTable`, `RestoreDatabase` and `RestoreAll`

The three methods of the restore client (the Go source carried in
`tests/br_gc_safepoint/run.sh`, lines 140–292): each is a sequence of calls around a
fan-out over `errCh` (`Restore.Client`).

* What the calls answer is a `RestoreCalls`, read per database, per table and per file
  request: a theorem over `RestoreCalls` holds for every outcome of every call.
* A launch loop checks `ctx.Done()` before each goroutine.  `Schedule.doneAt` is the first
  iteration at which it finds it ready, and `Schedule.events` the order in which the
  goroutines' sends meet the collecting loop's receives.  Each method call has its own
  schedule; `none` is a schedule that does not take the loop to its count.
* The goroutines are closures over the loop's range variable (`file`, `table`, `db`),
  one variable for the whole loop, which each iteration overwrites.  A goroutine reads it
  when it runs, at the iteration of its own launch or later, and once the loop is over it
  holds the last item (`readAfter`).  `Schedule.reads` says how late each goroutine's reads
  come; `RestoreTable`'s goroutines read `file` twice, for `Default` and for `Write`.
* A goroutine's call that panics kills the process and sends nothing (`goroutineSends`).
* `rc.databases` is a Go map, ranged over in no fixed order: `RestoreAll` takes its entries
  in the order given.

The code as written:

* `tableInfo, returnErr := FetchTableInfo(…)` is followed by `returnErr = rc.OpenEngine(…)`,
  so a failed `FetchTableInfo` is never returned.  `GroupIDPairs` then reads the nil
  `tableInfo` only when the source table has an index, and panics there.
* `case <-rc.ctx.Done(): return nil`: a cancelled launch loop returns nil, whatever is left
  undone.

## What is proved

* `fanOut_collected_none` — a fan-out whose collecting loop ends with no error heard from
  goroutines that all returned nil (`ErrCh.run_collected_none`).
* `restoreTable_nil`, `restoreDatabase_nil`, `restoreAll_nil` — when each returns nil: its
  launch loop was cancelled, or every step succeeded, except that `FetchTableInfo` may
  have failed for a table without indices; the requests that succeeded are those the
  goroutines built from what they read of the range variable.
* `restore_nil_results` — the three together: a nil result does not mean the restore
  finished, nor that `FetchTableInfo` succeeded, nor that every file, table or database
  was restored.
-/
import BackupCli.Restore.Client
import BackupCli.Restore.Util

namespace BackupCli.Restore

/-- How a call ends: it returns an error (`none` is nil), or panics. -/
inductive Outcome
  | returns (err : Option String)
  | panics (msg : String)
deriving DecidableEq, Repr

/-- When a launch loop first sees `ctx.Done()` ready, when its goroutines read the range
variable, and the order of the meetings on its `errCh`. -/
structure Schedule where
  doneAt : Option Nat
  /-- For the goroutine of item `j`: how many iterations past its own the loop had gone at
  its first read of the range variable, and how many more at its second. -/
  reads : List (Nat × Nat)
  events : List ErrChEvent
deriving DecidableEq, Repr

/-- How late the reads of the goroutine of item `j` come; on time when the schedule does not
say. -/
def Schedule.lag (sch : Schedule) (j : Nat) : Nat × Nat := sch.reads.getD j (0, 0)

/-- The range variable as read `lag` iterations after the one that launched a goroutine on
item `x`, with `rest` still to come: the loop stops at the last item. -/
def readAfter {α : Type} : α → List α → Nat → α
  | x, [], _ => x
  | x, _ :: _, 0 => x
  | _, y :: ys, lag + 1 => readAfter y ys lag

/-- What the goroutines launched over `items` read of the range variable, the goroutine of
item `j` reading it `lag j` iterations after its own. -/
def rangeReads {α : Type} (lag : Nat → Nat) : Nat → List α → List α
  | _, [] => []
  | j, x :: rest => readAfter x rest (lag j) :: rangeReads lag (j + 1) rest

/-- The launch loop over `n` items sees `ctx.Done()` before it has launched them all. -/
def Schedule.cancels (sch : Schedule) (n : Nat) : Bool :=
  match sch.doneAt with
  | some k => decide (k < n)
  | none => false

/-- What a goroutine sends on `errCh`: `errors.Trace(err)` when its call failed, then nil;
nothing when its call panicked. -/
def goroutineSends : Outcome → List (Option String)
  | .returns err => fanOutSends err
  | .panics _ => []

/-- How the fan-out part of a method ends. -/
inductive FanOut
  /-- `case <-rc.ctx.Done(): return nil`. -/
  | cancelled
  /-- The loop received one value per goroutine; `returnErr` is the last error. -/
  | collected (returnErr : Option String)
deriving DecidableEq, Repr

/-- The launch loop and the collecting loop over goroutines whose calls end as `outcomes`;
`none` when the schedule does not take the loop to its count. -/
def fanOut (sch : Schedule) (outcomes : List Outcome) : Option FanOut :=
  if sch.cancels outcomes.length then some .cancelled
  else
    match (⟨outcomes.map goroutineSends, 0, none, false⟩ : ErrCh).run outcomes.length
      sch.events with
    | some s => if s.received = outcomes.length then some (.collected s.returnErr) else none
    | none => none

/-- `import_kvpb.RestoreFileRequest`, by the fields that vary: the backup path, the PD
address and the restore timestamp are the client's own. -/
structure RestoreFileRequest where
  default : Option BackupFile
  write : BackupFile
  tableIds : List IdPair
  indexIds : List IdPair
deriving DecidableEq, Repr

/-- The requests of `RestoreTable`'s goroutines: each reads `file` for `Default`, then again
for `Write`. -/
def restoreFileRequests (files : List FilePair) (sch : Schedule) (tableIDs indexIDs : List IdPair) :
    List RestoreFileRequest :=
  List.zipWith (fun d w => ⟨d.default, w.write, tableIDs, indexIDs⟩)
    (rangeReads (fun j => (sch.lag j).1) 0 files)
    (rangeReads (fun j => (sch.lag j).1 + (sch.lag j).2) 0 files)

/-- What the calls of a restore answer: `none` is a nil error. -/
structure RestoreCalls where
  createDatabase : DBInfo → Option String
  createTable : Table → Option String
  /-- `FetchTableInfo(rc.statusAddr, table.Db.Name.O, table.Schema.Name.O)`. -/
  fetchTableInfo : Table → Except String TableInfo
  openEngine : Table → Option String
  /-- `rc.importerClient.RestoreFile(rc.ctx, req)`. -/
  restoreFile : RestoreFileRequest → Option String
  closeEngine : Table → Option String
  importEngine : Table → Option String
  cleanupEngine : Table → Option String
  analyzeTable : Table → Option String

section Restore
variable (calls : RestoreCalls)

/-- The end of `RestoreTable` once its files are restored: `CloseEngine`, `ImportEngine`,
`CleanupEngine`, then the error of `AnalyzeTable`. -/
def finishTable (table : Table) : Option String :=
  match calls.closeEngine table with
  | some err => some err
  | none =>
      match calls.importEngine table with
      | some err => some err
      | none =>
          match calls.cleanupEngine table with
          | some err => some err
          | none => calls.analyzeTable table

/-- `rc.RestoreTable(table, restoreTS)`. -/
def restoreTable (table : Table) (sch : Schedule) : Option Outcome :=
  match calls.createTable table with
  | some err => some (.returns (some err))
  | none =>
      match groupIDPairs table.schema (calls.fetchTableInfo table).toOption with
      | .error msg => some (.panics msg)
      | .ok (tableIDs, indexIDs) =>
          match calls.openEngine table with
          | some err => some (.returns (some err))
          | none =>
              match fanOut sch ((restoreFileRequests table.files sch tableIDs indexIDs).map
                  fun req => .returns (calls.restoreFile req)) with
              | none => none
              | some .cancelled => some (.returns none)
              | some (.collected (some err)) => some (.returns (some err))
              | some (.collected none) => some (.returns (finishTable calls table))

/-- The goroutines of `RestoreDatabase`: `RestoreTable` of the table each read, the `j`-th
under `tableSch (i + j)`. -/
def restoreTables (tableSch : Nat → Schedule) : Nat → List Table → Option (List Outcome)
  | _, [] => some []
  | i, table :: rest => do
      let o ← restoreTable calls table (tableSch i)
      let os ← restoreTables tableSch (i + 1) rest
      pure (o :: os)

/-- `rc.RestoreDatabase(db, restoreTS)`. -/
def restoreDatabase (db : Database) (sch : Schedule) (tableSch : Nat → Schedule) :
    Option Outcome :=
  match calls.createDatabase db.schema with
  | some err => some (.returns (some err))
  | none => do
      let outcomes ← restoreTables calls tableSch 0 (rangeReads (fun j => (sch.lag j).1) 0 db.tables)
      match ← fanOut sch outcomes with
      | .cancelled => pure (.returns none)
      | .collected returnErr => pure (.returns returnErr)

/-- The goroutines of `RestoreAll`: `RestoreDatabase` of the database each read, the `j`-th
under `dbSch (i + j)` and its tables under `tableSch (i + j)`. -/
def restoreDatabases (dbSch : Nat → Schedule) (tableSch : Nat → Nat → Schedule) :
    Nat → List Database → Option (List Outcome)
  | _, [] => some []
  | i, db :: rest => do
      let o ← restoreDatabase calls db (dbSch i) (tableSch i)
      let os ← restoreDatabases dbSch tableSch (i + 1) rest
      pure (o :: os)

/-- `rc.RestoreAll(restoreTS)`. -/
def restoreAll (databases : List (String × Database)) (sch : Schedule)
    (dbSch : Nat → Schedule) (tableSch : Nat → Nat → Schedule) : Option Outcome := do
  let outcomes ← restoreDatabases calls dbSch tableSch 0
    (rangeReads (fun j => (sch.lag j).1) 0 (databases.map Prod.snd))
  match ← fanOut sch outcomes with
  | .cancelled => pure (.returns none)
  | .collected returnErr => pure (.returns returnErr)

@[simp] theorem length_rangeReads {α : Type} (lag : Nat → Nat) :
    ∀ (j : Nat) (items : List α), (rangeReads lag j items).length = items.length
  | _, [] => rfl
  | j, _ :: rest => by simp [rangeReads, length_rangeReads lag (j + 1) rest]

@[simp] theorem length_restoreFileRequests (files : List FilePair) (sch : Schedule)
    (tableIDs indexIDs : List IdPair) :
    (restoreFileRequests files sch tableIDs indexIDs).length = files.length := by
  simp [restoreFileRequests]

/-! ## A fan-out that collected no error -/

theorem sendsLeft_goroutineSends (o : Outcome) : SendsLeft (goroutineSends o) := by
  rcases o with (_ | e) | msg
  · exact .inr (.inl rfl)
  · exact .inr (.inr ⟨e, rfl⟩)
  · exact .inl rfl

theorem fanOut_eq_some {sch : Schedule} {outcomes : List Outcome} {r : FanOut}
    (h : fanOut sch outcomes = some r) :
    sch.cancels outcomes.length = true ∧ r = .cancelled ∨
      ∃ s, (⟨outcomes.map goroutineSends, 0, none, false⟩ : ErrCh).run outcomes.length
        sch.events = some s ∧ s.received = outcomes.length ∧ r = .collected s.returnErr := by
  unfold fanOut at h
  by_cases hc : sch.cancels outcomes.length = true
  · rw [if_pos hc] at h
    exact .inl ⟨hc, (Option.some.inj h).symm⟩
  · rw [if_neg hc] at h
    right
    cases hrun : ErrCh.run outcomes.length ⟨outcomes.map goroutineSends, 0, none, false⟩
      sch.events with
    | none => rw [hrun] at h; cases h
    | some s =>
        rw [hrun] at h
        dsimp only at h
        by_cases hn : s.received = outcomes.length
        · rw [if_pos hn] at h
          exact ⟨s, rfl, hn, (Option.some.inj h).symm⟩
        · rw [if_neg hn] at h; cases h

theorem fanOut_cancelled {sch : Schedule} {outcomes : List Outcome}
    (h : fanOut sch outcomes = some .cancelled) : sch.cancels outcomes.length = true := by
  rcases fanOut_eq_some h with ⟨hc, -⟩ | ⟨s, -, -, hr⟩
  · exact hc
  · cases hr

theorem fanOut_collected_none {sch : Schedule} {outcomes : List Outcome}
    (h : fanOut sch outcomes = some (.collected none)) : ∀ o ∈ outcomes, o = .returns none := by
  rcases fanOut_eq_some h with ⟨-, hr⟩ | ⟨s, hrun, hn, hr⟩
  · cases hr
  · have hall := @ErrCh.run_collected_none (outcomes.map goroutineSends)
      (by simpa using fun o _ => sendsLeft_goroutineSends o) sch.events s
      (by simpa using hrun) (by simpa using hn) (FanOut.collected.inj hr).symm
    intro o ho
    have := hall _ (List.mem_map_of_mem goroutineSends ho)
    rcases o with (_ | e) | msg <;> simp_all [goroutineSends, fanOutSends]

/-! ## When each method returns nil -/

theorem finishTable_none {table : Table} (h : finishTable calls table = none) :
    calls.closeEngine table = none ∧ calls.importEngine table = none ∧
      calls.cleanupEngine table = none ∧ calls.analyzeTable table = none := by
  unfold finishTable at h
  split at h
  · cases h
  · split at h
    · cases h
    · split at h
      · cases h
      · exact ⟨‹_›, ‹_›, ‹_›, h⟩

/-- `RestoreTable` returns nil only when its launch loop was cancelled, or when creating
the table, opening, every `RestoreFile` request its goroutines made, closing, importing,
cleaning up and analysing all succeeded.  `FetchTableInfo` may have failed, when the table
has no index. -/
theorem restoreTable_nil {table : Table} {sch : Schedule}
    (h : restoreTable calls table sch = some (.returns none)) :
    calls.createTable table = none ∧ calls.openEngine table = none ∧
      (sch.cancels table.files.length = true ∨
        ((∃ tableInfo, calls.fetchTableInfo table = .ok tableInfo) ∨ table.schema.indices = []) ∧
        (∃ ids, groupIDPairs table.schema (calls.fetchTableInfo table).toOption = .ok ids ∧
          ∀ req ∈ restoreFileRequests table.files sch ids.1 ids.2, calls.restoreFile req = none) ∧
        finishTable calls table = none) := by
  unfold restoreTable at h
  split at h
  · cases h
  · rename_i hcreate
    split at h
    · cases h
    · rename_i tableIDs indexIDs hids
      split at h
      · cases h
      · rename_i hopen
        refine ⟨hcreate, hopen, ?_⟩
        have hfetch : (∃ tableInfo, calls.fetchTableInfo table = .ok tableInfo) ∨
            table.schema.indices = [] := by
          cases hf : calls.fetchTableInfo table with
          | ok tableInfo => exact .inl ⟨tableInfo, rfl⟩
          | error e => rw [hf] at hids; exact .inr (groupIDPairs_none hids)
        split at h
        · cases h
        · have hc := fanOut_cancelled ‹_›
          rw [List.length_map, length_restoreFileRequests] at hc
          exact .inl hc
        · cases h
        · rename_i hfan
          have hfiles := fanOut_collected_none hfan
          refine .inr ⟨hfetch, ⟨(tableIDs, indexIDs), hids, fun req hreq => ?_⟩, ?_⟩
          · simpa using hfiles _ (List.mem_map_of_mem _ hreq)
          · simpa using h

theorem restoreTables_getElem {tableSch : Nat → Schedule} :
    ∀ {i : Nat} {tables : List Table} {os : List Outcome},
      restoreTables calls tableSch i tables = some os →
      os.length = tables.length ∧
        ∀ j table, tables[j]? = some table → restoreTable calls table (tableSch (i + j)) = os[j]?
  | _, [], _, h => by cases h; exact ⟨rfl, fun _ _ hj => by cases hj⟩
  | i, table :: rest, os, h => by
      simp only [restoreTables, Option.bind_eq_bind, Option.bind_eq_some, Option.pure_def,
        Option.some.injEq] at h
      obtain ⟨o, ho, os', hos', rfl⟩ := h
      obtain ⟨hlen, hget⟩ := restoreTables_getElem hos'
      refine ⟨by simp [hlen], fun j t hj => ?_⟩
      cases j with
      | zero => simp only [List.getElem?_cons_zero, Option.some.injEq] at hj; subst hj; simpa using ho
      | succ j =>
          rw [List.getElem?_cons_succ] at hj
          rw [List.getElem?_cons_succ, ← hget j t hj, show i + (j + 1) = i + 1 + j by omega]

theorem restoreDatabases_getElem {dbSch : Nat → Schedule} {tableSch : Nat → Nat → Schedule} :
    ∀ {i : Nat} {dbs : List Database} {os : List Outcome},
      restoreDatabases calls dbSch tableSch i dbs = some os →
      os.length = dbs.length ∧ ∀ j db, dbs[j]? = some db →
        restoreDatabase calls db (dbSch (i + j)) (tableSch (i + j)) = os[j]?
  | _, [], _, h => by cases h; exact ⟨rfl, fun _ _ hj => by cases hj⟩
  | i, db :: rest, os, h => by
      simp only [restoreDatabases, Option.bind_eq_bind, Option.bind_eq_some, Option.pure_def,
        Option.some.injEq] at h
      obtain ⟨o, ho, os', hos', rfl⟩ := h
      obtain ⟨hlen, hget⟩ := restoreDatabases_getElem hos'
      refine ⟨by simp [hlen], fun j d hj => ?_⟩
      cases j with
      | zero => simp only [List.getElem?_cons_zero, Option.some.injEq] at hj; subst hj; simpa using ho
      | succ j =>
          rw [List.getElem?_cons_succ] at hj
          rw [List.getElem?_cons_succ, ← hget j d hj, show i + (j + 1) = i + 1 + j by omega]

theorem getElem?_returns_none {os : List Outcome} (hall : ∀ o ∈ os, o = .returns none)
    {j : Nat} (hj : j < os.length) : os[j]? = some (.returns none) := by
  rw [List.getElem?_eq_getElem hj, hall _ (List.getElem_mem hj)]

theorem fanOut_returns_none {sch : Schedule} {outcomes : List Outcome}
    (h : fanOut sch outcomes = some .cancelled ∨ fanOut sch outcomes = some (.collected none)) :
    sch.cancels outcomes.length = true ∨ ∀ o ∈ outcomes, o = .returns none :=
  h.imp fanOut_cancelled fanOut_collected_none

theorem fanOut_result_none {sch : Schedule} {outcomes : List Outcome} {r : FanOut}
    (hr : fanOut sch outcomes = some r) (h : r = .cancelled ∨ r = .collected none) :
    fanOut sch outcomes = some .cancelled ∨ fanOut sch outcomes = some (.collected none) := by
  rcases h with rfl | rfl
  · exact .inl hr
  · exact .inr hr

theorem restoreDatabase_nil {db : Database} {sch : Schedule} {tableSch : Nat → Schedule}
    (h : restoreDatabase calls db sch tableSch = some (.returns none)) :
    calls.createDatabase db.schema = none ∧
      (sch.cancels db.tables.length = true ∨
        ∀ j table, (rangeReads (fun j => (sch.lag j).1) 0 db.tables)[j]? = some table →
          restoreTable calls table (tableSch j) = some (.returns none)) := by
  unfold restoreDatabase at h
  split at h
  · cases h
  · rename_i hcreate
    simp only [Option.bind_eq_bind, Option.bind_eq_some] at h
    obtain ⟨outcomes, hos, r, hr, h⟩ := h
    obtain ⟨hlen, hget⟩ := restoreTables_getElem calls hos
    have hnil := fanOut_returns_none (fanOut_result_none hr (by cases r <;> simp_all))
    refine ⟨hcreate, hnil.imp (by rw [hlen, length_rangeReads]; exact id) fun hall j t hj => ?_⟩
    rw [← Nat.zero_add j, hget j t hj]
    exact getElem?_returns_none hall (hlen ▸ (List.getElem?_eq_some_iff.1 hj).1)

theorem restoreAll_nil {databases : List (String × Database)} {sch : Schedule}
    {dbSch : Nat → Schedule} {tableSch : Nat → Nat → Schedule}
    (h : restoreAll calls databases sch dbSch tableSch = some (.returns none)) :
    sch.cancels databases.length = true ∨
      ∀ j db, (rangeReads (fun j => (sch.lag j).1) 0 (databases.map Prod.snd))[j]? = some db →
        restoreDatabase calls db (dbSch j) (tableSch j) = some (.returns none) := by
  unfold restoreAll at h
  simp only [Option.bind_eq_bind, Option.bind_eq_some] at h
  obtain ⟨outcomes, hos, r, hr, h⟩ := h
  obtain ⟨hlen, hget⟩ := restoreDatabases_getElem calls hos
  have hnil := fanOut_returns_none (fanOut_result_none hr (by cases r <;> simp_all))
  refine hnil.imp (by rw [hlen, length_rangeReads, List.length_map]; exact id) fun hall j d hj => ?_
  rw [← Nat.zero_add j, hget j d hj]
  exact getElem?_returns_none hall (hlen ▸ (List.getElem?_eq_some_iff.1 hj).1)

/-- What a nil result of the restore client's methods says, for every table, database and
map, every outcome of the calls and every schedule: the launch loop was cancelled, or every
step below succeeded, except that `RestoreTable` ignores a failed `FetchTableInfo` for a
table without indices, and that the files, tables and databases restored are those the
goroutines read of the shared range variable. -/
theorem restore_nil_results :
    (∀ table sch, restoreTable calls table sch = some (.returns none) →
      calls.createTable table = none ∧ calls.openEngine table = none ∧
        (sch.cancels table.files.length = true ∨
          ((∃ tableInfo, calls.fetchTableInfo table = .ok tableInfo) ∨
              table.schema.indices = []) ∧
            (∃ ids, groupIDPairs table.schema (calls.fetchTableInfo table).toOption = .ok ids ∧
              ∀ req ∈ restoreFileRequests table.files sch ids.1 ids.2, calls.restoreFile req = none) ∧
            finishTable calls table = none)) ∧
    (∀ db sch tableSch, restoreDatabase calls db sch tableSch = some (.returns none) →
      calls.createDatabase db.schema = none ∧
        (sch.cancels db.tables.length = true ∨
          ∀ j table, (rangeReads (fun j => (sch.lag j).1) 0 db.tables)[j]? = some table →
            restoreTable calls table (tableSch j) = some (.returns none))) ∧
    (∀ databases sch dbSch tableSch,
      restoreAll calls databases sch dbSch tableSch = some (.returns none) →
      sch.cancels databases.length = true ∨
        ∀ j db, (rangeReads (fun j => (sch.lag j).1) 0 (databases.map Prod.snd))[j]? = some db →
          restoreDatabase calls db (dbSch j) (tableSch j) = some (.returns none)) :=
  ⟨fun _ _ => restoreTable_nil calls, fun _ _ _ => restoreDatabase_nil calls,
    fun _ _ _ _ => restoreAll_nil calls⟩

end Restore

/-- Calls on which every step succeeds but `FetchTableInfo` and `RestoreFile`. -/
def fetchAndFilesFail : RestoreCalls where
  createDatabase _ := none
  createTable _ := none
  fetchTableInfo _ := .error "fetch table info failed"
  openEngine _ := none
  restoreFile _ := some "restore file failed"
  closeEngine _ := none
  importEngine _ := none
  cleanupEngine _ := none
  analyzeTable _ := none

/-- A table without indices, with one file. -/
def oneFileTable : Table := ⟨⟨"db"⟩, ⟨1, "t", []⟩, [⟨none, ⟨"1_write", [0x74, 1], [0x74, 1]⟩⟩]⟩

/-- A table without indices, with two files. -/
def twoFileTable : Table :=
  ⟨⟨"db"⟩, ⟨1, "t", []⟩,
    [⟨none, ⟨"1_write", [0x74, 1], [0x74, 1]⟩⟩, ⟨none, ⟨"2_write", [0x74, 1], [0x74, 2]⟩⟩]⟩

/-- Calls on which every step succeeds but `RestoreFile` of `1_write`. -/
def firstFileFails : RestoreCalls :=
  { fetchAndFilesFail with
    fetchTableInfo := fun _ => .ok ⟨1, "t", []⟩
    restoreFile := fun req => if req.write.name = "1_write" then some "restore file failed" else none }

/-- The first file's goroutine runs after the loop has moved on: both read `2_write`. -/
def lateFileReads : Schedule := ⟨none, [(1, 0)], [.recv 0, .recv 1]⟩

/-- Three nil results for a table left unrestored: the launch loop cancelled with the file's
`RestoreFile` failing; `FetchTableInfo` failing; and `RestoreFile` of `1_write` failing
while no goroutine ever asks for it. -/
theorem restoreTable_nil_unfinished :
    restoreTable fetchAndFilesFail oneFileTable ⟨some 0, [], []⟩ = some (.returns none) ∧
      restoreTable { fetchAndFilesFail with restoreFile := fun _ => none } oneFileTable
        ⟨none, [], [.recv 0]⟩ = some (.returns none) ∧
      restoreTable firstFileFails twoFileTable lateFileReads = some (.returns none) ∧
      (restoreFileRequests twoFileTable.files lateFileReads [] []).map (·.write.name) =
        ["2_write", "2_write"] ∧
      (firstFileFails.createTable twoFileTable = none ∧ firstFileFails.openEngine twoFileTable = none ∧
        (lateFileReads.cancels twoFileTable.files.length = true ∨
          ((∃ tableInfo, firstFileFails.fetchTableInfo twoFileTable = .ok tableInfo) ∨
              twoFileTable.schema.indices = []) ∧
            (∃ ids, groupIDPairs twoFileTable.schema
                (firstFileFails.fetchTableInfo twoFileTable).toOption = .ok ids ∧
              ∀ req ∈ restoreFileRequests twoFileTable.files lateFileReads ids.1 ids.2,
                firstFileFails.restoreFile req = none) ∧
            finishTable firstFileFails twoFileTable = none)) :=
  ⟨rfl, rfl, rfl, rfl, (restore_nil_results firstFileFails).1 twoFileTable lateFileReads rfl⟩

end BackupCli.Restore
