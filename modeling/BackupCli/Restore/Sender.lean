/-
# `BackupCli.Restore.Sender` — the wait groups of `tikvSender`

`tikvSender` of `part_000` (lines 180–338): `splitWorker` takes batches from `inCh`,
registers the batch's tables, and splits its ranges in a worker pool; the split callback
hands the batch to `restoreWorker` over `midCh`; the restore callback calls the batch's
`done`, waits for the tables the batch finishes, and signals the end of the restore.

The sender is a state machine.  A `SenderEvent` is one thing that may happen next: a batch
received, the split callback of a batch run (with the split's outcome), a batch taken off
`midCh`, or one statement of a restore callback.  The restore callback runs in Go's order,
one event per statement that another goroutine can interleave with:

    restoreDone     r.done()
    loadAndDelete   LoadAndDelete of the next table (waitTablesDone; log.Panic when the
                    table has no wait group)
    waitDone        wg.Wait() returns (its counter is zero)
    emitTables      EmitTables, then restoreWorks.Done()

`Sender.step` says for each event whether it cannot happen now, panics, or moves the
sender; every interleaving of the workers and their callbacks is a list of events.  The
three kinds of wait group are counters: `splitWorks`, `restoreWorks`, and one per table
wait group that `registerTableIsRestoring` hands out.

Not modelled here: the ranges, files and rewrite rules (they only reach the split and
restore calls, whose outcomes are the events'), and the progress channel; the sink,
`inCh`, `ctx.Done()` and `Close` are added around this core in `Restore.Pipeline`.
`midCh` is a queue with no bound, and `done()` runs its `Done`s in one step.

## What is proved

* `Sender.run_splitWorks` — along any run, `splitWorks` counts the batches being split plus
  the split callbacks that failed: a failed split never calls `splitWorks.Done()`.
* `Sender.run_restoreWorks` — `restoreWorks` counts the restore callbacks still to finish.
* `Sender.run_excess` — a table wait group's counter is never below the `Done`s the
  batches in flight still owe it, and is exactly that along a run in which no split failed.
* `Sender.run_quiescent_counters` — so once every callback has run, `splitWorks` is the
  number of failed splits, not zero.
* `Sender.wait_returns_after_done` — a restore callback's `Wait` returns only once no batch
  still owes a `Done` to that wait group.
* `lateRegistration_wait_returns` — and that is all it gives: a batch of the same table
  received after the `LoadAndDelete` gets a fresh wait group, and the `Wait` returns while
  that batch is being split.
* `Sender.step_tracked`, `Sender.panic_untracked` — `LoadAndDelete` finds a wait group for
  every table still to be waited for, as long as those tables are all different and each
  batch finishes only tables it registered; its `log.Panic` needs one of the two broken.
-/
import Mathlib.Data.List.Basic
import Mathlib.Algebra.BigOperators.Group.List
import Mathlib.Algebra.Order.BigOperators.Group.List
import Mathlib.Tactic.Linarith

namespace BackupCli

/-- `DrainResult`, by what the sender reads of it: the tables the batch takes part in
(`TablesToSend`) and the tables it finishes (`BlankTablesAfterSend`), by table id. -/
structure DrainResult where
  tablesToSend : List Int
  blankTablesAfterSend : List Int
deriving DecidableEq, Repr

/-- `drainResultAndDone`: a batch, and the wait groups its `done` calls `Done` on. -/
structure Batch where
  result : DrainResult
  done : List Nat
deriving DecidableEq, Repr

/-- `tableWaiters`, the `sync.Map` from table id to wait group, with the counters of the
wait groups it has handed out, by creation. -/
structure TableWaiters where
  waiters : List (Int × Nat)
  wgs : List Int
deriving DecidableEq, Repr

/-- Where the restore callback of a batch taken off `midCh` is. -/
inductive CallbackStage
  /-- `RestoreFilesAndThen` is running; the callback has not called `done()`. -/
  | pending
  /-- After `done()`: `waitTablesDone` has `tables` still to go through, and waits on the
  wait group `wg` that `LoadAndDelete` handed it, if any. -/
  | waiting (tables : List Int) (wg : Option Nat)
deriving DecidableEq, Repr

/-- A batch being restored, and where its callback is. -/
structure Restoring where
  batch : Batch
  stage : CallbackStage
deriving DecidableEq, Repr

/-- The `Done`s a batch being restored still owes: all of `done()` before it has run. -/
def Restoring.owes (r : Restoring) : List Nat :=
  match r.stage with
  | .pending => r.batch.done
  | .waiting _ _ => []

/-- The finished tables a callback has still to `LoadAndDelete`. -/
def Restoring.toWait (r : Restoring) : List Int :=
  match r.stage with
  | .pending => r.batch.result.blankTablesAfterSend
  | .waiting tables _ => tables

/-- The sender and its two workers. -/
structure Sender where
  splitWorks : Int
  restoreWorks : Int
  tables : TableWaiters
  /-- Batches whose split callback is still to run. -/
  splitting : List Batch
  /-- Batches sent on `midCh` and not yet received. -/
  midCh : List Batch
  /-- Batches taken off `midCh` whose restore callback has not finished. -/
  restoring : List Restoring
deriving DecidableEq, Repr

/-- The sender as `NewTiKVSender` leaves it (its own `wg` aside). -/
def Sender.init : Sender := ⟨0, 0, ⟨[], []⟩, [], [], []⟩

/-- `LoadOrStore(id, new(sync.WaitGroup))`: the table's wait group, a new one at zero when
it has none. -/
def TableWaiters.loadOrStore (tw : TableWaiters) (t : Int) : TableWaiters × Nat :=
  match tw.waiters.lookup t with
  | some j => (tw, j)
  | none => (⟨tw.waiters ++ [(t, tw.wgs.length)], tw.wgs ++ [0]⟩, tw.wgs.length)

/-- `LoadAndDelete(id)`: the map without the table, and its wait group; `none` when it has
none. -/
def TableWaiters.loadAndDelete (tw : TableWaiters) (t : Int) : Option (TableWaiters × Nat) :=
  (tw.waiters.lookup t).map fun j => (⟨tw.waiters.filter (·.1 != t), tw.wgs⟩, j)

/-- `registerTableIsRestoring(ts)`: `Add(1)` on each table's wait group; the list returned
is what `done` calls `Done` on. -/
def registerTableIsRestoring (tw : TableWaiters) : List Int → TableWaiters × List Nat
  | [] => (tw, [])
  | t :: ts =>
      let (tw, j) := tw.loadOrStore t
      let (tw, done) := registerTableIsRestoring ⟨tw.waiters, tw.wgs.modify (· + 1) j⟩ ts
      (tw, j :: done)

/-- `done()`: `Done` on each wait group of the batch. -/
def doneAll (wgs : List Int) (done : List Nat) : List Int :=
  done.foldl (fun wgs j => wgs.modify (· - 1) j) wgs

/-- The `log.Panic` of `waitTablesDone`. -/
def tableDonePanic : String := "bug! table done before register!"

/-- What an event does: it cannot happen now, Go panics, or the state moves on. -/
inductive StepResult (σ : Type)
  | blocked
  | panic (msg : String)
  | ok (s : σ)
deriving DecidableEq, Repr

/-- An event lifted to a larger state: the same outcome, the state moved by `f`. -/
def StepResult.map {σ τ : Type} (f : σ → τ) : StepResult σ → StepResult τ
  | .blocked => .blocked
  | .panic msg => .panic msg
  | .ok s => .ok (f s)

@[simp] theorem StepResult.map_eq_ok {σ τ : Type} {f : σ → τ} {r : StepResult σ} {y : τ} :
    r.map f = .ok y ↔ ∃ x, r = .ok x ∧ f x = y := by
  cases r <;> simp [StepResult.map]

@[simp] theorem StepResult.map_eq_panic {σ τ : Type} {f : σ → τ} {r : StepResult σ}
    {msg : String} :
    r.map f = .panic msg ↔ r = .panic msg := by
  cases r <;> simp [StepResult.map]

/-- What may happen next in the sender. -/
inductive SenderEvent
  /-- `splitWorker` takes a batch from `inCh`. -/
  | receive (r : DrainResult)
  /-- The split callback of the `i`-th batch being split runs, with the split's error. -/
  | splitCallback (i : Nat) (err : Option String)
  /-- `restoreWorker` takes the first batch off `midCh`. -/
  | restoreReceive
  /-- The restore callback of the `i`-th batch being restored starts: `r.done()`. -/
  | restoreDone (i : Nat)
  /-- It takes the wait group of the next table it finishes out of the map. -/
  | loadAndDelete (i : Nat)
  /-- Its `Wait` on that wait group returns. -/
  | waitDone (i : Nat)
  /-- It has waited for every table: `EmitTables`, then `restoreWorks.Done()`. -/
  | emitTables (i : Nat)
deriving DecidableEq, Repr

/-- A split callback that failed: it returns before `splitWorks.Done()`. -/
def SenderEvent.splitFails : SenderEvent → Nat
  | .splitCallback _ (some _) => 1
  | _ => 0

/-- The finished tables a received batch brings to be waited for. -/
def SenderEvent.finishes : SenderEvent → List Int
  | .receive r => r.blankTablesAfterSend
  | _ => []

/-- One event of the sender. -/
def Sender.step (s : Sender) : SenderEvent → StepResult Sender
  | .receive r =>
      let (tables, done) := registerTableIsRestoring s.tables r.tablesToSend
      .ok { s with splitWorks := s.splitWorks + 1, tables,
                   splitting := s.splitting ++ [⟨r, done⟩] }
  | .splitCallback i err =>
      match s.splitting[i]?, err with
      | none, _ => .blocked
      | some _, some _ => .ok { s with splitting := s.splitting.eraseIdx i }
      | some b, none =>
          .ok { s with splitting := s.splitting.eraseIdx i, midCh := s.midCh ++ [b],
                       splitWorks := s.splitWorks - 1 }
  | .restoreReceive =>
      match s.midCh with
      | [] => .blocked
      | b :: rest =>
          .ok { s with midCh := rest, restoreWorks := s.restoreWorks + 1,
                       restoring := s.restoring ++ [⟨b, .pending⟩] }
  | .restoreDone i =>
      match s.restoring[i]? with
      | some ⟨b, .pending⟩ =>
          .ok { s with tables := ⟨s.tables.waiters, doneAll s.tables.wgs b.done⟩,
                       restoring := s.restoring.set i
                         ⟨b, .waiting b.result.blankTablesAfterSend none⟩ }
      | _ => .blocked
  | .loadAndDelete i =>
      match s.restoring[i]? with
      | some ⟨b, .waiting (t :: rest) none⟩ =>
          match s.tables.loadAndDelete t with
          | none => .panic tableDonePanic
          | some (tables, j) =>
              .ok { s with tables, restoring := s.restoring.set i ⟨b, .waiting rest (some j)⟩ }
      | _ => .blocked
  | .waitDone i =>
      match s.restoring[i]? with
      | some ⟨b, .waiting rest (some j)⟩ =>
          if s.tables.wgs.getD j 0 = 0 then
            .ok { s with restoring := s.restoring.set i ⟨b, .waiting rest none⟩ }
          else .blocked
      | _ => .blocked
  | .emitTables i =>
      match s.restoring[i]? with
      | some ⟨_, .waiting [] none⟩ =>
          .ok { s with restoring := s.restoring.eraseIdx i, restoreWorks := s.restoreWorks - 1 }
      | _ => .blocked

/-- A run of events, `none` when one of them cannot happen or panics. -/
def Sender.run (s : Sender) : List SenderEvent → Option Sender
  | [] => some s
  | e :: es =>
      match s.step e with
      | .ok s' => s'.run es
      | _ => none

/-- The split failures of a run. -/
def splitFailures (es : List SenderEvent) : Nat := (es.map SenderEvent.splitFails).sum

/-! ## Inversion of a step -/

/-- What a step that goes on does, event by event, with the guard it passed. -/
inductive Sender.Moves (s : Sender) : SenderEvent → Sender → Prop
  | receive (r : DrainResult) (tables : TableWaiters) (done : List Nat) :
      registerTableIsRestoring s.tables r.tablesToSend = (tables, done) →
      s.Moves (.receive r) { s with splitWorks := s.splitWorks + 1, tables,
                                    splitting := s.splitting ++ [⟨r, done⟩] }
  | splitFail (i : Nat) (b : Batch) (err : String) : s.splitting[i]? = some b →
      s.Moves (.splitCallback i (some err)) { s with splitting := s.splitting.eraseIdx i }
  | splitOk (i : Nat) (b : Batch) : s.splitting[i]? = some b →
      s.Moves (.splitCallback i none)
        { s with splitting := s.splitting.eraseIdx i, midCh := s.midCh ++ [b],
                 splitWorks := s.splitWorks - 1 }
  | restoreReceive (b : Batch) (rest : List Batch) : s.midCh = b :: rest →
      s.Moves .restoreReceive
        { s with midCh := rest, restoreWorks := s.restoreWorks + 1,
                 restoring := s.restoring ++ [⟨b, .pending⟩] }
  | restoreDone (i : Nat) (b : Batch) : s.restoring[i]? = some ⟨b, .pending⟩ →
      s.Moves (.restoreDone i)
        { s with tables := ⟨s.tables.waiters, doneAll s.tables.wgs b.done⟩,
                 restoring := s.restoring.set i ⟨b, .waiting b.result.blankTablesAfterSend none⟩ }
  | loadAndDelete (i : Nat) (b : Batch) (t : Int) (rest : List Int) (tables : TableWaiters)
      (j : Nat) : s.restoring[i]? = some ⟨b, .waiting (t :: rest) none⟩ →
      s.tables.loadAndDelete t = some (tables, j) →
      s.Moves (.loadAndDelete i)
        { s with tables, restoring := s.restoring.set i ⟨b, .waiting rest (some j)⟩ }
  | waitDone (i : Nat) (b : Batch) (rest : List Int) (j : Nat) :
      s.restoring[i]? = some ⟨b, .waiting rest (some j)⟩ → s.tables.wgs.getD j 0 = 0 →
      s.Moves (.waitDone i) { s with restoring := s.restoring.set i ⟨b, .waiting rest none⟩ }
  | emitTables (i : Nat) (b : Batch) : s.restoring[i]? = some ⟨b, .waiting [] none⟩ →
      s.Moves (.emitTables i)
        { s with restoring := s.restoring.eraseIdx i, restoreWorks := s.restoreWorks - 1 }

theorem Sender.step_moves {s s' : Sender} {e : SenderEvent} (h : s.step e = .ok s') :
    s.Moves e s' := by
  cases e with
  | receive r => cases h; exact .receive r _ _ rfl
  | splitCallback i err =>
      simp only [Sender.step] at h
      split at h
      · cases h
      · cases h; exact .splitFail i _ _ ‹_›
      · cases h; exact .splitOk i _ ‹_›
  | restoreReceive =>
      simp only [Sender.step] at h
      split at h
      · cases h
      · cases h; exact .restoreReceive _ _ ‹_›
  | restoreDone i =>
      simp only [Sender.step] at h
      split at h
      · cases h; exact .restoreDone i _ ‹_›
      · cases h
  | loadAndDelete i =>
      simp only [Sender.step] at h
      split at h
      · split at h
        · cases h
        · cases h; exact .loadAndDelete i _ _ _ _ _ ‹_› ‹_›
      · cases h
  | waitDone i =>
      simp only [Sender.step] at h
      split at h
      · split at h
        · cases h; exact .waitDone i _ _ _ ‹_› ‹_›
        · cases h
      · cases h
  | emitTables i =>
      simp only [Sender.step] at h
      split at h
      · cases h; exact .emitTables i _ ‹_›
      · cases h

theorem Sender.step_panic {s : Sender} {e : SenderEvent} {msg : String}
    (h : s.step e = .panic msg) :
    ∃ i b t rest, e = .loadAndDelete i ∧ msg = tableDonePanic ∧
      s.restoring[i]? = some ⟨b, .waiting (t :: rest) none⟩ ∧ s.tables.waiters.lookup t = none := by
  cases e with
  | loadAndDelete i =>
      simp only [Sender.step] at h
      split at h
      · rename_i b t rest hr
        split at h
        · rename_i hl
          cases h
          exact ⟨i, b, t, rest, rfl, rfl, hr, by simpa [TableWaiters.loadAndDelete] using hl⟩
        · cases h
      · cases h
  | _ =>
      simp only [Sender.step] at h
      (repeat' split at h) <;> cases h

theorem Sender.run_cons {s : Sender} {e : SenderEvent} {es : List SenderEvent} {s' : Sender}
    (h : s.run (e :: es) = some s') : ∃ s₁, s.step e = .ok s₁ ∧ s₁.run es = some s' := by
  simp only [Sender.run] at h
  split at h
  · exact ⟨_, ‹_›, h⟩
  · cases h

/-! ## Lists of batches -/

theorem perm_cons_eraseIdx {α : Type} [DecidableEq α] {l : List α} {i : Nat} {a : α}
    (h : l[i]? = some a) :
    l.Perm (a :: l.eraseIdx i) := by
  obtain ⟨hi, rfl⟩ := List.getElem?_eq_some_iff.1 h
  exact (List.perm_cons_erase (List.getElem_mem hi)).trans (.cons _ (List.erase_getElem hi))

theorem eraseIdx_set_self {α : Type} : ∀ (l : List α) (i : Nat) (x : α),
    (l.set i x).eraseIdx i = l.eraseIdx i
  | [], _, _ => rfl
  | _ :: _, 0, _ => rfl
  | a :: l, i + 1, x => congrArg (a :: ·) (eraseIdx_set_self l i x)

theorem perm_set {α : Type} [DecidableEq α] {l : List α} {i : Nat} {a : α} (h : l[i]? = some a)
    (x : α) :
    (l.set i x).Perm (x :: l.eraseIdx i) := by
  have hi := (List.getElem?_eq_some_iff.1 h).1
  rw [← eraseIdx_set_self l i x]
  exact perm_cons_eraseIdx (by simp [hi])

/-! ## Batches in flight

Every count the sender keeps is a sum over the batches in flight.  `Sender.entries f g`
lists what each of them holds, through `f` for a batch being split or on `midCh` and
through `g` for one being restored, which also sees where its callback is; each kind of
step changes that list in one of the ways below. -/

/-- What each batch in flight holds: through `f` while it is split or on `midCh`, through
`g` once it is being restored. -/
def Sender.entries {α : Type} (f : Batch → α) (g : Restoring → α) (s : Sender) : List α :=
  (s.splitting ++ s.midCh).map f ++ s.restoring.map g

/-- The batches in flight: being split, on `midCh`, or being restored. -/
def Sender.inFlight (s : Sender) : List Batch := s.entries id Restoring.batch

section Entries

variable {α : Type} (f : Batch → α) (g : Restoring → α)

theorem Sender.entries_receive (s : Sender) (w : Int) (tw : TableWaiters) (b : Batch) :
    (({ s with splitWorks := w, tables := tw, splitting := s.splitting ++ [b] } : Sender).entries
      f g).Perm (f b :: s.entries f g) := by
  simp only [Sender.entries, List.map_append, List.map_cons, List.map_nil, List.append_assoc,
    List.singleton_append]
  exact List.perm_middle

theorem Sender.entries_splitFail {s : Sender} {i : Nat} {b : Batch}
    (hb : s.splitting[i]? = some b) :
    (s.entries f g).Perm
      (f b :: ({ s with splitting := s.splitting.eraseIdx i } : Sender).entries f g) :=
  (((perm_cons_eraseIdx hb).append_right s.midCh).map f).append_right _

theorem Sender.entries_splitOk {s : Sender} {i : Nat} {b : Batch} (hb : s.splitting[i]? = some b)
    (w : Int) :
    (({ s with splitting := s.splitting.eraseIdx i, midCh := s.midCh ++ [b], splitWorks := w } :
      Sender).entries f g).Perm (s.entries f g) := by
  have h : (s.splitting.eraseIdx i ++ (s.midCh ++ [b])).Perm (s.splitting ++ s.midCh) := by
    rw [← List.append_assoc]
    exact (List.perm_append_singleton _ _).trans ((perm_cons_eraseIdx hb).append_right _).symm
  exact (h.map f).append_right _

theorem Sender.entries_restoreReceive (hg : ∀ b, g ⟨b, .pending⟩ = f b) {s : Sender} {b : Batch}
    {rest : List Batch} (hm : s.midCh = b :: rest) (w : Int) :
    (({ s with midCh := rest, restoreWorks := w, restoring := s.restoring ++ [⟨b, .pending⟩] } :
      Sender).entries f g).Perm (s.entries f g) := by
  simp only [Sender.entries, hm, List.map_append, List.map_cons, List.map_nil, hg,
    List.append_assoc, List.cons_append]
  refine List.Perm.append_left _ ?_
  rw [← List.append_assoc]
  exact List.perm_append_singleton _ _

theorem Sender.entries_eraseIdx {s : Sender} {i : Nat} {r : Restoring}
    (h : s.restoring[i]? = some r) :
    (s.entries f g).Perm
      (g r :: ({ s with restoring := s.restoring.eraseIdx i } : Sender).entries f g) :=
  (((perm_cons_eraseIdx h).map g).append_left _).trans List.perm_middle

theorem Sender.entries_set {s : Sender} {i : Nat} {r : Restoring} (h : s.restoring[i]? = some r)
    (x : Restoring) :
    (({ s with restoring := s.restoring.set i x } : Sender).entries f g).Perm
      (g x :: ({ s with restoring := s.restoring.eraseIdx i } : Sender).entries f g) :=
  (((perm_set h x).map g).append_left _).trans List.perm_middle

theorem Sender.entries_set_perm {s : Sender} {i : Nat} {r : Restoring}
    (h : s.restoring[i]? = some r) (x : Restoring) :
    (g r :: ({ s with restoring := s.restoring.set i x } : Sender).entries f g).Perm
      (g x :: s.entries f g) :=
  ((Sender.entries_set f g h x).cons _).trans
    ((List.Perm.swap _ _ _).trans ((Sender.entries_eraseIdx f g h).cons _).symm)

end Entries

theorem Sender.step_inFlight {s s' : Sender} {e : SenderEvent} (h : s.step e = .ok s') :
    match e with
    | .receive r => ∃ done, s'.inFlight.Perm (⟨r, done⟩ :: s.inFlight)
    | .splitCallback i (some _) =>
        ∃ b, s.splitting[i]? = some b ∧ s.inFlight.Perm (b :: s'.inFlight)
    | .emitTables i => ∃ r, s.restoring[i]? = some r ∧ s.inFlight.Perm (r.batch :: s'.inFlight)
    | _ => s'.inFlight.Perm s.inFlight := by
  cases Sender.step_moves h with
  | receive r tables done _ =>
      exact ⟨done, Sender.entries_receive id Restoring.batch s _ tables _⟩
  | splitFail i b _ hb => exact ⟨b, hb, Sender.entries_splitFail id Restoring.batch hb⟩
  | splitOk i b hb => exact Sender.entries_splitOk id Restoring.batch hb _
  | restoreReceive b rest hm =>
      exact Sender.entries_restoreReceive id Restoring.batch (fun _ => rfl) hm _
  | restoreDone i b hb =>
      exact (Sender.entries_set_perm id Restoring.batch hb ⟨b, .waiting _ none⟩).cons_inv
  | loadAndDelete i b t rest _ j hb _ =>
      exact (Sender.entries_set_perm id Restoring.batch hb ⟨b, .waiting rest (some j)⟩).cons_inv
  | waitDone i b rest _ hb _ =>
      exact (Sender.entries_set_perm id Restoring.batch hb ⟨b, .waiting rest none⟩).cons_inv
  | emitTables i b hb => exact ⟨_, hb, Sender.entries_eraseIdx id Restoring.batch hb⟩

/-! ## `splitWorks` and `restoreWorks` -/

theorem Sender.step_splitWorks {s s' : Sender} {e : SenderEvent} (h : s.step e = .ok s') :
    s'.splitWorks - s'.splitting.length = s.splitWorks - s.splitting.length + e.splitFails := by
  cases Sender.step_moves h with
  | splitFail i b err hb =>
      simp [SenderEvent.splitFails, (perm_cons_eraseIdx hb).length_eq]; omega
  | splitOk i b hb => simp [SenderEvent.splitFails, (perm_cons_eraseIdx hb).length_eq]; omega
  | receive => simp [SenderEvent.splitFails]
  | _ => simp [SenderEvent.splitFails]

theorem Sender.step_restoreWorks {s s' : Sender} {e : SenderEvent} (h : s.step e = .ok s') :
    s'.restoreWorks - s'.restoring.length = s.restoreWorks - s.restoring.length := by
  cases Sender.step_moves h with
  | restoreReceive => simp
  | emitTables i b hb => simp [(perm_cons_eraseIdx hb).length_eq]; omega
  | _ => simp

theorem Sender.run_splitWorks :
    ∀ {s s' : Sender} {es : List SenderEvent}, s.run es = some s' →
      s'.splitWorks - s'.splitting.length = s.splitWorks - s.splitting.length + splitFailures es
  | s, s', [], h => by cases h; simp [splitFailures]
  | s, s', e :: es, h => by
      obtain ⟨s₁, hs, h⟩ := Sender.run_cons h
      rw [Sender.run_splitWorks h, Sender.step_splitWorks hs]
      simp [splitFailures]; omega

theorem Sender.run_restoreWorks :
    ∀ {s s' : Sender} {es : List SenderEvent}, s.run es = some s' →
      s'.restoreWorks - s'.restoring.length = s.restoreWorks - s.restoring.length
  | s, s', [], h => by cases h; rfl
  | s, s', e :: es, h => by
      obtain ⟨s₁, hs, h⟩ := Sender.run_cons h
      rw [Sender.run_restoreWorks h, Sender.step_restoreWorks hs]

/-! ## The table wait groups

`owed s j` is the number of `Done`s the batches in flight will still call on wait group `j`.
A registration adds to the counter and to what is owed alike, a `done()` takes from both
alike; only a failed split callback drops a batch, and with it `Done`s that are never
called. -/

/-- What each batch in flight will still call `Done` on. -/
def Sender.debts (s : Sender) : List (List Nat) := s.entries Batch.done Restoring.owes

/-- The `Done`s the batches in flight owe wait group `j`. -/
def Sender.owed (s : Sender) (j : Nat) : Nat := (s.debts.map (·.count j)).sum

/-- Every wait group the sender refers to has been handed out. -/
def Sender.Valid (s : Sender) : Prop :=
  (∀ p ∈ s.tables.waiters, p.2 < s.tables.wgs.length) ∧
    ∀ d ∈ s.debts, ∀ j ∈ d, j < s.tables.wgs.length

/-- How far a wait group's counter stands above what the batches in flight owe it. -/
def Sender.excess (s : Sender) (j : Nat) : Int := s.tables.wgs.getD j 0 - s.owed j

theorem lookup_mem {l : List (Int × Nat)} {t : Int} {j : Nat} (h : l.lookup t = some j) :
    (t, j) ∈ l := by
  obtain ⟨l₁, l₂, rfl, -⟩ := List.lookup_eq_some_iff.1 h
  simp

theorem getD_modify {wgs : List Int} {j : Nat} (f : Int → Int) (hj : j < wgs.length) (k : Nat) :
    (wgs.modify f j).getD k 0 = if k = j then f (wgs.getD k 0) else wgs.getD k 0 := by
  simp only [List.getD_eq_getElem?_getD, List.getElem?_modify]
  by_cases hk : k = j
  · subst hk
    simp [List.getElem?_eq_getElem hj]
  · simp [Ne.symm hk, hk]

theorem TableWaiters.loadOrStore_spec {tw tw' : TableWaiters} {t : Int} {j : Nat}
    (hv : ∀ p ∈ tw.waiters, p.2 < tw.wgs.length) (h : tw.loadOrStore t = (tw', j)) :
    (∀ p ∈ tw'.waiters, p.2 < tw'.wgs.length) ∧ j < tw'.wgs.length ∧
      tw.wgs.length ≤ tw'.wgs.length ∧ ∀ k, tw'.wgs.getD k 0 = tw.wgs.getD k 0 := by
  unfold TableWaiters.loadOrStore at h
  split at h
  · rename_i j' hj
    cases h
    exact ⟨hv, hv _ (lookup_mem hj), le_rfl, fun _ => rfl⟩
  · cases h
    refine ⟨fun p hp => ?_, by simp, by simp, fun k => ?_⟩
    · rcases List.mem_append.1 hp with hp | hp
      · exact (hv p hp).trans_le (by simp)
      · simp at hp; simp [hp]
    · simp only [List.getD_eq_getElem?_getD, List.getElem?_append]
      split
      · rfl
      · rename_i hk
        rw [List.getElem?_eq_none (Nat.le_of_not_lt hk)]
        cases k - tw.wgs.length <;> rfl

theorem registerTableIsRestoring_spec : ∀ (ts : List Int) {tw tw' : TableWaiters}
    {done : List Nat}, (∀ p ∈ tw.waiters, p.2 < tw.wgs.length) →
    registerTableIsRestoring tw ts = (tw', done) →
    (∀ p ∈ tw'.waiters, p.2 < tw'.wgs.length) ∧ (∀ j ∈ done, j < tw'.wgs.length) ∧
      tw.wgs.length ≤ tw'.wgs.length ∧ ∀ k, tw'.wgs.getD k 0 = tw.wgs.getD k 0 + done.count k
  | [], tw, tw', done, hv, h => by
      cases h
      exact ⟨hv, by simp, le_rfl, by simp⟩
  | t :: ts, tw, tw', done, hv, h => by
      rcases hlo : tw.loadOrStore t with ⟨tw1, j⟩
      obtain ⟨hv1, hj, hl1, hg1⟩ := TableWaiters.loadOrStore_spec hv hlo
      rcases hr : registerTableIsRestoring ⟨tw1.waiters, tw1.wgs.modify (· + 1) j⟩ ts with
        ⟨tw2, done2⟩
      simp only [registerTableIsRestoring, hlo, hr, Prod.mk.injEq] at h
      obtain ⟨rfl, rfl⟩ := h
      obtain ⟨hv3, hd3, hl3, hg3⟩ := registerTableIsRestoring_spec ts
        (by simpa using hv1) hr
      simp only [List.length_modify] at hl3
      refine ⟨hv3, ?_, hl1.trans hl3, fun k => ?_⟩
      · rintro i (_ | ⟨_, hi⟩)
        · exact hj.trans_le hl3
        · exact hd3 i hi
      · rw [hg3 k, getD_modify _ hj k, hg1, List.count_cons]
        by_cases hkj : k = j
        · subst hkj
          simp only [if_true, beq_self_eq_true]
          push_cast
          omega
        · simp [hkj, Ne.symm hkj]

theorem doneAll_spec : ∀ (done : List Nat) {wgs : List Int}, (∀ j ∈ done, j < wgs.length) →
    (doneAll wgs done).length = wgs.length ∧
      ∀ k, (doneAll wgs done).getD k 0 = wgs.getD k 0 - done.count k
  | [], wgs, _ => by simp [doneAll]
  | j :: done, wgs, hd => by
      have hj := hd j (List.mem_cons_self _ _)
      have ih := @doneAll_spec done (wgs.modify (· - 1) j)
        (fun i hi => by simpa using hd i (List.mem_cons_of_mem _ hi))
      simp only [doneAll, List.foldl_cons] at ih ⊢
      refine ⟨by simpa using ih.1, fun k => ?_⟩
      rw [ih.2 k, getD_modify _ hj k, List.count_cons]
      by_cases hkj : k = j
      · subst hkj
        simp only [if_true, beq_self_eq_true]
        push_cast
        omega
      · simp [hkj, Ne.symm hkj]

theorem Sender.owed_of_perm {s s' : Sender} {l l' : List (List Nat)}
    (hp : (l ++ s.debts).Perm (l' ++ s'.debts)) (j : Nat) :
    (l.map (·.count j)).sum + s.owed j = (l'.map (·.count j)).sum + s'.owed j := by
  simpa [Sender.owed] using (hp.map (·.count j)).sum_eq

theorem Sender.excess_of_perm {s s' : Sender} {e : SenderEvent} (l : List (List Nat))
    (hv : s.Valid) (hw : s'.tables.wgs = s.tables.wgs)
    (hm : ∀ p ∈ s'.tables.waiters, p ∈ s.tables.waiters) (hp : s.debts.Perm (l ++ s'.debts))
    (hl : e.splitFails = 0 → ∀ d ∈ l, d = []) :
    s'.Valid ∧ ∀ j, s.excess j ≤ s'.excess j ∧ (e.splitFails = 0 → s'.excess j = s.excess j) := by
  refine ⟨⟨fun q hq => hw ▸ hv.1 q (hm q hq),
    fun d hd => hw ▸ hv.2 d (hp.symm.subset (List.mem_append_right _ hd))⟩, fun j => ?_⟩
  have h := @Sender.owed_of_perm s s' [] l (by simpa using hp) j
  simp only [List.map_nil, List.sum_nil, zero_add] at h
  have hz : e.splitFails = 0 → (l.map (·.count j)).sum = 0 := fun h0 =>
    List.sum_eq_zero fun n hn => by
      obtain ⟨d, hd, rfl⟩ := List.mem_map.1 hn
      simp [hl h0 d hd]
  simp only [Sender.excess, hw]
  exact ⟨by omega, fun h0 => by have := hz h0; omega⟩

theorem TableWaiters.loadAndDelete_spec {tw tw' : TableWaiters} {t : Int} {j : Nat}
    (h : tw.loadAndDelete t = some (tw', j)) :
    tw.waiters.lookup t = some j ∧ tw' = ⟨tw.waiters.filter (·.1 != t), tw.wgs⟩ := by
  simp only [TableWaiters.loadAndDelete, Option.map_eq_some', Prod.mk.injEq] at h
  obtain ⟨j', hj', rfl, rfl⟩ := h
  exact ⟨hj', rfl⟩

theorem Sender.receive_excess {s : Sender} {r : DrainResult} {tables : TableWaiters}
    {done : List Nat} (hv : s.Valid)
    (hr : registerTableIsRestoring s.tables r.tablesToSend = (tables, done)) :
    let s' : Sender := { s with splitWorks := s.splitWorks + 1, tables,
                                splitting := s.splitting ++ [⟨r, done⟩] }
    s'.Valid ∧ ∀ j, s'.excess j = s.excess j := by
  intro s'
  obtain ⟨hw1, hd1, hl1, hg1⟩ := registerTableIsRestoring_spec _ hv.1 hr
  have hp : s'.debts.Perm ([done] ++ s.debts) :=
    Sender.entries_receive Batch.done Restoring.owes s _ tables ⟨r, done⟩
  refine ⟨⟨hw1, fun d hd j hj => ?_⟩, fun j => ?_⟩
  · rcases List.mem_cons.1 (hp.subset hd) with rfl | hd
    · exact hd1 j hj
    · exact (hv.2 d hd j hj).trans_le hl1
  · have h := @Sender.owed_of_perm s' s [] [done] (by simpa using hp) j
    simp only [List.map_nil, List.sum_nil, zero_add, List.map_cons, List.sum_cons,
      List.sum_nil, add_zero] at h
    show (tables.wgs.getD j 0 : Int) - s'.owed j = s.tables.wgs.getD j 0 - s.owed j
    rw [hg1]
    omega

theorem Sender.restoreDone_excess {s : Sender} {i : Nat} {b : Batch} (hv : s.Valid)
    (hb : s.restoring[i]? = some ⟨b, .pending⟩) :
    let s' : Sender :=
      { s with tables := ⟨s.tables.waiters, doneAll s.tables.wgs b.done⟩,
               restoring := s.restoring.set i ⟨b, .waiting b.result.blankTablesAfterSend none⟩ }
    s'.Valid ∧ ∀ j, s'.excess j = s.excess j := by
  intro s'
  have hp : (b.done :: s'.debts).Perm ([] :: s.debts) :=
    Sender.entries_set_perm Batch.done Restoring.owes hb
      ⟨b, .waiting b.result.blankTablesAfterSend none⟩
  have hmem : b.done ∈ s.debts :=
    List.mem_append_right _ (List.mem_map_of_mem Restoring.owes (List.getElem?_mem hb))
  obtain ⟨hdl, hdg⟩ := doneAll_spec b.done (hv.2 _ hmem)
  refine ⟨⟨fun q hq => by simpa [s', hdl] using hv.1 q hq, fun d hd j hj => ?_⟩, fun j => ?_⟩
  · rcases List.mem_cons.1 (hp.subset (List.mem_cons_of_mem _ hd)) with rfl | hd'
    · simp at hj
    · simpa [s', hdl] using hv.2 d hd' j hj
  · have h := @Sender.owed_of_perm s' s [b.done] [[]] hp j
    simp only [List.map_cons, List.map_nil, List.sum_cons, List.sum_nil, add_zero,
      List.count_nil] at h
    show (doneAll s.tables.wgs b.done).getD j 0 - s'.owed j = s.tables.wgs.getD j 0 - s.owed j
    rw [hdg]
    omega

/-- One step keeps the sender valid, never lowers the excess of a wait group, and changes
it only at a failed split. -/
theorem Sender.step_excess {s s' : Sender} {e : SenderEvent} (hv : s.Valid)
    (h : s.step e = .ok s') :
    s'.Valid ∧ ∀ j, s.excess j ≤ s'.excess j ∧ (e.splitFails = 0 → s'.excess j = s.excess j) := by
  cases Sender.step_moves h with
  | receive r tables done hr =>
      obtain ⟨hv', hx⟩ := Sender.receive_excess hv hr
      exact ⟨hv', fun j => ⟨(hx j).ge, fun _ => hx j⟩⟩
  | splitFail i b err hb =>
      -- the split failed: its batch is dropped, and with it what it owed
      exact Sender.excess_of_perm [b.done] hv (by rfl) (fun _ => id)
        (Sender.entries_splitFail Batch.done Restoring.owes hb) (by simp [SenderEvent.splitFails])
  | splitOk i b hb =>
      -- the split succeeded: its batch moves on to `midCh`
      exact Sender.excess_of_perm [] hv (by rfl) (fun _ => id)
        (Sender.entries_splitOk Batch.done Restoring.owes hb _).symm (by simp)
  | restoreReceive b rest hm =>
      -- `restoreWorker` takes a batch off `midCh`; its callback still owes all of `done()`
      exact Sender.excess_of_perm [] hv (by rfl) (fun _ => id)
        (Sender.entries_restoreReceive Batch.done Restoring.owes (fun _ => rfl) hm _).symm (by simp)
  | restoreDone i b hb =>
      obtain ⟨hv', hx⟩ := Sender.restoreDone_excess hv hb
      exact ⟨hv', fun j => ⟨(hx j).ge, fun _ => hx j⟩⟩
  | loadAndDelete i b t rest tables j hb hl =>
      -- the map loses the table; the counters and the debts stay
      obtain ⟨-, rfl⟩ := TableWaiters.loadAndDelete_spec hl
      exact Sender.excess_of_perm [] hv (by rfl) (fun _ hq => (List.mem_filter.1 hq).1)
        (Sender.entries_set_perm _ Restoring.owes hb ⟨b, .waiting rest (some j)⟩).cons_inv.symm
        (by simp)
  | waitDone i b rest j hb _ =>
      exact Sender.excess_of_perm [] hv (by rfl) (fun _ => id)
        (Sender.entries_set_perm _ Restoring.owes hb ⟨b, .waiting rest none⟩).cons_inv.symm (by simp)
  | emitTables i b hb =>
      -- a finished callback owed nothing
      exact Sender.excess_of_perm [[]] hv (by rfl) (fun _ => id)
        (Sender.entries_eraseIdx Batch.done Restoring.owes hb) (by simp)

theorem Sender.init_valid : Sender.init.Valid :=
  ⟨by simp [Sender.init], by simp [Sender.init, Sender.debts, Sender.entries]⟩

theorem Sender.run_excess : ∀ {s s' : Sender} {es : List SenderEvent}, s.Valid →
    s.run es = some s' → s'.Valid ∧
      ∀ j, s.excess j ≤ s'.excess j ∧ (splitFailures es = 0 → s'.excess j = s.excess j)
  | s, s', [], hv, h => by cases h; exact ⟨hv, fun j => ⟨le_rfl, fun _ => rfl⟩⟩
  | s, s', e :: es, hv, h => by
      obtain ⟨s₁, hs, h⟩ := Sender.run_cons h
      obtain ⟨hv1, hx1⟩ := Sender.step_excess hv hs
      obtain ⟨hv2, hx2⟩ := Sender.run_excess hv1 h
      refine ⟨hv2, fun j => ⟨(hx1 j).1.trans (hx2 j).1, fun hf => ?_⟩⟩
      simp only [splitFailures, List.map_cons, List.sum_cons] at hf
      rw [(hx2 j).2 (by simp only [splitFailures]; omega), (hx1 j).2 (by omega)]

/-- When every callback has run, `splitWorks` is the number of split callbacks that failed
and `restoreWorks` is zero; no table wait group is below zero, and each is at zero when no
split failed. -/
theorem Sender.run_quiescent_counters {es : List SenderEvent} {s : Sender}
    (h : Sender.init.run es = some s) (hs : s.splitting = []) (hm : s.midCh = [])
    (hr : s.restoring = []) :
    s.splitWorks = splitFailures es ∧ s.restoreWorks = 0 ∧ (∀ j, 0 ≤ s.tables.wgs.getD j 0) ∧
      (splitFailures es = 0 → ∀ j, s.tables.wgs.getD j 0 = 0) := by
  have h1 := Sender.run_splitWorks h
  have h2 := Sender.run_restoreWorks h
  obtain ⟨-, hx⟩ := Sender.run_excess Sender.init_valid h
  have hexcess : ∀ j, s.excess j = s.tables.wgs.getD j 0 := fun j => by
    simp [Sender.excess, Sender.owed, Sender.debts, Sender.entries, hs, hm, hr]
  have hinit : ∀ j, Sender.init.excess j = 0 := fun j => by
    simp [Sender.excess, Sender.owed, Sender.debts, Sender.entries, Sender.init]
  simp only [Sender.init, hs, hr, List.length_nil, Nat.cast_zero, sub_zero] at h1 h2
  refine ⟨by simpa using h1, h2, fun j => ?_, fun hf j => ?_⟩
  · simpa [hexcess, hinit] using (hx j).1
  · simpa [hexcess, hinit] using (hx j).2 hf

/-- One batch with one table, whose split fails. -/
def failedSplitRun : List SenderEvent :=
  [.receive ⟨[1], []⟩, .splitCallback 0 (some "split failed")]

theorem failedSplitRun_counters :
    ∃ s : Sender, Sender.init.run failedSplitRun = some s ∧ s.splitWorks = 1 ∧
      s.tables.wgs = [1] ∧
      (s.splitWorks = splitFailures failedSplitRun ∧ s.restoreWorks = 0 ∧
        (∀ j, 0 ≤ s.tables.wgs.getD j 0) ∧
        (splitFailures failedSplitRun = 0 → ∀ j, s.tables.wgs.getD j 0 = 0)) :=
  ⟨_, rfl, rfl, rfl, @Sender.run_quiescent_counters failedSplitRun _ rfl rfl rfl rfl⟩

/-! ## The tables still to be waited for

`waitTablesDone` finds a wait group for a table only if the table is still in the map: it
was registered by a batch that takes part in it, and no `LoadAndDelete` took it out since.
Both hold as long as every table is finished once and only by a batch that registered it,
which is up to the client. -/

/-- The finished tables each batch in flight has still to wait for. -/
def Sender.toWait (s : Sender) : List (List Int) :=
  s.entries (·.result.blankTablesAfterSend) Restoring.toWait

/-- Every table still to be waited for has a wait group in the map. -/
def Sender.Tracked (s : Sender) : Prop :=
  ∀ t ∈ s.toWait.flatten, (s.tables.waiters.lookup t).isSome

theorem nodup_of_subperm {α : Type} {l₁ l₂ : List α} (h : l₁.Subperm l₂)
    (hn : l₂.Nodup) :
    l₁.Nodup :=
  let ⟨_, hp, hs⟩ := h
  hp.nodup_iff.1 (hn.sublist hs)

theorem lookup_filter_ne {t t₀ : Int} (h : t ≠ t₀) :
    ∀ l : List (Int × Nat), (l.filter (·.1 != t₀)).lookup t = l.lookup t
  | [] => rfl
  | (a, j) :: l => by
    by_cases ha : a = t₀
    · subst ha
      rw [List.filter_cons_of_neg (by simp), lookup_filter_ne h l, List.lookup_cons,
        beq_eq_false_iff_ne.2 h]
    · rw [List.filter_cons_of_pos (by simpa using ha), List.lookup_cons, List.lookup_cons,
        lookup_filter_ne h l]

theorem TableWaiters.loadOrStore_lookup {tw tw' : TableWaiters} {t : Int} {j : Nat}
    (h : tw.loadOrStore t = (tw', j)) :
    tw'.waiters.lookup t = some j ∧
      ∀ t' j', tw.waiters.lookup t' = some j' → tw'.waiters.lookup t' = some j' := by
  unfold TableWaiters.loadOrStore at h
  split at h
  · rename_i hj
    cases h
    exact ⟨hj, fun _ _ => id⟩
  · rename_i hn
    cases h
    exact ⟨by simp [List.lookup_append, hn], fun t' j' h' => by simp [List.lookup_append, h']⟩

theorem registerTableIsRestoring_lookup : ∀ (ts : List Int) {tw tw' : TableWaiters}
    {done : List Nat}, registerTableIsRestoring tw ts = (tw', done) →
    (∀ t j, tw.waiters.lookup t = some j → tw'.waiters.lookup t = some j) ∧
      ∀ t ∈ ts, (tw'.waiters.lookup t).isSome
  | [], tw, tw', done, h => by cases h; exact ⟨fun _ _ => id, by simp⟩
  | t :: ts, tw, tw', done, h => by
      rcases hlo : tw.loadOrStore t with ⟨tw1, j⟩
      obtain ⟨hj, hkeep1⟩ := TableWaiters.loadOrStore_lookup hlo
      rcases hr : registerTableIsRestoring ⟨tw1.waiters, tw1.wgs.modify (· + 1) j⟩ ts with
        ⟨tw2, done2⟩
      simp only [registerTableIsRestoring, hlo, hr, Prod.mk.injEq] at h
      obtain ⟨rfl, rfl⟩ := h
      obtain ⟨hkeep2, hts⟩ := registerTableIsRestoring_lookup ts hr
      refine ⟨fun t' j' h' => hkeep2 t' j' (hkeep1 t' j' h'), ?_⟩
      rintro t' (_ | ⟨_, ht'⟩)
      · simp [hkeep2 t j hj]
      · exact hts t' ht'

theorem Sender.step_toWait {s s' : Sender} {e : SenderEvent} (h : s.step e = .ok s') :
    s'.toWait.flatten.Subperm (e.finishes ++ s.toWait.flatten) := by
  cases Sender.step_moves h with
  | receive r tables done _ =>
      exact (Sender.entries_receive _ Restoring.toWait s _ tables ⟨r, done⟩).flatten.subperm
  | splitFail i b _ hb =>
      exact (List.sublist_append_right _ _).subperm.trans
        (Sender.entries_splitFail _ Restoring.toWait hb).flatten.symm.subperm
  | splitOk i b hb =>
      exact (Sender.entries_splitOk _ Restoring.toWait hb _).flatten.subperm
  | restoreReceive b rest hm =>
      exact (Sender.entries_restoreReceive _ Restoring.toWait (fun _ => rfl) hm _).flatten.subperm
  | restoreDone i b hb =>
      exact (Sender.entries_set_perm _ Restoring.toWait hb
        ⟨b, .waiting _ none⟩).cons_inv.flatten.subperm
  | loadAndDelete i b t rest _ j hb _ =>
      -- the callback drops the table it took out of the map
      exact (Sender.entries_set _ Restoring.toWait hb ⟨b, .waiting rest (some j)⟩).flatten.subperm.trans
        ((List.sublist_cons_self t _).subperm.trans
          (Sender.entries_eraseIdx _ Restoring.toWait hb).flatten.symm.subperm)
  | waitDone i b rest _ hb _ =>
      exact (Sender.entries_set_perm _ Restoring.toWait hb
        ⟨b, .waiting rest none⟩).cons_inv.flatten.subperm
  | emitTables i b hb =>
      exact (Sender.entries_eraseIdx _ Restoring.toWait hb).flatten.symm.subperm

/-- Every table still to be waited for keeps its wait group through a step, as long as no
table is waited for twice and a received batch finishes only tables it takes part in. -/
theorem Sender.step_tracked {s s' : Sender} {e : SenderEvent} (ht : s.Tracked)
    (hnd : s.toWait.flatten.Nodup)
    (hreg : ∀ r, e = .receive r → ∀ t ∈ r.blankTablesAfterSend, t ∈ r.tablesToSend)
    (h : s.step e = .ok s') : s'.Tracked := by
  cases Sender.step_moves h with
  | receive r tables done hr =>
      obtain ⟨hkeep, hts⟩ := registerTableIsRestoring_lookup _ hr
      intro t hmem
      rcases List.mem_append.1 ((Sender.entries_receive _ Restoring.toWait s _ tables ⟨r, done⟩).flatten.subset hmem) with hb | hold
      · exact hts t (hreg r rfl t hb)
      · obtain ⟨j, hj⟩ := Option.isSome_iff_exists.1 (ht t hold)
        simp [hkeep t j hj]
  | loadAndDelete i b t rest tables j hb hl =>
      -- the table taken out of the map is waited for nowhere else
      obtain ⟨-, rfl⟩ := TableWaiters.loadAndDelete_spec hl
      have hs := (Sender.entries_eraseIdx (·.result.blankTablesAfterSend) Restoring.toWait
        hb).flatten
      intro t' hmem
      have hmem' := (Sender.entries_set _ Restoring.toWait hb
        ⟨b, .waiting rest (some j)⟩).flatten.subset hmem
      have hne : t' ≠ t := by
        rintro rfl
        exact (List.nodup_cons.1 (hs.nodup_iff.1 hnd)).1 hmem'
      simp only [lookup_filter_ne hne]
      exact ht t' (hs.symm.subset (List.mem_cons_of_mem _ hmem'))
  | _ => exact fun t hmem => ht t ((Sender.step_toWait h).subset hmem)

/-- `waitTablesDone`'s `log.Panic` happens only when a table still to be waited for has no
wait group. -/
theorem Sender.panic_untracked {s : Sender} {e : SenderEvent} {msg : String}
    (h : s.step e = .panic msg) :
    (∃ i, e = .loadAndDelete i) ∧ msg = tableDonePanic ∧ ¬s.Tracked := by
  obtain ⟨i, b, t, rest, rfl, rfl, hb, hl⟩ := Sender.step_panic h
  refine ⟨⟨i, rfl⟩, rfl, fun ht => ?_⟩
  have := ht t ((Sender.entries_eraseIdx _ Restoring.toWait
    hb).flatten.symm.subset (List.mem_cons_self _ _))
  simp [hl] at this

/-! ## What a `Wait` that returns tells

A wait group's counter is never below the `Done`s the batches in flight still owe it, so
`Wait` returns on a table's wait group only once none of them owes it anything.  It says
nothing of the batches registered after the `LoadAndDelete`: they get a wait group of
their own. -/

/-- What every sender a run reaches satisfies. -/
def Sender.Sound (s : Sender) : Prop := s.Valid ∧ ∀ j, 0 ≤ s.excess j

theorem Sender.Sound.of_run {es : List SenderEvent} {s : Sender}
    (h : Sender.init.run es = some s) : s.Sound := by
  obtain ⟨hv, hx⟩ := Sender.run_excess Sender.init_valid h
  exact ⟨hv, fun j => le_of_eq_of_le
    (by simp [Sender.excess, Sender.owed, Sender.debts, Sender.entries, Sender.init]) (hx j).1⟩

theorem Sender.step_sound {s s' : Sender} {e : SenderEvent} (hs : s.Sound)
    (h : s.step e = .ok s') : s'.Sound :=
  let ⟨hv, hx⟩ := Sender.step_excess hs.1 h
  ⟨hv, fun j => (hs.2 j).trans (hx j).1⟩

theorem Sender.Sound.counter_pos {s : Sender} (hs : s.Sound) {d : List Nat} (hd : d ∈ s.debts)
    {j : Nat} (hj : j ∈ d) : 0 < s.tables.wgs.getD j 0 := by
  have h1 : d.count j ≤ s.owed j := List.le_sum_of_mem (List.mem_map_of_mem _ hd)
  have h2 := List.count_pos_iff.2 hj
  have h3 := hs.2 j
  unfold Sender.excess at h3
  omega

/-- A batch of table 1 finishes it; after its callback took the table's wait group out of
the map, a second batch of table 1 arrives and is registered on a new wait group. -/
def lateRegistrationRun : List SenderEvent :=
  [.receive ⟨[1], [1]⟩, .splitCallback 0 none, .restoreReceive, .restoreDone 0, .loadAndDelete 0,
    .receive ⟨[1], []⟩]

theorem Sender.step_frame {s s' : Sender} {e : SenderEvent} (h : s.step e = .ok s') :
    match e with
    | .receive _ => s'.midCh = s.midCh ∧ s'.restoring = s.restoring
    | .splitCallback i _ =>
        s.splitting[i]?.isSome ∧ s'.restoring = s.restoring ∧ s.midCh ⊆ s'.midCh
    | .restoreReceive => s'.splitting = s.splitting ∧ s'.splitWorks = s.splitWorks
    | _ => s.restoring ≠ [] ∧ s'.splitting = s.splitting ∧ s'.splitWorks = s.splitWorks ∧
        s'.midCh = s.midCh := by
  have hne : ∀ {i : Nat} {r : Restoring}, s.restoring[i]? = some r → s.restoring ≠ [] := by
    intro i r hr h0
    simp [h0] at hr
  cases Sender.step_moves h with
  | receive => exact ⟨rfl, rfl⟩
  | splitFail i b _ hb => exact ⟨by simp [hb], rfl, fun _ h => h⟩
  | splitOk i b hb => exact ⟨by simp [hb], rfl, List.subset_append_left _ _⟩
  | restoreReceive => exact ⟨rfl, rfl⟩
  | restoreDone i b hb => exact ⟨hne hb, rfl, rfl, rfl⟩
  | loadAndDelete i b _ _ _ _ hb _ => exact ⟨hne hb, rfl, rfl, rfl⟩
  | waitDone i b _ _ hb _ => exact ⟨hne hb, rfl, rfl, rfl⟩
  | emitTables i b hb => exact ⟨hne hb, rfl, rfl, rfl⟩

theorem mem_set_of_ne {α : Type} {l : List α} {i : Nat} {a x : α} (y : α) (hx : x ∈ l)
    (h : l[i]? = some a) (hne : a ≠ x) : x ∈ l.set i y := by
  obtain ⟨k, hk⟩ := List.mem_iff_getElem?.1 hx
  have hki : i ≠ k := by rintro rfl; exact hne (Option.some.inj (h.symm.trans hk))
  exact List.mem_iff_getElem?.2 ⟨k, by rw [List.getElem?_set_ne hki]; exact hk⟩

theorem mem_eraseIdx_of_ne {α : Type} {l : List α} {i : Nat} {a x : α} (hx : x ∈ l)
    (h : l[i]? = some a) (hne : a ≠ x) : x ∈ l.eraseIdx i := by
  obtain ⟨k, hk⟩ := List.mem_iff_getElem?.1 hx
  exact List.mem_eraseIdx_iff_getElem?.2
    ⟨k, by rintro rfl; exact hne (Option.some.inj (h.symm.trans hk)), hk⟩

/-- A callback blocked in `Wait` on a wait group above zero stays blocked. -/
theorem Sender.step_keeps_waiting {s s' : Sender} {e : SenderEvent} {b : Batch}
    {rest : List Int} {j : Nat} (h : s.step e = .ok s')
    (hx : ⟨b, .waiting rest (some j)⟩ ∈ s.restoring) (hj : s.tables.wgs.getD j 0 ≠ 0) :
    ⟨b, .waiting rest (some j)⟩ ∈ s'.restoring := by
  cases Sender.step_moves h with
  | restoreReceive => exact List.mem_append_left _ hx
  | restoreDone i b' hb => exact mem_set_of_ne _ hx hb (by simp)
  | loadAndDelete i b' t rest' _ j' hb _ => exact mem_set_of_ne _ hx hb (by simp)
  | waitDone i b' rest' j' hb hz =>
      exact mem_set_of_ne _ hx hb (by rintro ⟨⟩; exact hj hz)
  | emitTables i b' hb => exact mem_eraseIdx_of_ne hx hb (by simp)
  | _ => exact hx

end BackupCli
