/-
# `BackupCli.Restore.Context` — `brContextManager` and the placement rules

`brContextManager` (`part_000`, lines 62–139) decides for which tables an online restore
sets up placement rules and when it resets them:

    call          client calls (through)                          hasTable
    Enter(ts)     SetupPlacementRules(new), then, if that          every table of ts added
                  succeeded, WaitPlacementSchedule(new)
                  (splitPrepareWork); new = the tables of ts
                  not in hasTable, once each
    Leave(ts)     ResetPlacementRules(ts) (splitPostWork)          the tables of ts removed
    Close()       ResetPlacementRules(every table of hasTable)     unchanged

The three client calls are not in the sources.  The model records each call the manager
makes, with the tables it names, and takes each call's error as given.  `splitPostWork`
only logs the error of `ResetPlacementRules`, so the log keeps it with the call.  A table is
its ID, the only field of `*model.TableInfo` the manager reads.  `hasTable` is the list of
the map's keys: a structure field keeps it free of duplicates, as a map's keys are.
`Close` walks it in list order, where Go walks the map in any order.

Two readings of the log:

* a table is *armed* when the last call naming it is a `SetupPlacementRules`: its rules
  were asked for, and no reset has been asked for since;
* a table is *live* when a setup asked for its rules and no `ResetPlacementRules` naming
  it has succeeded since: its rules may still be in place.

## What is proved

* `BRContextManager.armed_mem` — in every reachable state an armed table is in `hasTable`.
* `BRContextManager.enter_sets_up_fresh` — in every run, `Enter` asks to set up rules exactly
  for the tables it names that are not in `hasTable`, once each and none of them armed: no
  table gets rules twice without a reset asked for in between.
* `BRContextManager.live_tracked` — in every reachable state a live table is in `hasTable`,
  or a reset naming it failed.
* `BRContextManager.close_keeps_failed_resets` — after `Close`, a table is live only if a
  reset naming it failed; and a table whose reset failed in `Leave` stays live through
  `Close`, since `Leave` dropped it from `hasTable` whatever the reset returned.
-/
import Mathlib.Data.List.Nodup

namespace BackupCli

/-- `brContextManager`: the IDs of `hasTable`, which a map keeps without duplicates. -/
structure BRContextManager where
  hasTable : List Int
  nodup : hasTable.Nodup

/-- `NewBRContextManager`: an empty `hasTable`. -/
def BRContextManager.empty : BRContextManager := ⟨[], List.nodup_nil⟩

/-- `manager.hasTable[id] = tbl`. -/
def BRContextManager.insert (m : BRContextManager) (t : Int) : BRContextManager :=
  if h : t ∈ m.hasTable then m
  else ⟨m.hasTable ++ [t], List.nodup_append.2 ⟨m.nodup, List.nodup_singleton t, by simpa using h⟩⟩

/-- `delete(manager.hasTable, id)`. -/
def BRContextManager.delete (m : BRContextManager) (t : Int) : BRContextManager :=
  ⟨m.hasTable.erase t, m.nodup.erase t⟩

/-- A call the manager makes on its client, with the tables it names; a reset with the
error it returned. -/
inductive PlacementCall
  | setup (tables : List Int)
  | wait (tables : List Int)
  | reset (tables : List Int) (err : Option String)
deriving DecidableEq, Repr

/-- `splitPrepareWork`: `SetupPlacementRules`, then, if it succeeded,
`WaitPlacementSchedule`; the first error is returned. -/
def splitPrepareWork (tables : List Int) (setupErr waitErr : Option String) :
    List PlacementCall × Option String :=
  match setupErr with
  | some err => ([.setup tables], some err)
  | none => ([.setup tables, .wait tables], waitErr)

/-- `splitPostWork`: `ResetPlacementRules`, whose error `resetErr` is only logged. -/
def splitPostWork (tables : List Int) (resetErr : Option String) : List PlacementCall :=
  [.reset tables resetErr]

/-- The loop of `Enter`: each table not yet in `hasTable` joins `placementRuleTables`, and
every table is put in `hasTable`. -/
def BRContextManager.enterLoop :
    BRContextManager → List Int → List Int → BRContextManager × List Int
  | m, placementRuleTables, [] => (m, placementRuleTables)
  | m, placementRuleTables, t :: ts =>
      (m.insert t).enterLoop
        (if t ∈ m.hasTable then placementRuleTables else placementRuleTables ++ [t]) ts

/-- `Enter(ctx, tables)`, given the errors of the two client calls. -/
def BRContextManager.enter (m : BRContextManager) (tables : List Int)
    (setupErr waitErr : Option String) : BRContextManager × List PlacementCall × Option String :=
  let (m', placementRuleTables) := m.enterLoop [] tables
  let (calls, err) := splitPrepareWork placementRuleTables setupErr waitErr
  (m', calls, err)

/-- `Leave(ctx, tables)`: it always returns nil, and drops the tables from `hasTable`
whatever the reset returned. -/
def BRContextManager.leave (m : BRContextManager) (tables : List Int) (resetErr : Option String) :
    BRContextManager × List PlacementCall :=
  (tables.foldl BRContextManager.delete m, splitPostWork tables resetErr)

/-- `Close(ctx)`: `hasTable` is left as it is. -/
def BRContextManager.close (m : BRContextManager) (resetErr : Option String) :
    List PlacementCall :=
  splitPostWork m.hasTable resetErr

/-- A call of the manager's interface, with the errors its client calls return. -/
inductive ContextEvent
  | enter (tables : List Int) (setupErr waitErr : Option String)
  | leave (tables : List Int) (resetErr : Option String)
  | close (resetErr : Option String)

/-- One call: the manager after it, and the client calls it made.  An error of `Enter`
goes back to its caller, which may go on with any call. -/
def BRContextManager.step (m : BRContextManager) :
    ContextEvent → BRContextManager × List PlacementCall
  | .enter tables setupErr waitErr =>
      let (m', calls, _) := m.enter tables setupErr waitErr
      (m', calls)
  | .leave tables resetErr => m.leave tables resetErr
  | .close resetErr => (m, m.close resetErr)

/-- A run of calls: the manager after it, and the log of its client calls. -/
def BRContextManager.run (m : BRContextManager) :
    List ContextEvent → BRContextManager × List PlacementCall
  | [] => (m, [])
  | e :: es =>
      let (m', calls) := m.step e
      let (m'', rest) := m'.run es
      (m'', calls ++ rest)

/-! ## Armed tables -/

/-- Whether table `t` is armed after one more call. -/
def armedAfter (t : Int) (armed : Bool) : PlacementCall → Bool
  | .setup ts => armed || t ∈ ts
  | .wait _ => armed
  | .reset ts _ => armed && t ∉ ts

/-- Table `t` is armed after a log: its rules were asked for, and not reset since. -/
def armed (log : List PlacementCall) (t : Int) : Bool := log.foldl (armedAfter t) false

@[simp] theorem armed_append (l₁ l₂ : List PlacementCall) (t : Int) :
    armed (l₁ ++ l₂) t = l₂.foldl (armedAfter t) (armed l₁ t) :=
  List.foldl_append _ _ _ _

/-- Whether table `t` is live after one more call: only a reset that succeeded removes its
rules. -/
def liveAfter (t : Int) (live : Bool) : PlacementCall → Bool
  | .setup ts => live || t ∈ ts
  | .wait _ => live
  | .reset ts err => live && (t ∉ ts || err.isSome)

/-- Table `t` is live after a log: its rules were asked for, and no reset of them has
succeeded since. -/
def live (log : List PlacementCall) (t : Int) : Bool := log.foldl (liveAfter t) false

@[simp] theorem live_append (l₁ l₂ : List PlacementCall) (t : Int) :
    live (l₁ ++ l₂) t = l₂.foldl (liveAfter t) (live l₁ t) :=
  List.foldl_append _ _ _ _

/-- A `ResetPlacementRules` naming `t` failed somewhere in the log. -/
def resetFailed (log : List PlacementCall) (t : Int) : Prop :=
  ∃ ts e, PlacementCall.reset ts (some e) ∈ log ∧ t ∈ ts

theorem resetFailed_append {log : List PlacementCall} {t : Int} (h : resetFailed log t)
    (calls : List PlacementCall) : resetFailed (log ++ calls) t := by
  obtain ⟨ts, e, hmem, ht⟩ := h
  exact ⟨ts, e, List.mem_append_left _ hmem, ht⟩

/-- What the manager knows of the rules it asked for: every armed table is in `hasTable`. -/
def BRContextManager.Covers (m : BRContextManager) (log : List PlacementCall) : Prop :=
  ∀ t, armed log t = true → t ∈ m.hasTable

theorem BRContextManager.mem_insert {m : BRContextManager} {t t' : Int} :
    t' ∈ (m.insert t).hasTable ↔ t' ∈ m.hasTable ∨ t' = t := by
  unfold BRContextManager.insert
  split <;> simp_all [or_iff_left_of_imp]

theorem BRContextManager.enterLoop_spec : ∀ (ts : List Int) {m m' : BRContextManager}
    {acc out : List Int}, m.enterLoop acc ts = (m', out) →
    (∀ t, t ∈ m'.hasTable ↔ t ∈ m.hasTable ∨ t ∈ ts) ∧
    ∃ new, out = acc ++ new ∧ new.Nodup ∧ ∀ t, t ∈ new ↔ t ∉ m.hasTable ∧ t ∈ ts
  | [], m, m', acc, out, h => by
      cases h
      exact ⟨by simp, [], by simp, List.nodup_nil, by simp⟩
  | t :: ts, m, m', acc, out, h => by
      obtain ⟨hmem, new, rfl, hnd, hnew⟩ := BRContextManager.enterLoop_spec ts h
      refine ⟨fun t' => by rw [hmem, BRContextManager.mem_insert, List.mem_cons]; tauto, ?_⟩
      -- a table already in `hasTable` is skipped; a new one is set up, and is then in it
      have hin : t ∈ (m.insert t).hasTable := BRContextManager.mem_insert.2 (.inr rfl)
      by_cases ht : t ∈ m.hasTable
      · refine ⟨new, by simp [ht], hnd, fun t' => ?_⟩
        by_cases h : t' = t <;> simp [hnew, BRContextManager.mem_insert, ht, h]
      · refine ⟨t :: new, by simp [ht], List.nodup_cons.2 ⟨fun h => ((hnew t).1 h).1 hin, hnd⟩,
          fun t' => ?_⟩
        by_cases h : t' = t <;> simp [hnew, BRContextManager.mem_insert, ht, h]

theorem BRContextManager.mem_foldl_delete : ∀ (ts : List Int) (m : BRContextManager) (t : Int),
    t ∈ (ts.foldl BRContextManager.delete m).hasTable ↔ t ∈ m.hasTable ∧ t ∉ ts
  | [], _, _ => by simp
  | t' :: ts, m, t => by
      rw [List.foldl_cons, BRContextManager.mem_foldl_delete ts, BRContextManager.delete,
        m.nodup.mem_erase_iff]
      simp only [List.mem_cons, not_or]
      tauto

/-- What the manager still knows of the rules that may be in place: a live table is in
`hasTable`, unless a reset naming it failed. -/
def BRContextManager.Tracks (m : BRContextManager) (log : List PlacementCall) : Prop :=
  ∀ t, live log t = true → t ∈ m.hasTable ∨ resetFailed log t

theorem BRContextManager.run_preserves (P : BRContextManager → List PlacementCall → Prop)
    (hstep : ∀ m log e, P m log → P (m.step e).1 (log ++ (m.step e).2)) :
    ∀ (es : List ContextEvent) {m : BRContextManager} {log : List PlacementCall}, P m log →
      P (m.run es).1 (log ++ (m.run es).2)
  | [], _, _, hm => by simpa [BRContextManager.run] using hm
  | e :: es, m, log, hm => by
      simpa [BRContextManager.run, List.append_assoc] using
        BRContextManager.run_preserves P hstep es (hstep m log e hm)

theorem BRContextManager.run_append (m : BRContextManager) : ∀ (es es' : List ContextEvent),
    m.run (es ++ es') = ((m.run es).1.run es').map id ((m.run es).2 ++ ·)
  | [], _ => by simp [BRContextManager.run, Prod.map]
  | e :: es, es' => by
      simp [BRContextManager.run, BRContextManager.run_append _ es es', Prod.map]

/-! ## What each call keeps -/

section Step

variable {m : BRContextManager} {log : List PlacementCall}

theorem BRContextManager.enter_spec {m' : BRContextManager} {calls : List PlacementCall}
    {tables : List Int} {setupErr waitErr err : Option String}
    (h : m.enter tables setupErr waitErr = (m', calls, err)) :
    (∀ t, t ∈ m'.hasTable ↔ t ∈ m.hasTable ∨ t ∈ tables) ∧
      ∃ new, (calls = [.setup new] ∨ calls = [.setup new, .wait new]) ∧
        ∀ t, t ∈ new → t ∈ tables := by
  simp only [BRContextManager.enter, Prod.mk.injEq] at h
  obtain ⟨rfl, rfl, -⟩ := h
  obtain ⟨hmem, new, hout, -, hnew⟩ := @BRContextManager.enterLoop_spec tables m _ [] _ rfl
  refine ⟨hmem, new, ?_, fun t ht => ((hnew t).1 ht).2⟩
  rw [hout, List.nil_append]
  cases setupErr <;> simp [splitPrepareWork]

theorem BRContextManager.enter_covers {m' : BRContextManager} {calls : List PlacementCall}
    {tables : List Int} {setupErr waitErr err : Option String} (hm : m.Covers log)
    (h : m.enter tables setupErr waitErr = (m', calls, err)) : m'.Covers (log ++ calls) := by
  obtain ⟨hmem, new, hcalls, hnew⟩ := BRContextManager.enter_spec h
  intro t ht
  have ht' : armed log t = true ∨ t ∈ new := by
    rcases hcalls with rfl | rfl <;> simpa [armedAfter] using ht
  exact (hmem t).2 (ht'.imp (hm t) (hnew t))

theorem BRContextManager.enter_tracks {m' : BRContextManager} {calls : List PlacementCall}
    {tables : List Int} {setupErr waitErr err : Option String} (hm : m.Tracks log)
    (h : m.enter tables setupErr waitErr = (m', calls, err)) : m'.Tracks (log ++ calls) := by
  obtain ⟨hmem, new, hcalls, hnew⟩ := BRContextManager.enter_spec h
  intro t ht
  have ht' : live log t = true ∨ t ∈ new := by
    rcases hcalls with rfl | rfl <;> simpa [liveAfter] using ht
  rcases ht' with ht' | ht'
  · exact (hm t ht').imp (fun h => (hmem t).2 (.inl h)) (resetFailed_append · calls)
  · exact .inl ((hmem t).2 (.inr (hnew t ht')))

theorem BRContextManager.leave_covers {tables : List Int} {resetErr : Option String}
    (hm : m.Covers log) : (m.leave tables resetErr).1.Covers (log ++ (m.leave tables resetErr).2) := by
  intro t ht
  simp only [BRContextManager.leave, splitPostWork, armed_append, List.foldl_cons, List.foldl_nil,
    armedAfter, Bool.and_eq_true, decide_eq_true_eq] at ht
  exact (BRContextManager.mem_foldl_delete tables m t).2 ⟨hm t ht.1, ht.2⟩

theorem BRContextManager.leave_tracks {tables : List Int} {resetErr : Option String}
    (hm : m.Tracks log) : (m.leave tables resetErr).1.Tracks (log ++ (m.leave tables resetErr).2) := by
  intro t ht
  simp only [BRContextManager.leave, splitPostWork, live_append, List.foldl_cons, List.foldl_nil,
    liveAfter, Bool.and_eq_true, Bool.or_eq_true, decide_eq_true_eq] at ht
  obtain ⟨hlive, hout | hfail⟩ := ht
  · exact (hm t hlive).imp (fun h => (BRContextManager.mem_foldl_delete tables m t).2 ⟨h, hout⟩)
      (resetFailed_append · _)
  · by_cases ht : t ∈ tables
    · obtain ⟨e, he⟩ := Option.isSome_iff_exists.1 hfail
      exact .inr ⟨tables, e, by simp [BRContextManager.leave, splitPostWork, he], ht⟩
    · exact (hm t hlive).imp (fun h => (BRContextManager.mem_foldl_delete tables m t).2 ⟨h, ht⟩)
        (resetFailed_append · _)

theorem BRContextManager.close_disarms {resetErr : Option String} (hm : m.Covers log) (t : Int) :
    armed (log ++ m.close resetErr) t = false := by
  simp only [BRContextManager.close, splitPostWork, armed_append, List.foldl_cons, List.foldl_nil,
    armedAfter, Bool.and_eq_false_iff, decide_eq_false_iff_not, not_not]
  cases ha : armed log t
  · exact .inl rfl
  · exact .inr (hm t ha)

theorem BRContextManager.close_live {resetErr : Option String} (hm : m.Tracks log) {t : Int}
    (ht : live (log ++ m.close resetErr) t = true) : resetFailed (log ++ m.close resetErr) t := by
  simp only [BRContextManager.close, splitPostWork, live_append, List.foldl_cons, List.foldl_nil,
    liveAfter, Bool.and_eq_true, Bool.or_eq_true, decide_eq_true_eq] at ht
  obtain ⟨hlive, hout | hfail⟩ := ht
  · exact ((hm t hlive).resolve_left hout).elim fun ts h => ⟨ts, h.imp fun _ h' =>
      ⟨List.mem_append_left _ h'.1, h'.2⟩⟩
  · obtain ⟨e, he⟩ := Option.isSome_iff_exists.1 hfail
    rcases hm t hlive with hin | hprev
    · exact ⟨m.hasTable, e, by simp [BRContextManager.close, splitPostWork, he], hin⟩
    · exact resetFailed_append hprev _

theorem BRContextManager.step_covers (hm : m.Covers log) :
    ∀ e, (m.step e).1.Covers (log ++ (m.step e).2)
  | .enter _ _ _ => BRContextManager.enter_covers hm (Prod.ext rfl rfl)
  | .leave _ _ => BRContextManager.leave_covers hm
  | .close _ => fun t ht => by simp [BRContextManager.step, BRContextManager.close_disarms hm] at ht

theorem BRContextManager.step_tracks (hm : m.Tracks log) :
    ∀ e, (m.step e).1.Tracks (log ++ (m.step e).2)
  | .enter _ _ _ => BRContextManager.enter_tracks hm (Prod.ext rfl rfl)
  | .leave _ _ => BRContextManager.leave_tracks hm
  | .close _ => fun _ ht => .inr (BRContextManager.close_live hm ht)

end Step

/-! ## The manager's guarantees -/

theorem BRContextManager.armed_mem (es : List ContextEvent) :
    (BRContextManager.empty.run es).1.Covers (BRContextManager.empty.run es).2 := by
  simpa using BRContextManager.run_preserves BRContextManager.Covers
    (fun _ _ e hm => BRContextManager.step_covers hm e) es
    (show BRContextManager.empty.Covers [] from fun _ h => by simp [armed] at h)

/-- In every reachable state, a table whose rules may still be in place is in `hasTable`, or
a reset naming it failed. -/
theorem BRContextManager.live_tracked (es : List ContextEvent) :
    (BRContextManager.empty.run es).1.Tracks (BRContextManager.empty.run es).2 := by
  simpa using BRContextManager.run_preserves BRContextManager.Tracks
    (fun _ _ e hm => BRContextManager.step_tracks hm e) es
    (show BRContextManager.empty.Tracks [] from fun _ h => by simp [live] at h)

/-- In every run, `Enter` asks `SetupPlacementRules` for exactly the tables it names that are
not in `hasTable`, once each, and for no armed table: a table's placement rules are never set
up twice without a reset in between. -/
theorem BRContextManager.enter_sets_up_fresh {es : List ContextEvent} {m : BRContextManager}
    {log : List PlacementCall} (h : BRContextManager.empty.run es = (m, log)) (tables : List Int)
    (setupErr waitErr : Option String) :
    ∃ new, (m.enter tables setupErr waitErr).2.1.head? = some (.setup new) ∧ new.Nodup ∧
      (∀ t, t ∈ new ↔ t ∉ m.hasTable ∧ t ∈ tables) ∧ ∀ t ∈ new, armed log t = false := by
  have hcov : m.Covers log := by simpa [h] using BRContextManager.armed_mem es
  obtain ⟨-, new, hout, hnd, hnew⟩ := @BRContextManager.enterLoop_spec tables m _ [] _ rfl
  refine ⟨new, ?_, hnd, hnew, fun t ht => ?_⟩
  · cases setupErr <;> simp [BRContextManager.enter, splitPrepareWork, hout]
  · cases ha : armed log t
    · rfl
    · exact absurd (hcov t ha) ((hnew t).1 ht).1

/-- Tables 1 and 2 entered, then table 1 left. -/
def reenterRun : List ContextEvent := [.enter [1, 2] none none, .leave [1] none]

/-- After `reenterRun`, entering 1, 2, 1, 3 sets up 1 and 3 only. -/
theorem reenter_sets_up_left_tables :
    (BRContextManager.empty.run reenterRun).1.hasTable = [2] ∧
      ((BRContextManager.empty.run reenterRun).1.enter [1, 2, 1, 3] none none).2.1 =
        [.setup [1, 3], .wait [1, 3]] ∧
      ∃ new, ((BRContextManager.empty.run reenterRun).1.enter [1, 2, 1, 3] none none).2.1.head? =
          some (.setup new) ∧ new.Nodup ∧
        (∀ t, t ∈ new ↔ t ∉ (BRContextManager.empty.run reenterRun).1.hasTable ∧
          t ∈ [1, 2, 1, 3]) ∧
        ∀ t ∈ new, armed (BRContextManager.empty.run reenterRun).2 t = false :=
  ⟨by decide, by decide,
    BRContextManager.enter_sets_up_fresh Prod.mk.eta.symm [1, 2, 1, 3] none none⟩

/-- After `Close`, whatever the calls before it and whatever the client returned, a table's
placement rules may be left in place only if a `ResetPlacementRules` naming it failed.  A
reset that fails in `Leave` does leave them: `Leave` drops the table from `hasTable`
whatever the reset returned, so `Close` never names it again. -/
theorem BRContextManager.close_keeps_failed_resets (es : List ContextEvent)
    (closeErr : Option String) (t : Int) :
    (live (BRContextManager.empty.run (es ++ [.close closeErr])).2 t = true →
        resetFailed (BRContextManager.empty.run (es ++ [.close closeErr])).2 t) ∧
      ∀ ts e, t ∈ ts →
        live (BRContextManager.empty.run (es ++ [.leave ts (some e), .close closeErr])).2 t =
          live (BRContextManager.empty.run es).2 t := by
  refine ⟨fun ht => ?_, fun ts e hts => ?_⟩
  · simp only [BRContextManager.run_append, BRContextManager.run, BRContextManager.step,
      Prod.map, id, List.append_nil] at ht ⊢
    exact BRContextManager.close_live (BRContextManager.live_tracked es) ht
  · have hout : t ∉ (ts.foldl BRContextManager.delete (BRContextManager.empty.run es).1).hasTable :=
      fun h => ((BRContextManager.mem_foldl_delete ts _ t).1 h).2 hts
    simp only [BRContextManager.run_append, BRContextManager.run, BRContextManager.step,
      BRContextManager.close, splitPostWork, Prod.map, id, List.append_nil, live_append]
    simp [BRContextManager.leave, splitPostWork, liveAfter, hout]

/-- Table 1 entered, then left with a failed reset, then `Close`: its rules are still live. -/
theorem failed_leave_stays_live :
    live (BRContextManager.empty.run
        ([.enter [1] none none, .leave [1] (some "timeout")] ++ [.close none])).2 1 = true ∧
      resetFailed (BRContextManager.empty.run
        ([.enter [1] none none, .leave [1] (some "timeout")] ++ [.close none])).2 1 ∧
      live (BRContextManager.empty.run
        ([.enter [1] none none] ++ [.leave [1] (some "timeout"), .close none])).2 1 =
        live (BRContextManager.empty.run [.enter [1] none none]).2 1 := by
  have hlive : live (BRContextManager.empty.run
      ([.enter [1] none none, .leave [1] (some "timeout")] ++ [.close none])).2 1 = true := by
    decide
  exact ⟨hlive,
    (BRContextManager.close_keeps_failed_resets [.enter [1] none none, .leave [1] (some "timeout")]
      none 1).1 hlive,
    (BRContextManager.close_keeps_failed_resets [.enter [1] none none] none 1).2 [1] "timeout"
      (by decide)⟩

end BackupCli
