/-
# `BackupCli.Conn.Mgr` — the connection cache of `Mgr`

`GetBackupClient`, `ResetBackupClient` and `getGrpcConnLocked` of `Mgr`
(`pkg/rtree/logging.go`, lines 260–366).  Both calls run under `grpcClis.mu`, so any
concurrent use is a sequence of calls, and each call is a function of the manager.

A dial is `GetStore` followed by a blocking `DialContext`; attempt number `m.dials` fails
with `dialErr m.dials`, or opens a new connection.  The model keeps every connection ever
dialed with whether it is open, and a log of the dials and closes the manager performs; the
TLS and keepalive options, the failpoint, the backoff sleeps and the clients built on the
connections are left out.

## What is proved

* `Mgr.Inv` — the cache maps a store to a connection exactly when that connection is open
  and was dialed for that store.  `Mgr.run_inv`: it holds after every sequence of calls.
* `getBackupClient_log` — `GetBackupClient` dials only a store with nothing cached.
* `resetBackupClient_log` — `ResetBackupClient` closes the cached connection before its
  dials, which are all of that store.
* `Mgr.close_closes_all` — after any sequence of calls, `Close` closes each cached
  connection exactly once and leaves no connection open.  `Close` ranges over the map's
  entries; that no connection is visited twice is the injectivity the invariant gives the
  map (`Mgr.Inv.clis_inj`).
-/
import Mathlib.Logic.Function.Basic
import Mathlib.Data.List.Basic
import Mathlib.Data.List.Dedup

namespace BackupCli

/-- What the manager does to the outside: dial a store (the new connection, or `none` when
the dial failed), or `Close` a connection. -/
inductive ConnAction
  | dial (storeID : Nat) (conn : Option Nat)
  | close (conn : Nat)
deriving DecidableEq, Repr

/-- `Mgr`, by its connection cache. -/
structure Mgr where
  /-- `grpcClis.clis`: the connection cached for each store. -/
  clis : Nat → Option Nat
  /-- Every connection dialed, by creation: its store, and whether it is open. -/
  conns : List (Nat × Bool)
  /-- Dial attempts so far. -/
  dials : Nat
  /-- The dials and closes, oldest first. -/
  log : List ConnAction

/-- The manager `NewMgr` returns: `make(map[uint64]*grpc.ClientConn)`. -/
def Mgr.init : Mgr := ⟨fun _ => none, [], 0, []⟩

/-- `clis[storeID] = conn`. -/
def Mgr.cache (m : Mgr) (storeID conn : Nat) : Mgr :=
  { m with clis := Function.update m.clis storeID (some conn) }

/-- `conn.Close()` (its error ignored) and `delete(clis, storeID)`. -/
def Mgr.evict (m : Mgr) (storeID conn : Nat) : Mgr :=
  { m with clis := Function.update m.clis storeID none,
           conns := m.conns.modify (fun p => (p.1, false)) conn, log := m.log ++ [.close conn] }

section Calls
variable (dialErr : Nat → Option String) (resetRetryTimes : Nat)

/-- `getGrpcConnLocked(ctx, storeID)`: a new open connection, or the attempt's error. -/
def getGrpcConnLocked (storeID : Nat) (m : Mgr) : Except String Nat × Mgr :=
  match dialErr m.dials with
  | some e => (.error e, { m with dials := m.dials + 1, log := m.log ++ [.dial storeID none] })
  | none =>
      (.ok m.conns.length,
        { m with conns := m.conns ++ [(storeID, true)], dials := m.dials + 1,
                 log := m.log ++ [.dial storeID (some m.conns.length)] })

/-- `GetBackupClient(ctx, storeID)`, with `ctxErr` for `ctx.Err()`: the connection the
client is made on. -/
def getBackupClient (ctxErr : Option String) (storeID : Nat) (m : Mgr) : Except String Nat × Mgr :=
  match ctxErr with
  | some e => (.error e, m)
  | none =>
      match m.clis storeID with
      | some conn => (.ok conn, m)
      | none =>
          match getGrpcConnLocked dialErr storeID m with
          | (.error e, m) => (.error e, m)
          | (.ok conn, m) => (.ok conn, m.cache storeID conn)

/-- The retry loop of `ResetBackupClient`: up to `k` dial attempts, the first connection
made is cached.  The pair is `(conn, err)` as the loop leaves them. -/
def resetRetry (storeID : Nat) :
    Nat → Option Nat × Option String → Mgr → (Option Nat × Option String) × Mgr
  | 0, acc, m => (acc, m)
  | k + 1, _, m =>
      match getGrpcConnLocked dialErr storeID m with
      | (.error e, m) => resetRetry storeID k (none, some e) m
      | (.ok conn, m) => ((some conn, none), m.cache storeID conn)

/-- `ResetBackupClient(ctx, storeID)`: close and forget the cached connection, then up to
`resetRetryTimes` dial attempts.  With no attempt at all it returns a client on a nil
connection (`.ok none`). -/
def resetBackupClient (ctxErr : Option String) (storeID : Nat) (m : Mgr) :
    Except String (Option Nat) × Mgr :=
  match ctxErr with
  | some e => (.error e, m)
  | none =>
      let m := match m.clis storeID with
        | some conn => m.evict storeID conn
        | none => m
      match resetRetry dialErr storeID resetRetryTimes (none, none) m with
      | ((_, some e), m) => (.error e, m)
      | ((conn, none), m) => (.ok conn, m)

/-- A call of either kind. -/
inductive MgrCall
  | get (ctxErr : Option String) (storeID : Nat)
  | reset (ctxErr : Option String) (storeID : Nat)
deriving DecidableEq, Repr

/-- The manager after a call. -/
def Mgr.call (m : Mgr) : MgrCall → Mgr
  | .get ctxErr storeID => (getBackupClient dialErr ctxErr storeID m).2
  | .reset ctxErr storeID => (resetBackupClient dialErr resetRetryTimes ctxErr storeID m).2

/-- The manager after a sequence of calls. -/
def Mgr.run (m : Mgr) (calls : List MgrCall) : Mgr := calls.foldl (Mgr.call dialErr resetRetryTimes) m

end Calls

/-! ## The cache invariant -/

/-- The cache holds a store's connection exactly when that connection is open and was
dialed for that store: so what it holds is open, and an open connection is never lost. -/
def Mgr.Inv (m : Mgr) : Prop := ∀ s c, m.clis s = some c ↔ m.conns[c]? = some (s, true)

theorem Mgr.init_inv : Mgr.init.Inv := fun s c => by simp [Mgr.init]

theorem Mgr.Inv.congr {m m' : Mgr} (hm : m.Inv) (hc : m'.clis = m.clis)
    (hn : m'.conns = m.conns) : m'.Inv := by
  intro s c
  rw [hc, hn]
  exact hm s c

theorem Mgr.Inv.connect {m m' : Mgr} (hm : m.Inv) {s : Nat} (hs : m.clis s = none)
    (hc : m'.clis = m.clis) (hn : m'.conns = m.conns ++ [(s, true)]) :
    (m'.cache s m.conns.length).Inv := by
  intro s' c
  simp only [Mgr.cache, Function.update_apply, hc, hn]
  rcases lt_trichotomy c m.conns.length with hc | rfl | hc
  · rw [List.getElem?_append_left hc, ← hm s' c]
    split_ifs with hs'
    · subst hs'
      simp [hs, Nat.ne_of_gt hc]
    · rfl
  · rw [List.getElem?_append_right le_rfl, Nat.sub_self]
    split_ifs with hs'
    · subst hs'
      simp
    · have : m.clis s' ≠ some m.conns.length := fun h => by simpa using (hm s' _).1 h
      simp [this, Ne.symm hs']
  · rw [List.getElem?_eq_none (by simp; omega)]
    split_ifs with hs'
    · simp [Nat.ne_of_lt hc]
    · have : m.clis s' ≠ some c := fun h => by
        simpa [List.getElem?_eq_none hc.le] using (hm s' c).1 h
      simp [this]

theorem Mgr.Inv.evict {m : Mgr} (hm : m.Inv) {s c : Nat} (hs : m.clis s = some c) :
    (m.evict s c).Inv := by
  have hc := (hm s c).1 hs
  intro s' c'
  simp only [Mgr.evict, Function.update_apply, List.getElem?_modify]
  by_cases hcc : c = c'
  · -- the connection closed is no longer open
    subst hcc
    simp only [hc, if_true, Option.map_eq_map, Option.map_some', Option.some.injEq,
      Prod.mk.injEq, Bool.false_eq_true, and_false, iff_false]
    split_ifs with hs'
    · simp
    · intro h
      have := (hm s' c).1 h
      rw [hc, Option.some.injEq, Prod.mk.injEq] at this
      exact hs' this.1.symm
  · simp only [hcc, if_false, id_map']
    split_ifs with hs'
    · subst hs'
      refine ⟨(fun h => by cases h), fun h => ?_⟩
      have := (hm s' c').2 h
      rw [hs] at this
      exact absurd (Option.some.inj this) hcc
    · exact hm s' c'

theorem getGrpcConnLocked_cases (dialErr : Nat → Option String) (s : Nat) (m : Mgr) :
    (∃ e, getGrpcConnLocked dialErr s m =
      (.error e, { m with dials := m.dials + 1, log := m.log ++ [.dial s none] })) ∨
    getGrpcConnLocked dialErr s m =
      (.ok m.conns.length, { m with conns := m.conns ++ [(s, true)], dials := m.dials + 1,
                                    log := m.log ++ [.dial s (some m.conns.length)] }) := by
  unfold getGrpcConnLocked
  cases dialErr m.dials with
  | some e => exact .inl ⟨e, rfl⟩
  | none => exact .inr rfl

section Calls
variable (dialErr : Nat → Option String) (resetRetryTimes : Nat)

theorem getBackupClient_inv {m : Mgr} (hm : m.Inv) (ctxErr : Option String) (s : Nat) :
    (getBackupClient dialErr ctxErr s m).2.Inv := by
  unfold getBackupClient
  cases ctxErr with
  | some e => exact hm
  | none =>
      cases hs : m.clis s with
      | some c => exact hm
      | none =>
          rcases getGrpcConnLocked_cases dialErr s m with ⟨e, h⟩ | h <;> rw [h]
          · exact hm.congr rfl rfl
          · exact hm.connect hs rfl rfl

theorem resetRetry_spec (s : Nat) : ∀ (k : Nat) (acc : Option Nat × Option String) (m : Mgr),
    m.Inv → m.clis s = none →
    (resetRetry dialErr s k acc m).2.Inv ∧
      (∃ t, (resetRetry dialErr s k acc m).2.conns = m.conns ++ t) ∧
      ∃ dials, (resetRetry dialErr s k acc m).2.log = m.log ++ dials ∧
        ∀ a ∈ dials, ∃ r, a = .dial s r
  | 0, acc, m, hm, _ => ⟨hm, ⟨[], by simp [resetRetry]⟩, [], by simp [resetRetry], by simp⟩
  | k + 1, acc, m, hm, hs => by
      simp only [resetRetry]
      rcases getGrpcConnLocked_cases dialErr s m with ⟨e, h⟩ | h <;> rw [h] <;> dsimp only
      · obtain ⟨hi, ⟨t, ht⟩, dials, hl, hd⟩ := resetRetry_spec s k (none, some e)
          { m with dials := m.dials + 1, log := m.log ++ [.dial s none] } (hm.congr rfl rfl) hs
        refine ⟨hi, ⟨t, ht⟩, .dial s none :: dials, by simp [hl], ?_⟩
        rintro a (_ | ⟨_, ha⟩)
        · exact ⟨none, rfl⟩
        · exact hd a ha
      · refine ⟨hm.connect hs rfl rfl, ⟨[(s, true)], rfl⟩, [.dial s (some m.conns.length)],
          rfl, ?_⟩
        simp

theorem resetBackupClient_inv {m : Mgr} (hm : m.Inv) (ctxErr : Option String) (s : Nat) :
    (resetBackupClient dialErr resetRetryTimes ctxErr s m).2.Inv := by
  unfold resetBackupClient
  cases ctxErr with
  | some e => exact hm
  | none =>
      have key : ∀ m' : Mgr, m'.Inv → m'.clis s = none →
          (match resetRetry dialErr s resetRetryTimes (none, none) m' with
            | ((_, some e), m) => ((.error e, m) : Except String (Option Nat) × Mgr)
            | ((conn, none), m) => (.ok conn, m)).2.Inv := fun m' hm' hs' => by
        have := (resetRetry_spec dialErr s resetRetryTimes (none, none) m' hm' hs').1
        split <;> simp_all
      cases hs : m.clis s with
      | none => exact key m hm hs
      | some c => exact key _ (hm.evict hs) (by simp [Mgr.evict])

/-- The invariant holds after every sequence of calls. -/
theorem Mgr.run_inv (calls : List MgrCall) : (Mgr.init.run dialErr resetRetryTimes calls).Inv := by
  suffices ∀ m : Mgr, m.Inv → (m.run dialErr resetRetryTimes calls).Inv from this _ Mgr.init_inv
  induction calls with
  | nil => exact fun m hm => hm
  | cons call calls ih =>
      intro m hm
      apply ih
      cases call with
      | get ctxErr s => exact getBackupClient_inv dialErr hm ctxErr s
      | reset ctxErr s => exact resetBackupClient_inv dialErr resetRetryTimes hm ctxErr s

theorem getBackupClient_log (m : Mgr) (ctxErr : Option String) (s : Nat) :
    (getBackupClient dialErr ctxErr s m).2.log = m.log ∨
      ctxErr = none ∧ m.clis s = none ∧
        ∃ r, (getBackupClient dialErr ctxErr s m).2.log = m.log ++ [.dial s r] := by
  unfold getBackupClient
  cases ctxErr with
  | some e => exact .inl rfl
  | none =>
      cases hs : m.clis s with
      | some c => exact .inl rfl
      | none =>
          rcases getGrpcConnLocked_cases dialErr s m with ⟨e, h⟩ | h <;> rw [h]
          · exact .inr ⟨rfl, rfl, none, rfl⟩
          · exact .inr ⟨rfl, rfl, _, rfl⟩

theorem resetBackupClient_log {m : Mgr} (hm : m.Inv) {s c : Nat} (hs : m.clis s = some c) :
    let m' := (resetBackupClient dialErr resetRetryTimes none s m).2
    (∃ dials, m'.log = m.log ++ .close c :: dials ∧ ∀ a ∈ dials, ∃ r, a = .dial s r) ∧
      m'.conns[c]? = some (s, false) := by
  have hc := (hm s c).1 hs
  obtain ⟨-, ⟨t, ht⟩, dials, hl, hd⟩ := resetRetry_spec dialErr s resetRetryTimes (none, none)
    _ (hm.evict hs) (by simp [Mgr.evict])
  have hev : (m.evict s c).conns[c]? = some (s, false) := by
    simp [Mgr.evict, List.getElem?_modify, hc]
  have hlt : c < (m.evict s c).conns.length := (List.getElem?_eq_some_iff.1 hev).1
  simp only [resetBackupClient, hs]
  split <;> rename_i h <;> rw [h] at hl ht <;> simp only at hl ht ⊢ <;>
    exact ⟨⟨dials, by simp [hl, Mgr.evict], hd⟩, by rw [ht, List.getElem?_append_left hlt, hev]⟩

end Calls

/-- The connection cache of `Mgr`, over every sequence of calls and every outcome of every
dial: after each call the cache holds at most one connection per store, open, and every
open connection is the one cached for its store; `GetBackupClient` dials only a store with
nothing cached; `ResetBackupClient` closes the cached connection before it dials. -/
theorem mgr_connection_cache (dialErr : Nat → Option String) (resetRetryTimes : Nat) :
    (∀ calls, (Mgr.init.run dialErr resetRetryTimes calls).Inv) ∧
    (∀ m ctxErr s, (getBackupClient dialErr ctxErr s m).2.log ≠ m.log →
      ctxErr = none ∧ m.clis s = none) ∧
    (∀ m s c, m.Inv → m.clis s = some c →
      (∃ dials, (resetBackupClient dialErr resetRetryTimes none s m).2.log =
          m.log ++ .close c :: dials ∧ ∀ a ∈ dials, ∃ r, a = .dial s r) ∧
        (resetBackupClient dialErr resetRetryTimes none s m).2.conns[c]? = some (s, false)) := by
  refine ⟨Mgr.run_inv dialErr resetRetryTimes, fun m ctxErr s h => ?_,
    fun m s c hm hs => resetBackupClient_log dialErr resetRetryTimes hm hs⟩
  rcases getBackupClient_log dialErr m ctxErr s with h' | ⟨hc, hs, -⟩
  · exact absurd h' h
  · exact ⟨hc, hs⟩

/-- Every dial succeeding: the first `GetBackupClient` of store 1 dials it, and a
`ResetBackupClient` after it closes the cached connection 0 before dialing store 1 again. -/
theorem mgr_get_then_reset :
    (getBackupClient (fun _ => none) none 1 Mgr.init).2.log ≠ Mgr.init.log ∧
      Mgr.init.clis 1 = none ∧
      (Mgr.init.run (fun _ => none) 1 [.get none 1]).clis 1 = some 0 ∧
      (∃ dials, (resetBackupClient (fun _ => none) 1 none 1
          (Mgr.init.run (fun _ => none) 1 [.get none 1])).2.log =
          (Mgr.init.run (fun _ => none) 1 [.get none 1]).log ++ .close 0 :: dials ∧
        ∀ a ∈ dials, ∃ r, a = .dial 1 r) ∧
      (resetBackupClient (fun _ => none) 1 none 1
        (Mgr.init.run (fun _ => none) 1 [.get none 1])).2.conns[0]? = some (1, false) := by
  have h := mgr_connection_cache (fun _ => none) 1
  have hlog : (getBackupClient (fun _ => none) none 1 Mgr.init).2.log ≠ Mgr.init.log := by
    decide
  exact ⟨hlog, (h.2.1 _ _ _ hlog).2, rfl, h.2.2 _ 1 0 (h.1 [.get none 1]) rfl⟩


/-! ## `Close` -/

/-- The keys of `grpcClis.clis`, each once: the stores of `conns` with a cached connection.
Under the cache invariant these are all the keys (`Mgr.mem_cachedStores`).  Go ranges over
a map in no fixed order; the model takes this one. -/
def Mgr.cachedStores (m : Mgr) : List Nat :=
  (m.conns.map Prod.fst).dedup.filter fun s => (m.clis s).isSome

/-- `cli.Close()` on one connection, its error only logged. -/
def Mgr.closeConn (m : Mgr) (c : Nat) : Mgr :=
  { m with conns := m.conns.modify (fun p => (p.1, false)) c, log := m.log ++ [.close c] }

/-- `Close()`: `cli.Close()` on the value of every entry of `grpcClis.clis`, the map left as
it is.  The domain, the storage and the PD controller it closes next are outside the
model. -/
def Mgr.close (m : Mgr) : Mgr := (m.cachedStores.filterMap m.clis).foldl Mgr.closeConn m

theorem Mgr.mem_cachedStores {m : Mgr} (hm : m.Inv) {s : Nat} :
    s ∈ m.cachedStores ↔ (m.clis s).isSome := by
  simp only [Mgr.cachedStores, List.mem_filter, List.mem_dedup, List.mem_map, and_iff_right_iff_imp]
  intro hs
  obtain ⟨c, hc⟩ := Option.isSome_iff_exists.1 hs
  exact ⟨(s, true), List.getElem?_mem ((hm s c).1 hc), rfl⟩

theorem Mgr.Inv.clis_inj {m : Mgr} (hm : m.Inv) {s s' c : Nat} (hs : m.clis s = some c)
    (hs' : m.clis s' = some c) : s = s' := by
  have h := (hm s c).1 hs
  rw [(hm s' c).1 hs', Option.some.injEq, Prod.mk.injEq] at h
  exact h.1.symm

theorem Mgr.closed_values {m : Mgr} (hm : m.Inv) :
    (m.cachedStores.filterMap m.clis).Nodup ∧
      ∀ c, c ∈ m.cachedStores.filterMap m.clis ↔ ∃ s, m.clis s = some c := by
  refine ⟨((List.nodup_dedup _).filter _).filterMap fun s s' c hs hs' => hm.clis_inj hs hs',
    fun c => ⟨fun h => ?_, fun ⟨s, hs⟩ => List.mem_filterMap.2 ⟨s, ?_, hs⟩⟩⟩
  · obtain ⟨s, -, hs⟩ := List.mem_filterMap.1 h
    exact ⟨s, hs⟩
  · exact (Mgr.mem_cachedStores hm).2 (by simp [hs])

theorem Mgr.foldl_closeConn : ∀ (cs : List Nat) (m : Mgr),
    (cs.foldl Mgr.closeConn m).log = m.log ++ cs.map .close ∧
    ∀ c, (cs.foldl Mgr.closeConn m).conns[c]? =
      if c ∈ cs then m.conns[c]?.map (fun p => (p.1, false)) else m.conns[c]?
  | [], m => by simp
  | c' :: cs, m => by
      obtain ⟨hlog, hconns⟩ := Mgr.foldl_closeConn cs (m.closeConn c')
      refine ⟨by rw [List.foldl_cons, hlog]; simp [Mgr.closeConn], fun c => ?_⟩
      rw [List.foldl_cons, hconns]
      by_cases h1 : c' = c <;> by_cases h2 : c ∈ cs <;>
        simp [Mgr.closeConn, List.getElem?_modify, Function.comp_def, h1, h2, Ne.symm]

section Close
variable (dialErr : Nat → Option String) (resetRetryTimes : Nat)

/-- After any sequence of calls, `Close` closes each connection the cache holds exactly once
and leaves no connection open. -/
theorem Mgr.close_closes_all (calls : List MgrCall) :
    let m := Mgr.init.run dialErr resetRetryTimes calls
    (∀ (c s : Nat), m.close.conns[c]? ≠ some (s, true)) ∧
      ∃ closed : List Nat, m.close.log = m.log ++ closed.map .close ∧ closed.Nodup ∧
        ∀ c, c ∈ closed ↔ ∃ s, m.clis s = some c := by
  intro m
  have hm := Mgr.run_inv dialErr resetRetryTimes calls
  obtain ⟨hnodup, hmem⟩ := Mgr.closed_values hm
  obtain ⟨hlog, hconns⟩ := Mgr.foldl_closeConn (m.cachedStores.filterMap m.clis) m
  refine ⟨fun c s h => ?_, _, hlog, hnodup, hmem⟩
  rw [Mgr.close, hconns] at h
  split_ifs at h with hc
  · -- a connection closed by the loop is no longer open
    cases hx : m.conns[c]? <;> simp [hx] at h
  · -- any other open connection would be cached, and so closed by the loop
    exact hc ((hmem c).2 ⟨s, (hm s c).2 h⟩)

end Close

end BackupCli
