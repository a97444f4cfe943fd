/-
# `BackupCli.Duplicate.Remote` — what the duplicate manager talks to

`DuplicateManager` (`part_001`) drives three kinds of outside party: PD (region scans and
lookups), TiKV (duplicate-detect streams and batch gets), and the local pebble DB.  This
module fixes their interfaces and the monad the manager's code runs in.

* Every answer of the cluster, and whether a local batch commit succeeds, is read off a
  `Remote` at the ordinal of the call (`Ctx.tick`).  A theorem quantified over `Remote` holds
  for every behaviour of the cluster, in every order.
* The local DB is pebble's key-value map: `Set` overwrites (`DB.setAll_apply`: after a
  batch a key reads the value of its last set).
* Go's `nil` is `none` wherever the code builds slices of pointers with placeholders
  (`make([]*T, n)`); a nil `[]byte` is the empty byte string.
* `M` is `EStateM Stop Ctx`: a call returns, panics (a nil dereference or an index out of
  range, which kills the process), or runs out of the fuel that bounds its loops.  The
  state is kept on every outcome, so what was sent before a panic stays observable.
-/
import BackupCli.Codec.KeySuffix

namespace BackupCli

/-- `metapb.Peer`, by the store it is on. -/
structure Peer where
  storeId : Nat
deriving DecidableEq, Repr

/-- `split.RegionInfo`: the region's id, its range of encoded keys (an empty `endKey` is
unbounded), its peers and its leader (`nil` when unknown).  The epoch, which the code only
copies into request contexts, is left out. -/
structure RegionInfo where
  id : Nat
  startKey : Bytes
  endKey : Bytes
  peers : List Peer
  leader : Option Peer
deriving DecidableEq, Repr

/-- `model.SchemaState`. -/
inductive SchemaState
  | none | deleteOnly | writeOnly | writeReorganization | deleteReorganization | public
deriving DecidableEq, Repr

/-- `model.IndexInfo`, by the fields the manager reads. -/
structure IndexInfo where
  id : Int
  state : SchemaState
deriving DecidableEq, Repr

/-- `DuplicateRequest`: `indexID` is 0 and `indexInfo` nil for a table request. -/
structure DuplicateRequest where
  tableID : Int
  indexID : Int
  start : Bytes
  «end» : Bytes
  indexInfo : Option IndexInfo
deriving DecidableEq, Repr

/-- `import_sstpb.KvPair` of a duplicate-detect response. -/
structure KvPair where
  key : Bytes
  value : Bytes
  commitTs : Nat
deriving DecidableEq, Repr

/-- `import_sstpb.DuplicateDetectResponse`. -/
structure DuplicateDetectResponse where
  regionError : Option String
  keyError : Option String
  pairs : List KvPair
deriving DecidableEq, Repr

/-- One `cli.Recv()` of a duplicate-detect stream. -/
inductive Recv
  | resp (r : DuplicateDetectResponse)
  | eof
  | err (msg : String)
deriving DecidableEq, Repr

/-- An open duplicate-detect stream (`sst.ImportSST_DuplicateDetectClient`), named by the
call that opened it. -/
abbrev DuplicateDetectClient := Nat

/-- `kvrpcpb.BatchGetResponse`: a region error, a key error, and the pairs read. -/
structure BatchGetResponse where
  regionError : Option String
  error : Option String
  pairs : List (Bytes × Bytes)
deriving DecidableEq, Repr

/-- The cluster and the local disk, answering call number `t`.  An `.error` is the error
the Go call returns. -/
structure Remote where
  /-- `paginateScanRegion(ctx, splitCli, start, end, limit)`. -/
  scanRegions : Nat → Bytes → Bytes → Nat → Except String (List RegionInfo)
  /-- `splitCli.GetRegionByID(ctx, id)`. -/
  getRegionByID : Nat → Nat → Except String RegionInfo
  /-- `getImportClient` to `leader`, then `DuplicateDetect` for `[start, end)` of the
  region: `none` when the stream opened, else the error. -/
  duplicateDetect : Nat → Peer → RegionInfo → Bytes → Bytes → Option String
  /-- `cli.Recv()` on the stream `cli`. -/
  recv : Nat → DuplicateDetectClient → Recv
  /-- `getKvClient(region.Leader)`, then `KvBatchGet` of `keys` in the region. -/
  kvBatchGet : Nat → RegionInfo → List Bytes → Except String BatchGetResponse
  /-- `b.Commit(opts)` of a local batch: `none` when it succeeds. -/
  commit : Nat → Option String

/-- `backendkv.TableKVDecoder`, by the two calls the manager makes. -/
structure Decoder where
  decodeHandleFromIndex : IndexInfo → Bytes → Bytes → Option Int
  encodeHandleKey : Int → Bytes

/-- The pebble DB: every key's current value. -/
def DB := Bytes → Option Bytes

/-- `Set(key, value)`: the key's value is replaced. -/
def DB.set (db : DB) (k v : Bytes) : DB := fun k' => if k' = k then some v else db k'

/-- The sets of a batch, applied in order. -/
def DB.setAll (db : DB) : List (Bytes × Bytes) → DB
  | [] => db
  | (k, v) :: rest => (db.set k v).setAll rest

/-- Pebble is last-writer-wins: after a batch a key reads the value of the last set of
that key in the batch, and its old value when the batch does not set it. -/
theorem DB.setAll_apply (db : DB) (sets : List (Bytes × Bytes)) (k : Bytes) :
    db.setAll sets k = ((sets.reverse.find? (·.1 == k)).map Prod.snd).or (db k) := by
  induction sets generalizing db with
  | nil => simp [DB.setAll]
  | cons kv rest ih =>
      obtain ⟨k', v⟩ := kv
      rw [DB.setAll, ih, List.reverse_cons, List.find?_append]
      by_cases hk : k' = k
      · subst hk
        cases rest.reverse.find? (·.1 == k') <;> simp [DB.set]
      · cases rest.reverse.find? (·.1 == k) <;> simp [DB.set, Ne.symm hk, hk]

theorem DB.setAll_append (db : DB) (l₁ l₂ : List (Bytes × Bytes)) :
    db.setAll (l₁ ++ l₂) = (db.setAll l₁).setAll l₂ := by
  induction l₁ generalizing db with
  | nil => rfl
  | cons kv rest ih => exact ih _

/-- What the manager has asked of the outside, oldest first. -/
inductive Event
  /-- `storeDuplicateData` was handed a response with these pairs. -/
  | store (pairs : List KvPair)
  /-- `GetValues` was called with these row keys. -/
  | getValues (handles : List Bytes)
  /-- `KvBatchGet` of these keys was sent to the region; `ok` when it was answered
  without error. -/
  | kvBatchGet (region : Nat) (keys : List Bytes) (ok : Bool)
deriving DecidableEq, Repr

/-- The mutable context: the call counter, the DB, and the log of requests. -/
structure Ctx where
  tick : Nat
  db : DB
  log : List Event

/-- How a call stops without returning. -/
inductive Stop
  /-- A Go runtime panic: nil dereference, index out of range. -/
  | panic (msg : String)
  /-- The loops ran longer than the fuel given. -/
  | outOfFuel
deriving DecidableEq, Repr

/-- The manager's code: a state-passing computation over `Ctx` that may stop. -/
abbrev M := EStateM Stop Ctx

/-- A nil dereference. -/
def nilDeref {α : Type} : M α := throw (.panic "invalid memory address or nil pointer dereference")

/-- `*p`, which panics when `p` is nil. -/
def deref {α : Type} : Option α → M α
  | some a => pure a
  | none => nilDeref

/-- `xs[i]`, which panics out of range. -/
def index {α : Type} (xs : List α) (i : Nat) : M α :=
  match xs[i]? with
  | some x => pure x
  | none => throw (.panic "index out of range")

/-- Ask the remote: read the answer of this call and advance the clock. -/
def ask {α : Type} (f : Nat → α) : M α := fun c => .ok (f c.tick) { c with tick := c.tick + 1 }

/-- Append to the log. -/
def record (e : Event) : M Unit := fun c => .ok () { c with log := c.log ++ [e] }

/-! ## Evaluating `M` -/

section Eval
variable {α β : Type}

@[simp] theorem M.pure_apply (a : α) (c : Ctx) : (pure a : M α) c = .ok a c := rfl

@[simp] theorem M.throw_apply (e : Stop) (c : Ctx) : (throw e : M α) c = .error e c := rfl

@[simp] theorem M.bind_apply (x : M α) (f : α → M β) (c : Ctx) :
    (x >>= f) c = match x c with
      | .ok a c' => f a c'
      | .error e c' => .error e c' := by
  show EStateM.bind x f c = _
  unfold EStateM.bind
  cases x c <;> rfl

@[simp] theorem M.map_apply (f : α → β) (x : M α) (c : Ctx) :
    (f <$> x) c = match x c with
      | .ok a c' => .ok (f a) c'
      | .error e c' => .error e c' := by
  show EStateM.map f x c = _
  unfold EStateM.map
  cases x c <;> rfl

@[simp] theorem ask_apply (f : Nat → α) (c : Ctx) :
    ask f c = .ok (f c.tick) { c with tick := c.tick + 1 } := rfl

@[simp] theorem record_apply (e : Event) (c : Ctx) :
    record e c = .ok () { c with log := c.log ++ [e] } := rfl

@[simp] theorem nilDeref_apply (c : Ctx) :
    (nilDeref : M α) c = .error (.panic "invalid memory address or nil pointer dereference") c :=
  rfl

@[simp] theorem deref_some (a : α) : deref (some a) = pure a := rfl

@[simp] theorem deref_none : (deref none : M α) = nilDeref := rfl

theorem M.bind_eq_ok {x : M α} {f : α → M β} {c c'' : Ctx} {b : β}
    (h : (x >>= f) c = .ok b c'') : ∃ a c', x c = .ok a c' ∧ f a c' = .ok b c'' := by
  rw [M.bind_apply] at h
  split at h
  · exact ⟨_, _, ‹_›, h⟩
  · cases h

/-- The context a call leaves, whether it returned or stopped. -/
def resultCtx : EStateM.Result Stop Ctx α → Ctx
  | .ok _ c => c
  | .error _ c => c

@[simp] theorem resultCtx_ok (a : α) (c : Ctx) : resultCtx (.ok a c : EStateM.Result Stop Ctx α) = c :=
  rfl

@[simp] theorem resultCtx_error (e : Stop) (c : Ctx) :
    resultCtx (.error e c : EStateM.Result Stop Ctx α) = c := rfl

theorem resultCtx_bind_of_ok {x : M α} {f : α → M β} {c c' : Ctx} {a : α} (h : x c = .ok a c') :
    resultCtx ((x >>= f) c) = resultCtx (f a c') := by
  rw [M.bind_apply, h]

theorem resultCtx_bind_of_error {x : M α} {f : α → M β} {c c' : Ctx} {e : Stop}
    (h : x c = .error e c') : resultCtx ((x >>= f) c) = c' := by
  rw [M.bind_apply, h]; rfl

/-- A call that leaves the log as it found it, however it ends. -/
def KeepsLog (x : M α) : Prop := ∀ c, (resultCtx (x c)).log = c.log

theorem KeepsLog.bind {x : M α} {f : α → M β} (hx : KeepsLog x) (hf : ∀ a, KeepsLog (f a)) :
    KeepsLog (x >>= f) := by
  intro c
  have := hx c
  rw [M.bind_apply]
  cases h : x c with
  | ok a c' => rw [h] at this; exact (hf a c').trans this
  | error e c' => rw [h] at this; exact this

theorem keepsLog_pure (a : α) : KeepsLog (pure a : M α) := fun _ => rfl

theorem keepsLog_ask (f : Nat → α) : KeepsLog (ask f) := fun _ => rfl

theorem keepsLog_deref (p : Option α) : KeepsLog (deref p) := by
  cases p <;> exact fun _ => rfl

theorem keepsLog_index (xs : List α) (i : Nat) : KeepsLog (index xs i) := by
  unfold index; split <;> exact fun _ => rfl

/-- A call that always returns, and leaves the log as it found it. -/
def Returns (x : M α) : Prop := ∀ c, ∃ a c', x c = .ok a c' ∧ c'.log = c.log

theorem Returns.bind {x : M α} {f : α → M β} (hx : Returns x) (hf : ∀ a, Returns (f a)) :
    Returns (x >>= f) := fun c => by
  obtain ⟨a, c1, h1, hl1⟩ := hx c
  obtain ⟨b, c2, h2, hl2⟩ := hf a c1
  exact ⟨b, c2, by rw [M.bind_apply, h1]; exact h2, hl2.trans hl1⟩

theorem returns_pure (a : α) : Returns (pure a : M α) := fun c => ⟨a, c, rfl, rfl⟩

theorem returns_ask (f : Nat → α) : Returns (ask f) := fun _ => ⟨_, _, rfl, rfl⟩

end Eval

end BackupCli
