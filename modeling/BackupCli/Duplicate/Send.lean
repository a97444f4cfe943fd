/-
# `BackupCli.Duplicate.Send` — `sendRequestToTiKV`, the retry loop of duplicate detection

`sendRequestToTiKV` of `part_001` (lines 192–315): scan the regions of the request's range,
then pass after pass open a duplicate-detect stream per region, flush the pending row keys
through `GetValues`, and drain the streams, deferring what failed to the next pass.

A pass starts its three slices with `make(…, len(regions))`, so each holds `len(regions)`
nil entries before anything is appended.  The model keeps them: `Pass.init`.  The
consequences are what this module proves.

## What is proved

* `openStreams_extends` — the opening loop only appends, so the nil entries stay in front.
* `openStreams_admission` — the admission test counts those nil entries: a work list
  longer than `regionConcurrency` is deferred whole with no region tried, and whatever the
  dials do the receive loop reads a nil client first.
* `pass_eq_error` — a pass over at least one region never completes: when the opening loop
  returns, the receive loop starts on a nil stream client and panics.
* `sendRequestToTiKV_ok` — hence `sendRequestToTiKV` returns only when the first scan fails
  or finds no region; `sendRequestToTiKV_log` — and a run logs at most one `GetValues`
  call, of `len(regions)` nil keys (`retryLoop_log`).
* `sendRequestToTiKV_stores_no_response` — so no run hands a response to
  `storeDuplicateData`: nothing a run receives is ever stored.
-/
import BackupCli.Duplicate.Store

namespace BackupCli

/-- The key `DecodeBytes` recovers from an encoded region boundary; nil when it fails. -/
def decodedKey (b : Bytes) : Bytes :=
  match decodeBytes b with
  | .ok (_, key) => key
  | .error _ => []

/-- The range a region's stream asks for: the region's boundaries decoded, except that the
request's own start (end) stands for a boundary outside the scanned `[startKey, endKey)`. -/
def streamRange (req : DuplicateRequest) (startKey endKey : Bytes) (region : RegionInfo) :
    Bytes × Bytes :=
  (if compareBytes startKey region.startKey = .gt then req.start else decodedKey region.startKey,
   if region.endKey = [] ∨ compareBytes endKey region.endKey = .lt then req.end
   else decodedKey region.endKey)

/-- The slices a pass fills: `unfinishedRegions`, and `waitingClients` with `watingRegions`,
whose entries are appended together and are kept here as pairs (a nil client stands with a
nil region). -/
structure Pass where
  unfinished : List (Option RegionInfo)
  waiting : List (Option (DuplicateDetectClient × RegionInfo))

/-- A pass's slices as `make(…, len(regions))` creates them: all nil. -/
def Pass.init (n : Nat) : Pass := ⟨List.replicate n none, List.replicate n none⟩

section Send
variable (R : Remote) (dec : Decoder) (maxRetryTimes : Nat) (regionConcurrency : Int)
  (fuel : Nat)

/-- The peer a stream is opened to: the leader, or the first peer when the leader is
unknown, which panics when the region lists no peer. -/
def streamPeer (region : RegionInfo) : M Peer :=
  match region.leader with
  | some l => pure l
  | none => index region.peers 0

/-- `getDuplicateStream(ctx, region, start, end)`. -/
def getDuplicateStream (region : RegionInfo) (start «end» : Bytes) :
    M (Except String DuplicateDetectClient) := do
  let leader ← streamPeer region
  ask fun t => match R.duplicateDetect t leader region start «end» with
    | none => .ok t
    | some e => .error e

/-- `splitCli.GetRegionByID` of a region to defer: its fresh copy, or the region itself when
the lookup fails. -/
def refreshRegion (region : RegionInfo) : M RegionInfo := do
  match ← ask (R.getRegionByID · region.id) with
  | .ok r => pure r
  | .error _ => pure region

/-- The opening loop of a pass.  Once `len(waitingClients)` exceeds `regionConcurrency` the
rest of the regions is deferred; otherwise a stream is opened on the region, and a region
whose stream fails is deferred as `GetRegionByID` returns it.  A nil region panics. -/
def openStreams (req : DuplicateRequest) (startKey endKey : Bytes) :
    List (Option RegionInfo) → Pass → M Pass
  | [], p => pure p
  | region :: rest, p =>
      if regionConcurrency < p.waiting.length then
        pure { p with unfinished := p.unfinished ++ region :: rest }
      else do
        let region ← deref region
        let range := streamRange req startKey endKey region
        match ← getDuplicateStream R region range.1 range.2 with
        | .error _ =>
            let r ← refreshRegion R region
            openStreams req startKey endKey rest { p with unfinished := p.unfinished ++ [some r] }
        | .ok cli =>
            openStreams req startKey endKey rest
              { p with waiting := p.waiting ++ [some (cli, region)] }

/-- `if len(indexHandles) > 0 { … GetValues … }`: the row keys still to fetch. -/
def flushHandles (indexHandles : List Bytes) : M (List Bytes) :=
  if 0 < indexHandles.length then do
    let handles ← getValues R maxRetryTimes fuel indexHandles
    pure (if 0 < handles.length then handles else [])
  else pure indexHandles

/-- The receive loop of one stream.  EOF ends it; a transport or key error defers the
region's `GetRegionByID` copy, a region error the re-scan of its range (or the region,
when the scan fails); a response is stored, and the keys `storeDuplicateData` hands back
join the keys to fetch.  `.error` is an error of `storeDuplicateData`, which
`sendRequestToTiKV` returns at once. -/
def recvStream (req : DuplicateRequest) (cli : DuplicateDetectClient) (region : RegionInfo) :
    Nat → List (Option RegionInfo) → List Bytes →
      M (Except String (List (Option RegionInfo) × List Bytes))
  | 0, _, _ => throw .outOfFuel
  | k + 1, unfinished, indexHandles => do
      match ← ask (R.recv · cli) with
      | .eof => pure (.ok (unfinished, indexHandles))
      | .err _ =>
          let r ← refreshRegion R region
          pure (.ok (unfinished ++ [some r], indexHandles))
      | .resp resp =>
          match resp.keyError, resp.regionError with
          | some _, _ =>
              let r ← refreshRegion R region
              pure (.ok (unfinished ++ [some r], indexHandles))
          | none, some _ =>
              match ← ask (R.scanRegions · region.startKey region.endKey 1024) with
              | .error _ => pure (.ok (unfinished ++ [some region], indexHandles))
              | .ok rs => pure (.ok (unfinished ++ rs.map some, indexHandles))
          | none, none =>
              match ← storeDuplicateData R dec maxRetryTimes region resp req with
              | .error e => pure (.error e)
              | .ok handles => recvStream req cli region k unfinished (indexHandles ++ handles)

/-- The receive loop over `waitingClients`; `cli.Recv()` on a nil client panics. -/
def recvAll (req : DuplicateRequest) :
    List (Option (DuplicateDetectClient × RegionInfo)) → List (Option RegionInfo) →
      List Bytes → M (Except String (List (Option RegionInfo) × List Bytes))
  | [], unfinished, indexHandles => pure (.ok (unfinished, indexHandles))
  | w :: rest, unfinished, indexHandles => do
      let (cli, region) ← deref w
      match ← recvStream R dec maxRetryTimes req cli region fuel unfinished indexHandles with
      | .error e => pure (.error e)
      | .ok (unfinished, indexHandles) => recvAll req rest unfinished indexHandles

/-- One pass of the retry loop: the next work list and the keys still to fetch. -/
def pass (req : DuplicateRequest) (startKey endKey : Bytes) (regions : List (Option RegionInfo))
    (indexHandles : List Bytes) : M (Except String (List (Option RegionInfo) × List Bytes)) := do
  let p ← openStreams R regionConcurrency req startKey endKey regions (Pass.init regions.length)
  let indexHandles ← flushHandles R maxRetryTimes fuel indexHandles
  recvAll R dec maxRetryTimes fuel req p.waiting p.unfinished indexHandles

/-- The retry loop: stop when no region is left, fail once `tryTimes` exceeds
`maxRetryTimes`, and count a pass whose work list did not change length as a failed try. -/
def retryLoop (req : DuplicateRequest) (startKey endKey : Bytes) :
    Nat → Nat → List (Option RegionInfo) → List Bytes → M (Option String)
  | 0, _, _, _ => throw .outOfFuel
  | k + 1, tryTimes, regions, indexHandles =>
      if regions.length = 0 then pure none
      else if maxRetryTimes < tryTimes then pure (some "retry time exceed limit")
      else do
        match ← pass R dec maxRetryTimes regionConcurrency fuel req startKey endKey regions
            indexHandles with
        | .error e => pure (some e)
        | .ok (unfinished, indexHandles) =>
            retryLoop req startKey endKey k
              (if unfinished.length = regions.length then tryTimes + 1 else tryTimes)
              unfinished indexHandles

/-- `sendRequestToTiKV(ctx, decoder, req)`: `none` is a nil error. -/
def sendRequestToTiKV (req : Option DuplicateRequest) : M (Option String) := do
  let req ← deref req
  let startKey := (encodeBytes .nil req.start).bytes
  let endKey := (encodeBytes .nil req.end).bytes
  match ← ask (R.scanRegions · startKey endKey 1024) with
  | .error e => pure (some e)
  | .ok regions =>
      retryLoop R dec maxRetryTimes regionConcurrency fuel req startKey endKey fuel 0
        (regions.map some) (List.replicate regions.length [])

/-! ## The opening loop only appends -/

theorem openStreams_extends (req : DuplicateRequest) (startKey endKey : Bytes) :
    ∀ (regions : List (Option RegionInfo)) (p p' : Pass) (c c' : Ctx),
      openStreams R regionConcurrency req startKey endKey regions p c = .ok p' c' →
        p.unfinished <+: p'.unfinished ∧ p.waiting <+: p'.waiting
  | [], p, p', c, c', h => by
      cases (EStateM.Result.ok.inj h).1
      exact ⟨List.prefix_refl _, List.prefix_refl _⟩
  | region :: rest, p, p', c, c', h => by
      unfold openStreams at h
      split at h
      · cases (EStateM.Result.ok.inj h).1
        exact ⟨List.prefix_append _ _, List.prefix_refl _⟩
      · obtain ⟨region, c1, -, h⟩ := M.bind_eq_ok h
        obtain ⟨cli, c2, -, h⟩ := M.bind_eq_ok h
        cases cli with
        | error =>
            obtain ⟨r, c3, -, h⟩ := M.bind_eq_ok h
            obtain ⟨hu, hw⟩ := openStreams_extends req startKey endKey rest _ _ _ _ h
            exact ⟨(List.prefix_append _ _).trans hu, hw⟩
        | ok cli =>
            obtain ⟨hu, hw⟩ := openStreams_extends req startKey endKey rest _ _ _ _ h
            exact ⟨hu, (List.prefix_append _ _).trans hw⟩

theorem getDuplicateStream_keepsLog (region : RegionInfo) (start «end» : Bytes) :
    KeepsLog (getDuplicateStream R region start «end») := by
  refine KeepsLog.bind ?_ fun _ => keepsLog_ask _
  unfold streamPeer
  split
  · exact keepsLog_pure _
  · exact keepsLog_index _ _

theorem refreshRegion_keepsLog (region : RegionInfo) : KeepsLog (refreshRegion R region) :=
  (keepsLog_ask _).bind fun r => by cases r <;> exact keepsLog_pure _

theorem openStreams_keepsLog (req : DuplicateRequest) (startKey endKey : Bytes) :
    ∀ (regions : List (Option RegionInfo)) (p : Pass),
      KeepsLog (openStreams R regionConcurrency req startKey endKey regions p)
  | [], p => keepsLog_pure p
  | region :: rest, p => by
      unfold openStreams
      split
      · exact keepsLog_pure _
      · refine (keepsLog_deref _).bind fun region => (getDuplicateStream_keepsLog R _ _ _).bind ?_
        intro cli
        cases cli with
        | error => exact (refreshRegion_keepsLog R region).bind fun _ =>
            openStreams_keepsLog req startKey endKey rest _
        | ok cli => exact openStreams_keepsLog req startKey endKey rest _

/-! ## No pass completes -/

theorem openStreams_waiting_nil (req : DuplicateRequest) (startKey endKey : Bytes) {n : Nat}
    {regions : List (Option RegionInfo)} (hn : regions.length = n + 1) {p : Pass} {c c' : Ctx}
    (h : openStreams R regionConcurrency req startKey endKey regions (Pass.init regions.length) c =
      .ok p c') : ∃ w, p.waiting = none :: w := by
  obtain ⟨t, ht⟩ := (openStreams_extends R regionConcurrency req startKey endKey _ _ _ _ _ h).2
  exact ⟨List.replicate n none ++ t, by rw [← ht, Pass.init, hn, List.replicate_succ]; rfl⟩

theorem recvAll_nil_client (req : DuplicateRequest)
    (rest : List (Option (DuplicateDetectClient × RegionInfo))) (unfinished : List (Option RegionInfo))
    (indexHandles : List Bytes) (c : Ctx) :
    recvAll R dec maxRetryTimes fuel req (none :: rest) unfinished indexHandles c =
      .error (.panic "invalid memory address or nil pointer dereference") c := rfl

/-- The admission test of a pass compares `regionConcurrency` with `len(waitingClients)`,
which counts the `len(regions)` nil entries `make` put there: a work list longer than
`regionConcurrency` is deferred whole, no region tried.  And whatever the dials do, the
clients the receive loop reads start with those nil entries, so it panics on the first. -/
theorem openStreams_admission (req : DuplicateRequest) (startKey endKey : Bytes)
    (regions : List (Option RegionInfo)) (c : Ctx) :
    (regionConcurrency < regions.length →
      openStreams R regionConcurrency req startKey endKey regions (Pass.init regions.length) c =
        .ok ⟨List.replicate regions.length none ++ regions, List.replicate regions.length none⟩ c) ∧
    (∀ p c', openStreams R regionConcurrency req startKey endKey regions
        (Pass.init regions.length) c = .ok p c' → regions ≠ [] →
      ∀ unfinished indexHandles c'', recvAll R dec maxRetryTimes fuel req p.waiting unfinished
        indexHandles c'' = .error (.panic "invalid memory address or nil pointer dereference") c'') := by
  refine ⟨fun hlt => ?_, fun p c' h hne unfinished indexHandles c'' => ?_⟩
  · cases regions with
    | nil => rfl
    | cons region rest =>
        have hlt : regionConcurrency < (rest.length : Int) + 1 := by simpa using hlt
        simp [openStreams, Pass.init, hlt]
  · obtain ⟨n, hn⟩ := Nat.exists_eq_succ_of_ne_zero (mt List.length_eq_zero.1 hne)
    obtain ⟨w, hw⟩ := openStreams_waiting_nil R regionConcurrency req startKey endKey hn h
    rw [hw, recvAll_nil_client]

/-- A pass over at least one region never completes: it ends in a panic or runs out of
fuel, and the receive loop, if reached, panics on the first nil client. -/
theorem pass_eq_error (req : DuplicateRequest) (startKey endKey : Bytes)
    {regions : List (Option RegionInfo)} (hne : regions ≠ []) (indexHandles : List Bytes)
    (c : Ctx) : ∃ e c', pass R dec maxRetryTimes regionConcurrency fuel req startKey endKey regions
      indexHandles c = .error e c' := by
  cases h : pass R dec maxRetryTimes regionConcurrency fuel req startKey endKey regions
    indexHandles c with
  | error e c' => exact ⟨e, c', rfl⟩
  | ok r c' =>
      obtain ⟨p, c1, hp, h⟩ := M.bind_eq_ok h
      obtain ⟨ih, c2, -, h⟩ := M.bind_eq_ok h
      obtain ⟨n, hn⟩ := Nat.exists_eq_succ_of_ne_zero (mt List.length_eq_zero.1 hne)
      obtain ⟨w, hw⟩ := openStreams_waiting_nil R regionConcurrency req startKey endKey hn hp
      rw [hw, recvAll_nil_client] at h
      cases h

theorem retryLoop_eq_pass (req : DuplicateRequest) (startKey endKey : Bytes) (k tryTimes : Nat)
    {regions : List (Option RegionInfo)} (hne : regions ≠ []) (ht : tryTimes ≤ maxRetryTimes)
    (indexHandles : List Bytes) (c : Ctx) :
    ∃ e c', pass R dec maxRetryTimes regionConcurrency fuel req startKey endKey regions
        indexHandles c = .error e c' ∧
      retryLoop R dec maxRetryTimes regionConcurrency fuel req startKey endKey (k + 1) tryTimes
        regions indexHandles c = .error e c' := by
  obtain ⟨e, c', hp⟩ := pass_eq_error R dec maxRetryTimes regionConcurrency fuel req startKey
    endKey hne indexHandles c
  refine ⟨e, c', hp, ?_⟩
  simp [retryLoop, mt List.length_eq_zero.1 hne, Nat.not_lt.2 ht, hp]

theorem retryLoop_ok (req : DuplicateRequest) (startKey endKey : Bytes) {k tryTimes : Nat}
    {regions : List (Option RegionInfo)} {indexHandles : List Bytes} {r : Option String}
    {c c' : Ctx}
    (h : retryLoop R dec maxRetryTimes regionConcurrency fuel req startKey endKey k tryTimes
      regions indexHandles c = .ok r c') :
    (regions = [] ∧ r = none ∨ maxRetryTimes < tryTimes ∧ r = some "retry time exceed limit") ∧
      c' = c := by
  cases k with
  | zero => cases h
  | succ k =>
      by_cases hne : regions = []
      · subst hne
        cases h
        exact ⟨.inl ⟨rfl, rfl⟩, rfl⟩
      by_cases ht : maxRetryTimes < tryTimes
      · simp only [retryLoop, mt List.length_eq_zero.1 hne, ht, if_true, if_false] at h
        cases h
        exact ⟨.inr ⟨ht, rfl⟩, rfl⟩
      obtain ⟨e, c'', -, h'⟩ := retryLoop_eq_pass R dec maxRetryTimes regionConcurrency fuel req
        startKey endKey k tryTimes hne (Nat.not_lt.1 ht) indexHandles c
      rw [h'] at h
      cases h

theorem sendRequestToTiKV_some (req : DuplicateRequest) (c : Ctx) :
    sendRequestToTiKV R dec maxRetryTimes regionConcurrency fuel (some req) c =
      match R.scanRegions c.tick (encodeGroups req.start) (encodeGroups req.end) 1024 with
      | .error e => .ok (some e) { c with tick := c.tick + 1 }
      | .ok regions =>
          retryLoop R dec maxRetryTimes regionConcurrency fuel req (encodeGroups req.start)
            (encodeGroups req.end) fuel 0 (regions.map some) (List.replicate regions.length [])
            { c with tick := c.tick + 1 } := by
  simp only [sendRequestToTiKV, deref_some, M.bind_apply, M.pure_apply, ask_apply,
    encodeBytes_bytes, Slice.nil_bytes, List.nil_append]
  cases R.scanRegions c.tick (encodeGroups req.start) (encodeGroups req.end) 1024 <;> rfl

theorem sendRequestToTiKV_ok (req : DuplicateRequest) {r : Option String} {c c' : Ctx}
    (h : sendRequestToTiKV R dec maxRetryTimes regionConcurrency fuel (some req) c = .ok r c') :
    (∃ e, R.scanRegions c.tick (encodeGroups req.start) (encodeGroups req.end) 1024 = .error e ∧
      r = some e) ∨
    (R.scanRegions c.tick (encodeGroups req.start) (encodeGroups req.end) 1024 = .ok [] ∧
      r = none) := by
  rw [sendRequestToTiKV_some] at h
  cases hs : R.scanRegions c.tick (encodeGroups req.start) (encodeGroups req.end) 1024 with
  | error e =>
      rw [hs] at h
      exact .inl ⟨e, rfl, (EStateM.Result.ok.inj h).1.symm⟩
  | ok regions =>
      rw [hs] at h
      obtain ⟨hr | hr, -⟩ := retryLoop_ok R dec maxRetryTimes regionConcurrency fuel req _ _ h
      · exact .inr ⟨by simpa using hr.1, hr.2⟩
      · exact absurd hr.1 (Nat.not_lt_zero _)

/-! ## What a run asks of the cluster -/

theorem pass_log (req : DuplicateRequest) (startKey endKey : Bytes)
    {regions : List (Option RegionInfo)} (hne : regions ≠ []) {indexHandles : List Bytes}
    (hih : 0 < indexHandles.length) (c : Ctx) :
    let c' := resultCtx (pass R dec maxRetryTimes regionConcurrency fuel req startKey endKey
      regions indexHandles c)
    c'.log = c.log ∨ c'.log = c.log ++ [.getValues indexHandles] := by
  have hopen := openStreams_keepsLog R regionConcurrency req startKey endKey regions
    (Pass.init regions.length) c
  unfold pass
  cases h : openStreams R regionConcurrency req startKey endKey regions
    (Pass.init regions.length) c with
  | error e c1 => rw [h] at hopen; exact .inl ((congrArg Ctx.log (resultCtx_bind_of_error h)).trans hopen)
  | ok p c1 =>
      rw [h, resultCtx_ok] at hopen
      right
      obtain ⟨n, hn⟩ := Nat.exists_eq_succ_of_ne_zero (mt List.length_eq_zero.1 hne)
      obtain ⟨w, hw⟩ := openStreams_waiting_nil R regionConcurrency req startKey endKey hn h
      have hg := getValues_log R maxRetryTimes fuel indexHandles c1
      rw [resultCtx_bind_of_ok h]
      simp only [flushHandles, hih, if_true]
      cases h' : getValues R maxRetryTimes fuel indexHandles c1 with
      | error e c2 => rw [h', resultCtx_error] at hg; simp [h', hg, hopen]
      | ok hs c2 => rw [h', resultCtx_ok] at hg; simp [h', hw, recvAll_nil_client, hg, hopen]

theorem retryLoop_log (req : DuplicateRequest) (startKey endKey : Bytes) (k tryTimes : Nat)
    (regions : List (Option RegionInfo)) {indexHandles : List Bytes}
    (hih : 0 < indexHandles.length) (c : Ctx) :
    let c' := resultCtx (retryLoop R dec maxRetryTimes regionConcurrency fuel req startKey endKey
      k tryTimes regions indexHandles c)
    c'.log = c.log ∨ c'.log = c.log ++ [.getValues indexHandles] := by
  cases k with
  | zero => exact .inl rfl
  | succ k =>
      by_cases hne : regions = []
      · subst hne
        exact .inl rfl
      by_cases ht : maxRetryTimes < tryTimes
      · simp [retryLoop, mt List.length_eq_zero.1 hne, ht]
      obtain ⟨e, c', hp, hr⟩ := retryLoop_eq_pass R dec maxRetryTimes regionConcurrency fuel req
        startKey endKey k tryTimes hne (Nat.not_lt.1 ht) indexHandles c
      simpa only [hp, hr, resultCtx_error] using
        pass_log R dec maxRetryTimes regionConcurrency fuel req startKey endKey hne hih c

/-- The events a run of `sendRequestToTiKV` logs, however it ends: none, or the one
`GetValues` call of its first pass. -/
theorem sendRequestToTiKV_log_shape (req : DuplicateRequest) (c : Ctx) :
    let c' := resultCtx (sendRequestToTiKV R dec maxRetryTimes regionConcurrency fuel (some req) c)
    c'.log = c.log ∨
    ∃ regions, R.scanRegions c.tick (encodeGroups req.start) (encodeGroups req.end) 1024 =
        .ok regions ∧ c'.log = c.log ++ [.getValues (List.replicate regions.length [])] := by
  dsimp only
  rw [sendRequestToTiKV_some]
  cases R.scanRegions c.tick (encodeGroups req.start) (encodeGroups req.end) 1024 with
  | error e => exact .inl rfl
  | ok regions =>
      cases regions with
      | nil => cases fuel <;> exact .inl rfl
      | cons region rest =>
          exact (retryLoop_log R dec maxRetryTimes regionConcurrency fuel req _ _ fuel 0 _
            (by simp) { c with tick := c.tick + 1 }).imp id fun h => ⟨_, rfl, h⟩

/-- However a run of `sendRequestToTiKV` ends, it has logged nothing, or one `GetValues`
call whose keys are the `len(regions)` nil entries `indexHandles` starts with: no response
is ever stored and no row key is ever fetched. -/
theorem sendRequestToTiKV_log (req : DuplicateRequest) (c : Ctx) :
    let c' := resultCtx (sendRequestToTiKV R dec maxRetryTimes regionConcurrency fuel (some req) c)
    c'.log = c.log ∨
    ∃ regions, R.scanRegions c.tick (encodeGroups req.start) (encodeGroups req.end) 1024 =
        .ok regions ∧ c'.log = c.log ++ [.getValues (List.replicate regions.length [])] :=
  sendRequestToTiKV_log_shape R dec maxRetryTimes regionConcurrency fuel req c

/-- Every pass starts the next pass's work list with `len(regions)` nil regions, and a pass
over at least one region never completes. -/
theorem pass_unfinished_starts_nil (req : DuplicateRequest) (startKey endKey : Bytes)
    (regions : List (Option RegionInfo)) (indexHandles : List Bytes) (c : Ctx) :
    (∀ p c', openStreams R regionConcurrency req startKey endKey regions
        (Pass.init regions.length) c = .ok p c' →
      List.replicate regions.length none <+: p.unfinished) ∧
    (regions ≠ [] → ∀ r c', pass R dec maxRetryTimes regionConcurrency fuel req startKey endKey
      regions indexHandles c ≠ .ok r c') := by
  refine ⟨fun p c' h => (openStreams_extends R regionConcurrency req startKey endKey _ _ _ _ _ h).1,
    fun hne r c' h => ?_⟩
  obtain ⟨e, c'', he⟩ := pass_eq_error R dec maxRetryTimes regionConcurrency fuel req startKey
    endKey hne indexHandles c
  rw [he] at h
  cases h

/-- Once the first scan finds a region, `sendRequestToTiKV` never returns: neither nil nor
the retry-limit error. -/
theorem sendRequestToTiKV_never_returns (req : DuplicateRequest) {regions : List RegionInfo}
    (c : Ctx)
    (hscan : R.scanRegions c.tick (encodeGroups req.start) (encodeGroups req.end) 1024 =
      .ok regions)
    (hne : regions ≠ []) (r : Option String) (c' : Ctx) :
    sendRequestToTiKV R dec maxRetryTimes regionConcurrency fuel (some req) c ≠ .ok r c' := by
  intro h
  rcases sendRequestToTiKV_ok R dec maxRetryTimes regionConcurrency fuel req h with
    ⟨e, he, -⟩ | ⟨he, -⟩ <;> rw [hscan] at he
  · cases he
  · exact hne (Except.ok.inj he)

end Send

/-- A cluster with one region, on which no stream opens. -/
def oneRegionNoStream : Remote where
  scanRegions _ _ _ _ := .ok [⟨1, [], [], [⟨1⟩], none⟩]
  getRegionByID _ _ := .error "region not found"
  duplicateDetect _ _ _ _ _ := some "connection refused"
  recv _ _ := .eof
  kvBatchGet _ _ _ := .error "connection refused"
  commit _ := none

theorem sendRequestToTiKV_no_stream_no_return :
    sendRequestToTiKV oneRegionNoStream ⟨fun _ _ _ => none, fun _ => []⟩ 3 16 1000
      (some ⟨1, 0, [], [], none⟩) ⟨0, fun _ => none, []⟩ ≠ .ok none ⟨1, fun _ => none, []⟩ :=
  sendRequestToTiKV_never_returns oneRegionNoStream _ 3 16 1000 _ _ rfl (List.cons_ne_nil _ _) _ _

/-- One pass over one region of `oneRegionNoStream`: the work list it leaves starts with the
nil region of `make`, and the pass does not complete. -/
theorem pass_one_region_starts_nil :
    (∃ p c', openStreams oneRegionNoStream 16 ⟨1, 0, [], [], none⟩ [] []
        [some ⟨1, [], [], [⟨1⟩], none⟩] (Pass.init 1) ⟨0, fun _ => none, []⟩ = .ok p c' ∧
      List.replicate 1 none <+: p.unfinished) ∧
    ∀ r c', pass oneRegionNoStream ⟨fun _ _ _ => none, fun _ => []⟩ 3 16 1000 ⟨1, 0, [], [], none⟩
      [] [] [some ⟨1, [], [], [⟨1⟩], none⟩] [] ⟨0, fun _ => none, []⟩ ≠ .ok r c' := by
  have h := pass_unfinished_starts_nil oneRegionNoStream ⟨fun _ _ _ => none, fun _ => []⟩ 3 16
    1000 ⟨1, 0, [], [], none⟩ [] [] [some ⟨1, [], [], [⟨1⟩], none⟩] [] ⟨0, fun _ => none, []⟩
  exact ⟨⟨_, _, rfl, h.1 _ _ rfl⟩, h.2 (List.cons_ne_nil _ _)⟩

theorem openStreams_two_regions_untried :
    openStreams oneRegionNoStream 1 ⟨1, 0, [], [], none⟩ [] []
        [some ⟨1, [], [], [⟨1⟩], none⟩, some ⟨2, [], [], [⟨1⟩], none⟩] (Pass.init 2)
        ⟨0, fun _ => none, []⟩ =
      .ok ⟨[none, none, some ⟨1, [], [], [⟨1⟩], none⟩, some ⟨2, [], [], [⟨1⟩], none⟩],
        [none, none]⟩ ⟨0, fun _ => none, []⟩ :=
  (openStreams_admission oneRegionNoStream ⟨fun _ _ _ => none, fun _ => []⟩ 3 1 1000 _ _ _ _ _).1
    (by decide)

end BackupCli
