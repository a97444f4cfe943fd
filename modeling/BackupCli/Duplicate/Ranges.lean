/-
# `BackupCli.Duplicate.Ranges` — the key ranges of the duplicate-detect streams

`sendRequestToTiKV` (`part_001`, lines 192–227) scans the regions of
`[EncodeBytes(req.start), EncodeBytes(req.end))` and opens one stream per region, for the
range `streamRange` computes from the region's boundaries: each boundary decoded, unless it
lies outside the scanned range, in which case the request's own bound stands for it.

This module says what those ranges are, over raw keys ordered by `bytes.Compare`:

* `inRange r k` — `k` lies in the half-open range `[r.1, r.2)`;
* `inRegion region k` — `k` lies in the region's decoded range, an empty `EndKey` being
  unbounded above;
* `regionIntersection req region` — the bounds of the intersection of the two, written
  with `maxKey` and `minKey`.  This is the specification side: it follows the words
  "clamp the stream bounds to the intersection", not the code.

## What is proved

* `streamRange_eq_regionIntersection` — for a region whose boundaries are empty or encoded
  keys, the code's clamping computes exactly the intersection's bounds;
  `inRange_regionIntersection` — whose keys are those in both ranges.
* `RangeChain.cover`, `RangeChain.disjoint` — non-empty ranges laid end to end from `a` to
  `b` cover `[a, b)` and are pairwise disjoint.
* `regionIntersection_chain` — over a sorted, contiguous cover of the encoded request range
  whose regions each overlap it, the intersections are laid end to end from `req.start` to
  `req.end`.
* `streamRanges_partition` — hence the stream ranges of such a cover are the intersections,
  cover `[req.start, req.end)`, and are pairwise disjoint.
-/
import BackupCli.Duplicate.Send

namespace BackupCli

/-- `k` lies in the half-open range `[r.1, r.2)` of raw keys. -/
def inRange (r : Bytes × Bytes) (k : Bytes) : Prop :=
  compareBytes r.1 k ≠ .gt ∧ compareBytes k r.2 = .lt

instance (r : Bytes × Bytes) (k : Bytes) : Decidable (inRange r k) :=
  inferInstanceAs (Decidable (_ ∧ _))

/-! ## Ranges laid end to end -/

/-- Non-empty ranges laid end to end, from `a` to `b`. -/
def RangeChain : Bytes → List (Bytes × Bytes) → Bytes → Prop
  | a, [], b => a = b
  | a, r :: rs, b => r.1 = a ∧ compareBytes r.1 r.2 = .lt ∧ RangeChain r.2 rs b

theorem RangeChain.le : ∀ {a b : Bytes} {rs : List (Bytes × Bytes)}, RangeChain a rs b →
    compareBytes a b ≠ .gt
  | _, _, [], h => by rw [h]; simp
  | _, _, _ :: _, ⟨rfl, hlt, h⟩ =>
      compareBytes_le_trans (compareBytes_ne_gt_iff.2 (.inl hlt)) (RangeChain.le h)

theorem RangeChain.le_start : ∀ {a b : Bytes} {rs : List (Bytes × Bytes)}, RangeChain a rs b →
    ∀ r ∈ rs, compareBytes a r.1 ≠ .gt
  | _, _, [], _, _, hr => by cases hr
  | _, _, r :: rs, ⟨rfl, hlt, h⟩, r', hr' => by
      rcases List.mem_cons.1 hr' with rfl | hr'
      · simp
      · exact compareBytes_le_trans (compareBytes_ne_gt_iff.2 (.inl hlt)) (h.le_start r' hr')

theorem RangeChain.cover : ∀ {a b : Bytes} {rs : List (Bytes × Bytes)}, RangeChain a rs b →
    ∀ k, inRange (a, b) k ↔ ∃ r ∈ rs, inRange r k
  | _, _, [], h, k => by
      subst h
      simp only [inRange, List.not_mem_nil, false_and, exists_false, iff_false, not_and]
      exact fun h1 h2 => h1 (by rw [← compareBytes_swap, h2]; rfl)
  | _, _, r :: rs, ⟨rfl, hlt, h⟩, k => by
      have ih := h.cover k
      simp only [inRange, List.mem_cons, exists_eq_or_imp] at ih ⊢
      constructor
      · rintro ⟨h1, h2⟩
        by_cases hk : compareBytes k r.2 = .lt
        · exact .inl ⟨h1, hk⟩
        · exact .inr (ih.1 ⟨compareBytes_ne_lt_iff.1 hk, h2⟩)
      · rintro (⟨h1, h2⟩ | hr)
        · exact ⟨h1, compareBytes_lt_le_trans h2 h.le⟩
        · obtain ⟨h1, h2⟩ := ih.2 hr
          exact ⟨compareBytes_le_trans (compareBytes_ne_gt_iff.2 (.inl hlt)) h1, h2⟩

theorem RangeChain.disjoint : ∀ {a b : Bytes} {rs : List (Bytes × Bytes)}, RangeChain a rs b →
    rs.Pairwise fun r r' => ∀ k, ¬ (inRange r k ∧ inRange r' k)
  | _, _, [], _ => .nil
  | _, _, r :: rs, ⟨rfl, _, h⟩ => by
      refine List.Pairwise.cons (fun r' hr' k ⟨⟨_, hk⟩, ⟨hk', _⟩⟩ => ?_) h.disjoint
      exact hk' (by rw [← compareBytes_swap, compareBytes_lt_le_trans hk (h.le_start r' hr')]; rfl)

/-! ## The intersection of the request with a region -/

/-- The greater of two keys. -/
def maxKey (a b : Bytes) : Bytes := if compareBytes a b = .lt then b else a

/-- The lesser of two keys. -/
def minKey (a b : Bytes) : Bytes := if compareBytes a b = .gt then b else a

theorem maxKey_le_iff {a b k : Bytes} :
    compareBytes (maxKey a b) k ≠ .gt ↔ compareBytes a k ≠ .gt ∧ compareBytes b k ≠ .gt := by
  unfold maxKey
  split_ifs with h
  · exact ⟨fun hb => ⟨compareBytes_le_trans (compareBytes_ne_gt_iff.2 (.inl h)) hb, hb⟩,
      fun h' => h'.2⟩
  · exact ⟨fun ha => ⟨ha, compareBytes_le_trans (compareBytes_ne_lt_iff.1 h) ha⟩,
      fun h' => h'.1⟩

theorem maxKey_lt_iff {a b k : Bytes} :
    compareBytes (maxKey a b) k = .lt ↔ compareBytes a k = .lt ∧ compareBytes b k = .lt := by
  unfold maxKey
  split_ifs with h
  · exact ⟨fun hb => ⟨compareBytes_lt_trans h hb, hb⟩, fun h' => h'.2⟩
  · exact ⟨fun ha => ⟨ha, compareBytes_le_lt_trans (compareBytes_ne_lt_iff.1 h) ha⟩,
      fun h' => h'.1⟩

theorem lt_minKey_iff {a b k : Bytes} :
    compareBytes k (minKey a b) = .lt ↔ compareBytes k a = .lt ∧ compareBytes k b = .lt := by
  unfold minKey
  split_ifs with h
  · have hba : compareBytes b a = .lt := by rw [← compareBytes_swap, h]; rfl
    exact ⟨fun hb => ⟨compareBytes_lt_trans hb hba, hb⟩, fun h' => h'.2⟩
  · exact ⟨fun ha => ⟨ha, compareBytes_lt_le_trans ha h⟩, fun h' => h'.1⟩

/-- A key lies in a region: at or above its decoded `StartKey` (an empty one decodes to the
least key), and below its decoded `EndKey` unless that is empty. -/
def inRegion (region : RegionInfo) (k : Bytes) : Prop :=
  compareBytes (decodedKey region.startKey) k ≠ .gt ∧
    (region.endKey = [] ∨ compareBytes k (decodedKey region.endKey) = .lt)

/-- The bounds of `[req.start, req.end)` intersected with the region's range. -/
def regionIntersection (req : DuplicateRequest) (region : RegionInfo) : Bytes × Bytes :=
  (maxKey req.start (decodedKey region.startKey),
   if region.endKey = [] then req.end else minKey req.end (decodedKey region.endKey))

theorem inRange_regionIntersection (req : DuplicateRequest) (region : RegionInfo) (k : Bytes) :
    inRange (regionIntersection req region) k ↔
      inRange (req.start, req.end) k ∧ inRegion region k := by
  unfold inRange inRegion regionIntersection
  split_ifs with he
  · simp only [maxKey_le_iff, he, true_or, and_true]
    tauto
  · simp only [maxKey_le_iff, lt_minKey_iff, he, false_or]
    tauto

/-! ## The code computes the intersection -/

/-- A region boundary as a scan returns it: empty (unbounded), or an encoded key. -/
def ValidBoundary (b : Bytes) : Prop := b = [] ∨ ∃ k, b = encodeGroups k

@[simp] theorem decodedKey_encodeGroups (k : Bytes) : decodedKey (encodeGroups k) = k := by
  have := decodeGroups_encodeGroups [] k
  rw [List.append_nil] at this
  simp [decodedKey, decodeBytes, this]

@[simp] theorem decodedKey_nil : decodedKey [] = [] := rfl

theorem compareBytes_encodeGroups_encodeGroups (a b : Bytes) :
    compareBytes (encodeGroups a) (encodeGroups b) = compareBytes a b := by
  simpa using compareBytes_encodeGroups a b [] []

@[simp] theorem encodeGroups_ne_nil (k : Bytes) : encodeGroups k ≠ [] :=
  List.ne_nil_of_length_pos (by rw [length_encodeGroups]; simp [encGroupSize])

theorem compareBytes_encodeGroups_nil (k : Bytes) : compareBytes (encodeGroups k) [] = .gt := by
  obtain ⟨x, xs, h⟩ := List.exists_cons_of_ne_nil (encodeGroups_ne_nil k)
  rw [h]
  rfl

theorem streamRange_eq_regionIntersection (req : DuplicateRequest) {region : RegionInfo}
    (hs : ValidBoundary region.startKey) (he : ValidBoundary region.endKey) :
    streamRange req (encodeGroups req.start) (encodeGroups req.end) region =
      regionIntersection req region := by
  unfold streamRange regionIntersection maxKey minKey
  congr 1
  · rcases hs with hs | ⟨s, hs⟩ <;> rw [hs]
    · cases h : req.start <;> simp [compareBytes_encodeGroups_nil, compareBytes, h]
    · rw [compareBytes_encodeGroups_encodeGroups, decodedKey_encodeGroups]
      cases h : compareBytes req.start s
      · simp
      · simp [compareBytes_eq_iff.1 h]
      · simp
  · rcases he with he | ⟨e, he⟩ <;> rw [he]
    · simp
    · rw [compareBytes_encodeGroups_encodeGroups, decodedKey_encodeGroups]
      cases h : compareBytes req.end e
      · simp
      · simp [compareBytes_eq_iff.1 h]
      · simp

/-! ## A cover of the request range

The region lemmas below take the one fact about a region each needs.  A valid boundary is
empty or `encodeGroups` of a key, and on encodings `compareBytes` is the order of the keys
(`compareBytes_encodeGroups_encodeGroups`): this is how each fact about the encoded
boundaries becomes one about raw keys. -/

/-- What a region scan of the encoded range `[startKey, endKey)` returns: a non-empty list,
sorted and contiguous (each `EndKey` is the next `StartKey`, and only the last may be
empty), covering the range, each region overlapping it, every boundary valid. -/
structure RegionCover (startKey endKey : Bytes) (regions : List RegionInfo) : Prop where
  nonempty : regions ≠ []
  valid : ∀ r ∈ regions, ValidBoundary r.startKey ∧ ValidBoundary r.endKey
  sorted : ∀ r ∈ regions, r.endKey = [] ∨ compareBytes r.startKey r.endKey = .lt
  contiguous : regions.Chain' fun r r' => r.endKey ≠ [] ∧ r.endKey = r'.startKey
  first : ∀ r ∈ regions.head?, compareBytes r.startKey startKey ≠ .gt
  last : ∀ r ∈ regions.getLast?, r.endKey = [] ∨ compareBytes endKey r.endKey ≠ .gt
  overlap : ∀ r ∈ regions, compareBytes r.startKey endKey = .lt ∧
    (r.endKey = [] ∨ compareBytes startKey r.endKey = .lt)

section Cover
variable (req : DuplicateRequest) {r r' : RegionInfo}

theorem nil_lt_of_lt {a k : Bytes} (h : compareBytes a k = .lt) : compareBytes [] k = .lt :=
  compareBytes_le_lt_trans (compareBytes_nil_le a) h

theorem decodedStart_lt_end (hreq : compareBytes req.start req.end = .lt)
    (hs : ValidBoundary r.startKey)
    (ho : compareBytes r.startKey (encodeGroups req.end) = .lt) :
    compareBytes (decodedKey r.startKey) req.end = .lt := by
  rcases hs with hs | ⟨s, hs⟩ <;> rw [hs] at ho ⊢
  · exact nil_lt_of_lt hreq
  · rwa [compareBytes_encodeGroups_encodeGroups, ← decodedKey_encodeGroups s] at ho

theorem regionIntersection_lt (hreq : compareBytes req.start req.end = .lt)
    (hv : ValidBoundary r.startKey ∧ ValidBoundary r.endKey)
    (hs : r.endKey = [] ∨ compareBytes r.startKey r.endKey = .lt)
    (ho : compareBytes r.startKey (encodeGroups req.end) = .lt ∧
      (r.endKey = [] ∨ compareBytes (encodeGroups req.start) r.endKey = .lt)) :
    compareBytes (regionIntersection req r).1 (regionIntersection req r).2 = .lt := by
  have hlo := decodedStart_lt_end req hreq hv.1 ho.1
  unfold regionIntersection
  rw [maxKey_lt_iff]
  split_ifs with he
  · exact ⟨hreq, hlo⟩
  · rcases hv.2 with he' | ⟨e, he'⟩
    · exact absurd he' he
    have hend : compareBytes req.start e = .lt := by
      simpa [he, he', compareBytes_encodeGroups_encodeGroups] using ho.2
    rw [he', decodedKey_encodeGroups, lt_minKey_iff, lt_minKey_iff]
    refine ⟨⟨hreq, hend⟩, hlo, ?_⟩
    rcases hv.1 with hs' | ⟨s, hs'⟩
    · rw [hs', decodedKey_nil]
      exact nil_lt_of_lt hend
    · simpa [he, he', hs', compareBytes_encodeGroups_encodeGroups] using hs

theorem regionIntersection_start (hv : ValidBoundary r.startKey)
    (hf : compareBytes r.startKey (encodeGroups req.start) ≠ .gt) :
    (regionIntersection req r).1 = req.start := by
  unfold regionIntersection maxKey
  rw [if_neg]
  rcases hv with hs | ⟨s, hs⟩ <;> rw [hs] at hf ⊢
  · exact fun h => by simpa using compareBytes_le_lt_trans (compareBytes_nil_le req.start) h
  · rw [decodedKey_encodeGroups]
    rw [compareBytes_encodeGroups_encodeGroups] at hf
    exact fun h => hf (by rw [← compareBytes_swap, h]; rfl)

theorem regionIntersection_end (hv : ValidBoundary r.endKey)
    (hl : r.endKey = [] ∨ compareBytes (encodeGroups req.end) r.endKey ≠ .gt) :
    (regionIntersection req r).2 = req.end := by
  unfold regionIntersection
  split_ifs with he
  · rfl
  · rcases hv with he' | ⟨e, he'⟩
    · exact absurd he' he
    rw [he', decodedKey_encodeGroups, minKey, if_neg]
    simpa [he, he', compareBytes_encodeGroups_encodeGroups] using hl

theorem regionIntersection_adjacent (hv : ValidBoundary r.endKey)
    (hc : r.endKey ≠ [] ∧ r.endKey = r'.startKey)
    (ho : r.endKey = [] ∨ compareBytes (encodeGroups req.start) r.endKey = .lt)
    (ho' : compareBytes r'.startKey (encodeGroups req.end) = .lt) :
    (regionIntersection req r).2 = (regionIntersection req r').1 := by
  rcases hv with he | ⟨b, he⟩
  · exact absurd he hc.1
  have hlo : compareBytes req.start b = .lt := by
    simpa [hc.1, he, compareBytes_encodeGroups_encodeGroups] using ho
  have hhi : compareBytes b req.end = .lt := by
    rw [← hc.2, he, compareBytes_encodeGroups_encodeGroups] at ho'
    exact ho'
  show (if r.endKey = [] then req.end else minKey req.end (decodedKey r.endKey)) =
    maxKey req.start (decodedKey r'.startKey)
  rw [if_neg hc.1, ← hc.2, he, decodedKey_encodeGroups, minKey, maxKey, if_pos hlo,
    if_pos (by rw [← compareBytes_swap, hhi]; rfl)]

/-- The intersections of a contiguous run of overlapping regions, the last one reaching
the end of the request, are laid end to end up to `req.end`. -/
theorem regionIntersection_chain (hreq : compareBytes req.start req.end = .lt) :
    ∀ (r : RegionInfo) (rest : List RegionInfo),
    (∀ x ∈ r :: rest, ValidBoundary x.startKey ∧ ValidBoundary x.endKey) →
    (∀ x ∈ r :: rest, x.endKey = [] ∨ compareBytes x.startKey x.endKey = .lt) →
    (r :: rest).Chain' (fun x y => x.endKey ≠ [] ∧ x.endKey = y.startKey) →
    (∀ x ∈ (r :: rest).getLast?,
      x.endKey = [] ∨ compareBytes (encodeGroups req.end) x.endKey ≠ .gt) →
    (∀ x ∈ r :: rest, compareBytes x.startKey (encodeGroups req.end) = .lt ∧
      (x.endKey = [] ∨ compareBytes (encodeGroups req.start) x.endKey = .lt)) →
    RangeChain (regionIntersection req r).1 ((r :: rest).map (regionIntersection req)) req.end
  | r, [], hv, hs, _, hl, ho => by
      refine ⟨rfl, regionIntersection_lt req hreq (hv r (List.mem_singleton_self r))
        (hs r (List.mem_singleton_self r)) (ho r (List.mem_singleton_self r)), ?_⟩
      exact regionIntersection_end req (hv r (List.mem_singleton_self r)).2 (hl r rfl)
  | r, r' :: rest, hv, hs, hc, hl, ho => by
      have hr := List.mem_cons_self r (r' :: rest)
      have hr' := List.mem_cons_of_mem r (List.mem_cons_self r' rest)
      refine ⟨rfl, regionIntersection_lt req hreq (hv r hr) (hs r hr) (ho r hr), ?_⟩
      rw [regionIntersection_adjacent req (hv r hr).2 (List.chain'_cons.1 hc).1 (ho r hr).2
        (ho r' hr').1]
      exact regionIntersection_chain hreq r' rest (fun x hx => hv x (List.mem_cons_of_mem r hx))
        (fun x hx => hs x (List.mem_cons_of_mem r hx)) (List.chain'_cons.1 hc).2
        (fun x hx => hl x (by rwa [List.getLast?_cons_cons]))
        (fun x hx => ho x (List.mem_cons_of_mem r hx))

end Cover

/-- Over a cover of the encoded request range, the streams of `sendRequestToTiKV` ask for
the intersections of the request with the regions: these cover `[req.start, req.end)` and
no key lies in two of them. -/
theorem streamRanges_partition (req : DuplicateRequest)
    (hreq : compareBytes req.start req.end = .lt) {regions : List RegionInfo}
    (hcover : RegionCover (encodeGroups req.start) (encodeGroups req.end) regions) :
    (∀ r ∈ regions, streamRange req (encodeGroups req.start) (encodeGroups req.end) r =
      regionIntersection req r) ∧
    (∀ k, inRange (req.start, req.end) k ↔
      ∃ r ∈ regions, inRange (streamRange req (encodeGroups req.start) (encodeGroups req.end) r) k) ∧
    (regions.map (streamRange req (encodeGroups req.start) (encodeGroups req.end))).Pairwise
      fun a b => ∀ k, ¬ (inRange a k ∧ inRange b k) := by
  have heq : ∀ r ∈ regions, streamRange req (encodeGroups req.start) (encodeGroups req.end) r =
      regionIntersection req r := fun r hr =>
    streamRange_eq_regionIntersection req (hcover.valid r hr).1 (hcover.valid r hr).2
  obtain ⟨r, rest, rfl⟩ := List.exists_cons_of_ne_nil hcover.nonempty
  have hchain := regionIntersection_chain req hreq r rest hcover.valid hcover.sorted
    hcover.contiguous hcover.last hcover.overlap
  rw [regionIntersection_start req (hcover.valid r (List.mem_cons_self r rest)).1
    (hcover.first r rfl)] at hchain
  rw [List.map_congr_left heq]
  refine ⟨heq, fun k => ?_, hchain.disjoint⟩
  rw [hchain.cover k]
  simp only [List.mem_map, exists_exists_and_eq_and]
  exact exists_congr fun x => and_congr_right fun hx => by rw [heq x hx]

/-- The request `[[1], [5])` of table 1. -/
def reqOneToFive : DuplicateRequest := ⟨1, 0, [1], [5], none⟩

/-- Two regions meeting at the encoding of `[3]`, open below and above. -/
def splitAtThree : List RegionInfo :=
  [⟨1, [], encodeGroups [3], [], none⟩, ⟨2, encodeGroups [3], [], [], none⟩]

theorem splitAtThree_partition :
    splitAtThree.map (streamRange reqOneToFive (encodeGroups [1]) (encodeGroups [5])) =
        [([1], [3]), ([3], [5])] ∧
      compareBytes reqOneToFive.start reqOneToFive.end = .lt ∧
      RegionCover (encodeGroups reqOneToFive.start) (encodeGroups reqOneToFive.end) splitAtThree ∧
      (∀ k, inRange (reqOneToFive.start, reqOneToFive.end) k ↔ ∃ r ∈ splitAtThree,
        inRange (streamRange reqOneToFive (encodeGroups [1]) (encodeGroups [5]) r) k) := by
  have hreq : compareBytes reqOneToFive.start reqOneToFive.end = .lt := by decide
  have hcover : RegionCover (encodeGroups reqOneToFive.start) (encodeGroups reqOneToFive.end)
      splitAtThree :=
    { nonempty := List.cons_ne_nil _ _
      valid := by
        simp only [splitAtThree, List.mem_cons, List.mem_singleton, List.not_mem_nil,
          or_false, forall_eq_or_imp, forall_eq]
        exact ⟨⟨.inl rfl, .inr ⟨[3], rfl⟩⟩, ⟨.inr ⟨[3], rfl⟩, .inl rfl⟩⟩
      sorted := by decide
      contiguous := List.chain'_pair.2 ⟨encodeGroups_ne_nil [3], rfl⟩
      first := by decide
      last := by decide
      overlap := by decide }
  exact ⟨by decide, hreq, hcover, (streamRanges_partition reqOneToFive hreq hcover).2.1⟩

end BackupCli
