/-
# `BackupCli.Codec.Memcomparable` — the block-padded byte codec under the key suffix

`EncodeKeySuffix` starts with `codec.EncodeBytes(buf[:0], key)` and `DecodeKeySuffix` with
`codec.DecodeBytes`.  Both belong to the codec library, not to this repository, so they are
modelled from §4.1 of the spec: the key is cut into 8-byte groups, the last one padded with
`0x00`, and every group is followed by a marker byte `0xFF − pad_count`.  Group by group
the encoder is `encodeGroups`, the decoder `decodeGroups`; both recurse structurally on the
byte list, one group per step, as the library's loop does one group per iteration.

## What is proved

* `length_encodeGroups` — `9 * (len / 8 + 1)` bytes, which is `encodedBytesLength`.
* `decodeGroups_encodeGroups` — the decoder reads back the key and leaves whatever follows
  the encoding untouched; `decodeGroups_eq_ok_iff` — and it accepts nothing else: what it
  reads is an encoding, thanks to its marker and padding checks.
* `compareBytes_encodeGroups` — the order law, stated with arbitrary continuations:

      compareBytes (encodeGroups a ++ X) (encodeGroups b ++ Y)
        = (compareBytes a b).then (compareBytes X Y)

  So the encoding preserves `bytes.Compare` and is self-delimiting at once: what follows an
  encoded key is consulted only when the keys are equal.  The proof follows the groups: two
  full groups compare as their bytes and recurse; a last group below a full one loses (its
  padding is zeros, its marker below `0xFF`); two last groups compare as their padded bytes,
  and when those agree the markers `0xF7 + len` break the tie by length.
-/
import BackupCli.Codec.Bytes
import Mathlib.Data.UInt

namespace BackupCli

/-- The group width of the codec. -/
def encGroupSize : Nat := 8

/-- The marker of a full group. -/
def encMarker : UInt8 := 0xFF

/-- The padding byte. -/
def encPad : UInt8 := 0

/-- Modelled from the spec: the groups that `codec.EncodeBytes` appends for `data` (§4.1).
A full group is followed by `encMarker`; the last group, of `0` to `7` bytes, is padded with
`encPad` and followed by `encMarker − pad_count`.  An input of a multiple of 8 bytes ends
with an all-padding group. -/
def encodeGroups : Bytes → Bytes
  | a0 :: a1 :: a2 :: a3 :: a4 :: a5 :: a6 :: a7 :: rest =>
      [a0, a1, a2, a3, a4, a5, a6, a7, encMarker] ++ encodeGroups rest
  | tail => tail ++ List.replicate (encGroupSize - tail.length) encPad ++
      [encMarker - UInt8.ofNat (encGroupSize - tail.length)]

theorem length_encodeGroups : ∀ data : Bytes,
    (encodeGroups data).length = (data.length / encGroupSize + 1) * (encGroupSize + 1)
  | _ :: _ :: _ :: _ :: _ :: _ :: _ :: _ :: rest => by
      simp only [encodeGroups, List.length_append, length_encodeGroups rest]
      simp [encGroupSize]; omega
  | [] | [_] | [_, _] | [_, _, _] | [_, _, _, _] | [_, _, _, _, _] | [_, _, _, _, _, _]
  | [_, _, _, _, _, _, _] => by simp [encodeGroups, encGroupSize]

/-- Modelled from the spec: `codec.EncodedBytesLength(dataLen)`. -/
def encodedBytesLength (dataLen : Nat) : Nat :=
  dataLen + (encGroupSize - dataLen % encGroupSize) + 1 + dataLen / encGroupSize

/-- Modelled from the spec: `codec.EncodeBytes(b, data)` appends the groups of `data` to
`b`, after reserving their `(len(data) / 8 + 1) * 9` bytes with `reallocBytes`, so that no
append of the loop reallocates. -/
def encodeBytes (b : Slice) (data : Bytes) : Slice :=
  let result := reallocBytes b ((data.length / encGroupSize + 1) * (encGroupSize + 1))
  ⟨result.bytes ++ encodeGroups data, result.cap, by
    simpa [result, length_encodeGroups] using reallocBytes_room b _⟩

/-- Modelled from the spec: the loop of `codec.DecodeBytes`, returning what follows the
encoding and the decoded bytes.  A marker whose `pad_count` exceeds the group width, and a
padding byte other than `encPad`, are corrupt encodings; fewer than 9 bytes left is short
input. -/
def decodeGroups : Bytes → Except String (Bytes × Bytes)
  | g0 :: g1 :: g2 :: g3 :: g4 :: g5 :: g6 :: g7 :: marker :: rest =>
      let group := [g0, g1, g2, g3, g4, g5, g6, g7]
      let padCount := encMarker - marker
      if encGroupSize < padCount.toNat then .error "invalid marker byte"
      else if padCount = 0 then
        (decodeGroups rest).map fun (left, data) => (left, group ++ data)
      else if (group.drop (encGroupSize - padCount.toNat)).all (· == encPad) then
        .ok (rest, group.take (encGroupSize - padCount.toNat))
      else .error "invalid padding byte"
  | _ => .error "insufficient bytes to decode value"

/-- Modelled from the spec: `codec.DecodeBytes(b, buf)`, the bytes left over and the key.
The buffer only lends its capacity to the result, so the model leaves it out. -/
def decodeBytes (b : Bytes) : Except String (Bytes × Bytes) := decodeGroups b

/-! ## Shape of an encoding -/

theorem encodedBytesLength_eq (n : Nat) :
    encodedBytesLength n = (n / encGroupSize + 1) * (encGroupSize + 1) := by
  simp only [encodedBytesLength, encGroupSize]; omega

@[simp] theorem encodeBytes_bytes (b : Slice) (data : Bytes) :
    (encodeBytes b data).bytes = b.bytes ++ encodeGroups data := by
  simp [encodeBytes]

theorem group_cases : ∀ xs : Bytes,
    (∃ g rest, g.length = encGroupSize ∧ xs = g ++ rest) ∨ xs.length < encGroupSize
  | a0 :: a1 :: a2 :: a3 :: a4 :: a5 :: a6 :: a7 :: rest =>
      .inl ⟨[a0, a1, a2, a3, a4, a5, a6, a7], rest, rfl, rfl⟩
  | [] | [_] | [_, _] | [_, _, _] | [_, _, _, _] | [_, _, _, _, _] | [_, _, _, _, _, _]
  | [_, _, _, _, _, _, _] => .inr (by simp [encGroupSize])

theorem encodeGroups_group {g : Bytes} (rest : Bytes) (hg : g.length = encGroupSize) :
    encodeGroups (g ++ rest) = g ++ encMarker :: encodeGroups rest := by
  match g, hg with
  | [_, _, _, _, _, _, _, _], _ => simp [encodeGroups]

theorem encodeGroups_short {t : Bytes} (ht : t.length < encGroupSize) :
    encodeGroups t = (t ++ List.replicate (encGroupSize - t.length) encPad) ++
      [encMarker - UInt8.ofNat (encGroupSize - t.length)] := by
  rw [encodeGroups.eq_2]
  rintro _ _ _ _ _ _ _ _ _ rfl
  simp only [List.length_cons, encGroupSize] at ht
  omega

theorem marker_toNat : ∀ m < encGroupSize,
    (encMarker - UInt8.ofNat (encGroupSize - m)).toNat = 247 + m := by
  decide

/-! ## Decoding inverts encoding

`decodeGroups_group` is the one unfolding of the decoder the proofs use: one group and its
marker, whatever the group's bytes. -/

theorem decodeGroups_group {g : Bytes} (marker : UInt8) (rest : Bytes)
    (hg : g.length = encGroupSize) :
    decodeGroups (g ++ marker :: rest) =
      if encGroupSize < (encMarker - marker).toNat then .error "invalid marker byte"
      else if encMarker - marker = 0 then
        (decodeGroups rest).map fun (left, data) => (left, g ++ data)
      else if (g.drop (encGroupSize - (encMarker - marker).toNat)).all (· == encPad) then
        .ok (rest, g.take (encGroupSize - (encMarker - marker).toNat))
      else .error "invalid padding byte" := by
  match g, hg with
  | [_, _, _, _, _, _, _, _], _ => rfl

theorem padCount_toNat : ∀ m < encGroupSize,
    (encMarker - (encMarker - UInt8.ofNat (encGroupSize - m))).toNat = encGroupSize - m := by
  decide

theorem decodeGroups_encodeGroups (rest data : Bytes) :
    decodeGroups (encodeGroups data ++ rest) = .ok (rest, data) := by
  rcases group_cases data with ⟨g, r, hg, rfl⟩ | h
  · rw [encodeGroups_group _ hg, List.append_assoc, List.cons_append, decodeGroups_group _ _ hg,
      decodeGroups_encodeGroups rest r]
    simp [encMarker, encGroupSize, Except.map]
  · have hpad : (data ++ List.replicate (encGroupSize - data.length) encPad).length =
        encGroupSize := by simp; omega
    rw [encodeGroups_short h, List.append_assoc, List.singleton_append,
      decodeGroups_group _ _ hpad, padCount_toNat _ h]
    have h0 : encMarker - (encMarker - UInt8.ofNat (encGroupSize - data.length)) ≠ 0 := by
      intro h0; have := padCount_toNat _ h; rw [h0] at this; simp at this; omega
    rw [if_neg (by omega), if_neg h0, show encGroupSize - (encGroupSize - data.length) =
      data.length by omega, List.drop_left, List.take_left, if_pos]
    exact List.all_eq_true.2 fun x hx => by simp [(List.mem_replicate.1 hx).2]
termination_by data.length
decreasing_by
  simp_wf
  subst_vars
  simp [hg, encGroupSize]

theorem encodeGroups_take_of_padded {g : Bytes} {marker : UInt8} (hg : g.length = encGroupSize)
    (hbig : ¬encGroupSize < (encMarker - marker).toNat) (hzero : ¬encMarker - marker = 0)
    (hpad : (g.drop (encGroupSize - (encMarker - marker).toNat)).all (· == encPad)) :
    encodeGroups (g.take (encGroupSize - (encMarker - marker).toNat)) = g ++ [marker] := by
  set pad := encMarker - marker with hpadDef
  have hpos : pad.toNat ≠ 0 := fun h0 => hzero (UInt8.toNat.inj (by simpa using h0))
  have hshort : (g.take (encGroupSize - pad.toNat)).length < encGroupSize := by
    simp only [List.length_take, hg]; omega
  have hzeros : g.drop (encGroupSize - pad.toNat) = List.replicate pad.toNat encPad :=
    List.eq_replicate_iff.2 ⟨by simp only [List.length_drop, hg]; omega,
      fun x hx => by simpa using List.all_eq_true.1 hpad x hx⟩
  have hof : UInt8.ofNat pad.toNat = pad :=
    UInt8.toNat.inj (UInt8.toNat_ofNat_of_lt pad.val.isLt)
  rw [encodeGroups_short hshort, List.length_take, hg,
    show encGroupSize - min (encGroupSize - pad.toNat) encGroupSize = pad.toNat by omega,
    ← hzeros, hof, hpadDef, sub_sub_cancel, List.take_append_drop]

/-- The decoder accepts only encodings: a string it reads `key` from, leaving `rest`, is the
encoding of `key` followed by `rest`.  Its two checks make it so: the marker of a last group
fixes the padding count, and the padding it reads must be zeros. -/
theorem encodeGroups_of_decodeGroups : ∀ {b rest key : Bytes},
    decodeGroups b = .ok (rest, key) → b = encodeGroups key ++ rest
  | g0 :: g1 :: g2 :: g3 :: g4 :: g5 :: g6 :: g7 :: marker :: tail, rest, key, h => by
      have hg : [g0, g1, g2, g3, g4, g5, g6, g7].length = encGroupSize := rfl
      rw [show g0 :: g1 :: g2 :: g3 :: g4 :: g5 :: g6 :: g7 :: marker :: tail =
        [g0, g1, g2, g3, g4, g5, g6, g7] ++ marker :: tail from rfl] at h ⊢
      rw [decodeGroups_group _ _ hg] at h
      split_ifs at h with hbig hzero hpad
      · -- a full group: its marker is `encMarker`, and the rest is decoded on
        cases hd : decodeGroups tail with
        | error => rw [hd] at h; cases h
        | ok r =>
            obtain ⟨left, data⟩ := r
            simp only [hd, Except.map, Except.ok.injEq, Prod.mk.injEq] at h
            obtain ⟨rfl, rfl⟩ := h
            rw [encodeGroups_group _ hg, encodeGroups_of_decodeGroups hd,
              ← (sub_eq_zero.1 hzero)]
            simp
      · -- a last group: `pad` zeros, then the marker `encMarker - pad`
        simp only [Except.ok.injEq, Prod.mk.injEq] at h
        obtain ⟨rfl, rfl⟩ := h
        rw [encodeGroups_take_of_padded hg hbig hzero hpad]
        simp
  | [], _, _, h | [_], _, _, h | [_, _], _, _, h | [_, _, _], _, _, h | [_, _, _, _], _, _, h
  | [_, _, _, _, _], _, _, h | [_, _, _, _, _, _], _, _, h | [_, _, _, _, _, _, _], _, _, h
  | [_, _, _, _, _, _, _, _], _, _, h => by cases h

theorem decodeGroups_eq_ok_iff {b rest key : Bytes} :
    decodeGroups b = .ok (rest, key) ↔ b = encodeGroups key ++ rest :=
  ⟨encodeGroups_of_decodeGroups, fun h => h ▸ decodeGroups_encodeGroups rest key⟩

/-! ## The order law -/

theorem compareBytes_short_group {r g : Bytes} (X Y Z : Bytes) (hr : r.length < encGroupSize)
    (hg : g.length = encGroupSize) :
    compareBytes (encodeGroups r ++ X) (g ++ encMarker :: Y) = compareBytes r (g ++ Z) := by
  have hpad : (r ++ List.replicate (encGroupSize - r.length) encPad).length = g.length := by
    simp [hg]; omega
  have hm : compare (encMarker - UInt8.ofNat (encGroupSize - r.length)).toNat encMarker.toNat
      = .lt := Nat.compare_eq_lt.2 (by
        rw [marker_toNat _ hr]; simp [encMarker, encGroupSize] at hr ⊢; omega)
  rw [encodeGroups_short hr, List.append_assoc, List.singleton_append,
    compareBytes_append_of_length_eq _ _ hpad, compareBytes_cons_cons, hm, lt_then,
    ← List.take_append_drop r.length g,
    compareBytes_append_of_length_eq _ _ (by simp [hg]; omega), List.append_assoc,
    ← List.append_nil r, compareBytes_append_of_length_eq _ _ (by simp [hg]; omega),
    List.append_nil, then_assoc]
  have hz := compareBytes_zeros_ne_gt (g.drop r.length)
  rw [List.length_drop, hg] at hz
  obtain ⟨w, ws, hw⟩ :=
    List.exists_cons_of_ne_nil (show g.drop r.length ++ Z ≠ [] by simp [hg]; omega)
  rw [hw, compareBytes_nil_cons, encPad, then_lt_of_ne_gt hz]

theorem compareBytes_short_short {r s : Bytes} (X Y : Bytes) (hr : r.length < encGroupSize)
    (hs : s.length < encGroupSize) :
    compareBytes (encodeGroups r ++ X) (encodeGroups s ++ Y) =
      (compareBytes r s).then (compareBytes X Y) := by
  rw [encodeGroups_short hr, encodeGroups_short hs, List.append_assoc (r ++ _),
    List.append_assoc (s ++ _), List.singleton_append, List.singleton_append,
    compareBytes_append_of_length_eq _ _ (by simp; omega), compareBytes_cons_cons,
    marker_toNat _ hr, marker_toNat _ hs, compare_add_left, ← then_assoc, encPad,
    compareBytes_padded encGroupSize r s (Nat.le_of_lt hr) (Nat.le_of_lt hs)]

theorem compareBytes_encodeGroups (a b X Y : Bytes) :
    compareBytes (encodeGroups a ++ X) (encodeGroups b ++ Y) =
      (compareBytes a b).then (compareBytes X Y) := by
  rcases group_cases a with ⟨g, ra, hg, rfl⟩ | ha <;>
    rcases group_cases b with ⟨h, rb, hh, rfl⟩ | hb
  · rw [encodeGroups_group _ hg, encodeGroups_group _ hh, List.append_assoc, List.append_assoc,
      compareBytes_append_of_length_eq _ _ (hg.trans hh.symm),
      compareBytes_append_of_length_eq _ _ (hg.trans hh.symm), List.cons_append,
      List.cons_append, compareBytes_cons_cons, Nat.compare_eq_eq.2 rfl, eq_then,
      compareBytes_encodeGroups ra rb X Y, then_assoc]
  · have hne := @compareBytes_ne_eq_of_length_ne (g ++ ra) b (by simp [hg]; omega)
    rw [then_of_ne_eq hne, encodeGroups_group _ hg, List.append_assoc, List.cons_append,
      ← compareBytes_swap, compareBytes_short_group _ _ ra hb hg, compareBytes_swap]
  · have hne := @compareBytes_ne_eq_of_length_ne a (h ++ rb) (by simp [hh]; omega)
    rw [encodeGroups_group _ hh, List.append_assoc, List.cons_append,
      compareBytes_short_group _ _ rb ha hh, then_of_ne_eq hne]
  · exact compareBytes_short_short X Y ha hb
termination_by a.length
decreasing_by
  simp_wf
  subst_vars
  simp [hg, encGroupSize]

end BackupCli
