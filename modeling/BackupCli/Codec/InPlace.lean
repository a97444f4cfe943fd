/-
# `BackupCli.Codec.InPlace` — `EncodeKeySuffix` into a buffer on the key's own array

A Go slice is a window on a backing array, and `EncodeKeySuffix` hands `buf[:0]` to
`codec.EncodeBytes`, which appends into that window in place whenever `buf` has the room
`reallocBytes` asks for.  `Codec.KeySuffix` models `buf` as a value apart from `key`.  Here
both are windows of one array `arr`: `key` is `arr[keyOff : keyOff + keyLen]`, and `buf`
starts at `bufOff` with capacity `bufCap`.  A buffer with too little room makes
`reallocBytes` allocate, and the fresh array is laid after `arr`, so one loop covers both
cases.

The loop of `EncodeBytes` is `encodeBytesInPlace`.  An iteration reads its group from `arr`
as the earlier iterations left it, then writes the group, its padding and its marker at the
end of the result.  Go's `append` copies with `memmove`, so a group is read whole before any
of its own bytes are written; only the first `append` of an iteration reads the array.

The decoder is left as `Codec.KeySuffix` has it: a decode buffer that does not share the
data's array only lends its capacity.

## What is proved

* `encodeBytesInPlace_eq` — when no byte the loop writes lies in the key, the loop writes
  `encodeGroups key`: the in-place encoder refines the value model.
* `encodeKeySuffixShared_eq` — so over one array `EncodeKeySuffix` returns the bytes of
  `encodeKeySuffix` whenever `buf` has too little room or the bytes it writes miss the key.
* `decodeKeySuffix_encodeKeySuffixShared` — the round trip for every such buffer.
* `encodeKeySuffix_into_key` — `buf = key[:0]` with spare capacity: the marker of the first
  group overwrites the ninth key byte before it is read, and `[1, …, 9]` comes back as
  `[1, …, 8, 0xFF]`.
-/
import BackupCli.Codec.KeySuffix

namespace BackupCli

/-- `arr[pos : pos + n]`. -/
def readAt (arr : Bytes) (pos n : Nat) : Bytes := (arr.drop pos).take n

/-- `arr` after `copy(arr[pos:], xs)`. -/
def writeAt (arr : Bytes) (pos : Nat) (xs : Bytes) : Bytes :=
  arr.take pos ++ xs ++ arr.drop (pos + xs.length)

/-- What one iteration of `EncodeBytes`' loop appends for the group at `idx` of
`data = arr[dataOff : dataOff + dLen]`: a full group and the marker `encMarker`, or the
`remain` last bytes, `padCount` pads and the marker `encMarker - padCount`. -/
def groupAt (arr : Bytes) (dataOff dLen idx : Nat) : Bytes :=
  let remain := dLen - idx
  if encGroupSize ≤ remain then readAt arr (dataOff + idx) encGroupSize ++ [encMarker]
  else
    let padCount := encGroupSize - remain
    readAt arr (dataOff + idx) remain ++ List.replicate padCount encPad ++
      [encMarker - UInt8.ofNat padCount]

/-- `for idx := 0; idx <= dLen; idx += encGroupSize` of `codec.EncodeBytes(result, data)`
appending in place at `pos`, with `fuel` iterations left: each iteration reads its group
from the array as the earlier ones left it. -/
def encodeBytesInPlace (dataOff dLen : Nat) : Nat → Nat → Nat → Bytes → Bytes
  | 0, _, _, arr => arr
  | fuel + 1, idx, pos, arr =>
      if dLen < idx then arr
      else
        encodeBytesInPlace dataOff dLen fuel (idx + encGroupSize) (pos + (encGroupSize + 1))
          (writeAt arr pos (groupAt arr dataOff dLen idx))

/-- `EncodeKeySuffix(buf, key, rowID, offset)` with `key = arr[keyOff : keyOff + keyLen]` and
`buf` a window of `arr` from `bufOff` with capacity `bufCap`: the bytes it returns.
`reallocBytes(buf[:0], reallocSize)` keeps the window when `reallocSize` bytes fit, and
otherwise allocates a fresh array, here the zeros after `arr`.  The 16 bytes of the suffix
are written after the encoded key has been read. -/
def encodeKeySuffixShared (arr : Bytes) (keyOff keyLen bufOff bufCap : Nat)
    (rowID offset : Int64) : Bytes :=
  let reallocSize := (keyLen / encGroupSize + 1) * (encGroupSize + 1)
  let fresh := decide (bufCap < reallocSize)
  let mem := if fresh then arr ++ List.replicate reallocSize 0 else arr
  let start := if fresh then arr.length else bufOff
  let encoded := readAt (encodeBytesInPlace keyOff keyLen (keyLen / encGroupSize + 1) 0 start mem)
    start reallocSize
  encoded ++ putUint64 rowID.toUInt64 ++ putUint64 offset.toUInt64

/-! ## Reads and writes on one array -/

theorem length_writeAt {arr : Bytes} {pos : Nat} (xs : Bytes) (hpos : pos ≤ arr.length) :
    (writeAt arr pos xs).length = max arr.length (pos + xs.length) := by
  simp only [writeAt, List.length_append, List.length_take, List.length_drop]
  omega

theorem readAt_writeAt_of_disjoint {arr : Bytes} {pos off n : Nat} (xs : Bytes)
    (hpos : pos ≤ arr.length) (hsep : pos + xs.length ≤ off ∨ off + n ≤ pos) :
    readAt (writeAt arr pos xs) off n = readAt arr off n := by
  have htake : (arr.take pos).length = pos := by simp; omega
  rcases hsep with hsep | hsep
  · rw [readAt, writeAt, List.drop_append_eq_append_drop, List.drop_eq_nil_of_le (by simp; omega),
      List.nil_append, List.length_append, htake, List.drop_drop, readAt]
    congr 2
    omega
  · rw [readAt, writeAt, List.append_assoc, List.drop_append_of_le_length (by omega),
      List.take_append_of_le_length (by simp; omega), List.drop_take, List.take_take, readAt,
      min_eq_left (by omega)]

theorem writeAt_writeAt {arr : Bytes} {pos : Nat} (xs ys : Bytes) (hpos : pos ≤ arr.length) :
    writeAt (writeAt arr pos xs) (pos + xs.length) ys = writeAt arr pos (xs ++ ys) := by
  have htake : (arr.take pos ++ xs).length = pos + xs.length := by simp; omega
  simp only [writeAt]
  rw [List.take_left' htake, List.drop_append_eq_append_drop, htake,
    List.drop_eq_nil_of_le (by omega), List.nil_append, List.drop_drop, List.length_append]
  simp only [List.append_assoc]
  congr 4
  omega

theorem readAt_append_of_le {arr : Bytes} {off n : Nat} (z : Bytes) (h : off + n ≤ arr.length) :
    readAt (arr ++ z) off n = readAt arr off n := by
  rw [readAt, List.drop_append_of_le_length (by omega),
    List.take_append_of_le_length (by simp; omega), readAt]

theorem readAt_writeAt_self {arr : Bytes} {pos : Nat} (xs : Bytes) (hpos : pos ≤ arr.length) :
    readAt (writeAt arr pos xs) pos xs.length = xs := by
  have htake : (arr.take pos).length = pos := by simp; omega
  rw [readAt, writeAt, List.append_assoc, List.drop_left' htake, List.take_left]

theorem readAt_readAt {arr : Bytes} {off i m n : Nat} (h : i + m ≤ n) :
    readAt arr (off + i) m = ((readAt arr off n).drop i).take m := by
  simp only [readAt, List.drop_drop, List.drop_take, List.take_take]
  rw [min_eq_left (by omega)]

/-! ## The loop, while the key stays intact

`hK` says that the key window of the current array still holds the key `K`.  Each iteration
then appends the next group of `encodeGroups K`; when its write misses the key window, the
key is still intact for the next one. -/

section Loop

variable {arr K : Bytes} {dataOff dLen idx : Nat}

theorem groupAt_full (hK : readAt arr dataOff dLen = K) (hlen : K.length = dLen)
    (hfull : encGroupSize ≤ dLen - idx) :
    groupAt arr dataOff dLen idx ++ encodeGroups (K.drop (idx + encGroupSize)) =
      encodeGroups (K.drop idx) := by
  have h8 : encGroupSize = 8 := rfl
  have hg : ((K.drop idx).take encGroupSize).length = encGroupSize := by simp; omega
  rw [← List.take_append_drop encGroupSize (K.drop idx), encodeGroups_group _ hg, groupAt,
    if_pos hfull, @readAt_readAt arr dataOff idx encGroupSize dLen (by omega), hK, List.drop_drop,
    Nat.add_comm]
  simp

theorem groupAt_last (hK : readAt arr dataOff dLen = K) (hlen : K.length = dLen)
    (hidx : idx ≤ dLen) (hlast : dLen - idx < encGroupSize) :
    groupAt arr dataOff dLen idx = encodeGroups (K.drop idx) := by
  have hrest : (K.drop idx).length = dLen - idx := by simp [hlen]
  rw [encodeGroups_short (by omega), groupAt, if_neg (by omega),
    @readAt_readAt arr dataOff idx (dLen - idx) dLen (by omega), hK,
    List.take_of_length_le (by omega), hrest]

theorem encodeBytesInPlace_done {fuel pos : Nat} (h : dLen < idx) :
    encodeBytesInPlace dataOff dLen fuel idx pos arr = arr := by
  cases fuel <;> simp [encodeBytesInPlace, h]

theorem encodeBytesInPlace_eq (hlen : K.length = dLen) :
    ∀ (fuel idx pos : Nat) (arr : Bytes), readAt arr dataOff dLen = K → idx ≤ dLen →
      (dLen - idx) / encGroupSize < fuel → pos ≤ arr.length →
      (pos + (encodeGroups (K.drop idx)).length ≤ dataOff ∨ dataOff + dLen ≤ pos) →
      encodeBytesInPlace dataOff dLen fuel idx pos arr = writeAt arr pos (encodeGroups (K.drop idx))
  | 0, _, _, _, _, _, hfuel, _, _ => absurd hfuel (Nat.not_lt_zero _)
  | fuel + 1, idx, pos, arr, hK, hidx, hfuel, hpos, hsep => by
      have h8 : encGroupSize = 8 := rfl
      have hfuel' : (dLen - idx) / 8 < fuel + 1 := hfuel
      have hlenG : (encodeGroups (K.drop idx)).length = ((dLen - idx) / 8 + 1) * 9 := by
        simp [length_encodeGroups, hlen, h8]
      have hlenG' : (encodeGroups (K.drop (idx + 8))).length = ((dLen - (idx + 8)) / 8 + 1) * 9 := by
        simp [length_encodeGroups, hlen, h8]
      rw [encodeBytesInPlace, if_neg (by omega)]
      by_cases hfull : encGroupSize ≤ dLen - idx
      · -- a full group: nine bytes written, the key still intact after them
        have hg : (groupAt arr dataOff dLen idx).length = encGroupSize + 1 := by
          have := congrArg List.length (groupAt_full hK hlen hfull)
          rw [List.length_append, h8, hlenG'] at this
          omega
        have hK' : readAt (writeAt arr pos (groupAt arr dataOff dLen idx)) dataOff dLen = K := by
          rw [readAt_writeAt_of_disjoint _ hpos (by omega), hK]
        rw [encodeBytesInPlace_eq hlen fuel (idx + encGroupSize) _ _ hK' (by omega)
          (show (dLen - (idx + 8)) / 8 < fuel by omega) (by rw [length_writeAt _ hpos]; omega)
          (by rw [h8, hlenG']; omega),
          ← hg, writeAt_writeAt _ _ hpos, groupAt_full hK hlen hfull]
      · -- the last group: the loop stops after it
        rw [encodeBytesInPlace_done (by omega), groupAt_last hK hlen hidx (by omega)]

/-- The whole loop, from `idx = 0`, writes the encoding of the key at `start` when no byte it
writes is a key byte. -/
theorem readAt_encodeBytesInPlace {mem : Bytes} {start : Nat} (hK : readAt mem dataOff dLen = K)
    (hlen : K.length = dLen) (hstart : start ≤ mem.length)
    (hsep : start + (dLen / encGroupSize + 1) * (encGroupSize + 1) ≤ dataOff ∨
      dataOff + dLen ≤ start) :
    readAt (encodeBytesInPlace dataOff dLen (dLen / encGroupSize + 1) 0 start mem) start
      ((dLen / encGroupSize + 1) * (encGroupSize + 1)) = encodeGroups K := by
  have hlenG : (encodeGroups K).length = (dLen / encGroupSize + 1) * (encGroupSize + 1) := by
    rw [length_encodeGroups, hlen]
  rw [encodeBytesInPlace_eq hlen _ 0 start mem hK (Nat.zero_le _) (by simp) hstart
    (by simpa [hlenG] using hsep), List.drop_zero, ← hlenG, readAt_writeAt_self _ hstart]

end Loop

/-! ## `EncodeKeySuffix` over one array -/

section Shared

variable {arr : Bytes} {keyOff keyLen bufOff bufCap : Nat}

theorem encodeKeySuffixShared_eq (rowID offset : Int64) (hkey : keyOff + keyLen ≤ arr.length)
    (hbuf : bufOff + bufCap ≤ arr.length)
    (hsep : (keyLen / encGroupSize + 1) * (encGroupSize + 1) ≤ bufCap →
      bufOff + (keyLen / encGroupSize + 1) * (encGroupSize + 1) ≤ keyOff ∨
        keyOff + keyLen ≤ bufOff) :
    encodeKeySuffixShared arr keyOff keyLen bufOff bufCap rowID offset =
      (encodeKeySuffix .nil (readAt arr keyOff keyLen) rowID offset).bytes := by
  have hlen : (readAt arr keyOff keyLen).length = keyLen := by simp [readAt]; omega
  rw [encodeKeySuffix_bytes, ← List.append_assoc, encodeKeySuffixShared]
  congr 2
  by_cases hfresh : bufCap < (keyLen / encGroupSize + 1) * (encGroupSize + 1)
  · -- `reallocBytes` allocates: the key is read from `arr`, the groups go to the new array
    simp only [hfresh, decide_True, if_true]
    exact readAt_encodeBytesInPlace (readAt_append_of_le _ hkey) hlen (by simp) (.inr hkey)
  · simp only [hfresh, decide_False, Bool.false_eq_true, if_false]
    exact readAt_encodeBytesInPlace rfl hlen (by omega) (hsep (by omega))

theorem decodeKeySuffix_encodeKeySuffixShared (buf2 : Slice) (rowID offset : Int64)
    (hkey : keyOff + keyLen ≤ arr.length) (hbuf : bufOff + bufCap ≤ arr.length)
    (hsep : (keyLen / encGroupSize + 1) * (encGroupSize + 1) ≤ bufCap →
      bufOff + (keyLen / encGroupSize + 1) * (encGroupSize + 1) ≤ keyOff ∨
        keyOff + keyLen ≤ bufOff) :
    decodeKeySuffix buf2 (encodeKeySuffixShared arr keyOff keyLen bufOff bufCap rowID offset) =
      .ok (readAt arr keyOff keyLen, rowID, offset) := by
  rw [encodeKeySuffixShared_eq rowID offset hkey hbuf hsep, decodeKeySuffix_encodeKeySuffix]

end Shared

/-- The key `[1, …, 9]`: one full group, and a last group of one byte. -/
def nineKey : Bytes := [1, 2, 3, 4, 5, 6, 7, 8, 9]

/-- `buf` the eighteen bytes after the key on one array: the key comes back. -/
theorem decodeKeySuffix_buf_after_key :
    decodeKeySuffix .nil (encodeKeySuffixShared (nineKey ++ List.replicate 18 0) 0 9 9 18 ⟨0⟩ ⟨0⟩) =
        .ok (readAt (nineKey ++ List.replicate 18 0) 0 9, ⟨0⟩, ⟨0⟩) ∧
      readAt (nineKey ++ List.replicate 18 0) 0 9 = nineKey :=
  ⟨decodeKeySuffix_encodeKeySuffixShared .nil ⟨0⟩ ⟨0⟩ (by decide) (by decide) (by decide), rfl⟩

/-- `buf = key[:0]` with nine spare bytes after the key: the first group's marker `0xFF` is
written over the ninth key byte before the last group reads it. -/
theorem encodeKeySuffix_into_key :
    readAt (nineKey ++ List.replicate 9 0) 0 9 = nineKey ∧
      decodeKeySuffix .nil (encodeKeySuffixShared (nineKey ++ List.replicate 9 0) 0 9 0 18 ⟨0⟩ ⟨0⟩) =
        .ok ([1, 2, 3, 4, 5, 6, 7, 8, 0xFF], ⟨0⟩, ⟨0⟩) :=
  ⟨rfl, rfl⟩

end BackupCli
