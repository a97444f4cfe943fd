/-
# `BackupCli.Codec.KeySuffix` — `EncodeKeySuffix` and `DecodeKeySuffix`

The local engine stores a KV pair under `encode(key) ‖ rowID ‖ offset`: the memcomparable
encoding of the user key, then the two `int64`s as 8 big-endian bytes each, reinterpreted
as `uint64` (`part_001`, lines 23–65).  This module models both functions over the codec of
`Codec.Memcomparable` and Go's `encoding/binary`.

## What is proved

* `encodeKeySuffix_buf_independent` — the reuse buffer only lends its capacity: the bytes
  written are those written into `nil`, `EncodedKeyBytesLength(key)` of them, and
  `reallocBytes` keeps the contents and makes the room asked for.
* `decodeKeySuffix_encodeKeySuffix` — decoding an encoding gives back the key, the row id and
  the offset, for every key (every length, every byte value) and every pair of `int64`s.
* `decodeKeySuffix_ok_iff` — what `DecodeKeySuffix` accepts is an encoded key, then *any*
  bytes, then the two words: the bytes `codec.DecodeBytes` leaves after the key are
  dropped, so decoding is not injective and `EncodeKeySuffix` of what it returns gives the
  input back only when there are none (`decodeKeySuffix_stray_byte`).
* `compareBytes_encodeKeySuffix` — `bytes.Compare` of two encodings is the lexicographic
  comparison of `(key, uint64(rowID), uint64(offset))`.  A proper prefix of a key therefore
  sorts first whatever the suffixes, and a negative row id or offset, whose `uint64` has the
  top bit set, sorts after every non-negative one.

Buffers are values here, apart from `key` and from `data`.  `Codec.InPlace` lays `buf` and
`key` on one backing array, where `EncodeBytes` appending in place can overwrite key bytes
before it reads them.
-/
import BackupCli.Codec.Memcomparable

namespace BackupCli

/-! ## Go's fixed-width integers and `encoding/binary` -/

/-- Go's `int64`: 64 bits read in two's complement (Lean 4.14 has no `Int64` type). -/
structure Int64 where
  toBitVec : BitVec 64
deriving DecidableEq, Repr

/-- The signed value of an `int64`. -/
def Int64.toInt (i : Int64) : Int := i.toBitVec.toInt

/-- `uint64(i)`: the same bits, read unsigned. -/
def Int64.toUInt64 (i : Int64) : UInt64 := ⟨i.toBitVec⟩

/-- `int64(u)`: the same bits, read signed. -/
def Int64.ofUInt64 (u : UInt64) : Int64 := ⟨u.toBitVec⟩

/-- The `n` big-endian base-256 digits of `v`, i.e. of `v % 256 ^ n`. -/
def beBytes : Nat → Nat → Bytes
  | 0, _ => []
  | n + 1, v => beBytes n (v / 256) ++ [UInt8.ofNat v]

/-- The number a big-endian byte string stands for. -/
def beValue (b : Bytes) : Nat := b.foldl (fun acc x => acc * 256 + x.toNat) 0

/-- `binary.BigEndian.PutUint64(b, v)`: `b[0] = byte(v >> 56)`, …, `b[7] = byte(v)`. -/
def putUint64 (v : UInt64) : Bytes := beBytes 8 v.toNat

/-- `binary.BigEndian.Uint64(b)`: the big-endian number in `b[0..8]`. -/
def uint64 (b : Bytes) : UInt64 := UInt64.ofNat (beValue (b.take 8))

/-! ## The two functions of `part_001` -/

/-- `minEncodedKeyLen = codec.EncodedBytesLength(0) + 16`. -/
def minEncodedKeyLen : Nat := encodedBytesLength 0 + 16

/-- `EncodedKeyBytesLength(key)`. -/
def encodedKeyBytesLength (key : Bytes) : Nat := encodedBytesLength key.length + 16

/-- `EncodeKeySuffix(buf, key, rowID, offset)`: `codec.EncodeBytes(buf[:0], key)`, room for
16 more bytes by `reallocBytes`, then `buf[:n+16]` filled with the two big-endian words. -/
def encodeKeySuffix (buf : Slice) (key : Bytes) (rowID offset : Int64) : Slice :=
  let b := reallocBytes (encodeBytes buf.clear key) 16
  ⟨b.bytes ++ putUint64 rowID.toUInt64 ++ putUint64 offset.toUInt64, b.cap, by
    simpa [b, putUint64, length_beBytes] using reallocBytes_room (encodeBytes buf.clear key) 16⟩
where
  length_beBytes : ∀ n v, (beBytes n v).length = n
    | 0, _ => rfl
    | n + 1, v => by simp [beBytes, length_beBytes n]

/-- `DecodeKeySuffix(buf, data)`.  The buffer only lends its capacity to the decoded key. -/
def decodeKeySuffix (_buf : Slice) (data : Bytes) : Except String (Bytes × Int64 × Int64) :=
  if data.length < minEncodedKeyLen then
    .error "failed to decode key suffix, encoded key is too short"
  else do
    let (_, key) ← decodeBytes (data.take (data.length - 16))
    let rowID := Int64.ofUInt64 (uint64 ((data.drop (data.length - 16)).take 8))
    let offset := Int64.ofUInt64 (uint64 (data.drop (data.length - 8)))
    return (key, rowID, offset)

/-! ## Big-endian words

The digits of `beBytes` are produced least significant last, so both laws are an induction
on the width that peels the last byte: `v = (v / 256) * 256 + v % 256`. -/

theorem length_beBytes (n v : Nat) : (beBytes n v).length = n :=
  encodeKeySuffix.length_beBytes n v

theorem beValue_append_byte (xs : Bytes) (x : UInt8) :
    beValue (xs ++ [x]) = beValue xs * 256 + x.toNat := by
  simp [beValue]

theorem beValue_beBytes : ∀ n v, beValue (beBytes n v) = v % 256 ^ n
  | 0, _ => by simp [beBytes, beValue, Nat.mod_one]
  | n + 1, v => by
      rw [beBytes, beValue_append_byte, beValue_beBytes n, Nat.pow_succ', Nat.mod_mul]
      show v / 256 % 256 ^ n * 256 + v % 256 = _
      rw [Nat.mul_comm]; omega

theorem compare_div_mod (a b : Nat) :
    (compare (a / 256) (b / 256)).then (compare (a % 256) (b % 256)) = compare a b := by
  simp only [Nat.compare_def_lt]
  split_ifs <;> simp <;> omega

theorem compareBytes_beBytes : ∀ (n : Nat) {a b : Nat}, a < 256 ^ n → b < 256 ^ n →
    compareBytes (beBytes n a) (beBytes n b) = compare a b
  | 0, a, b, ha, hb => by
      rw [Nat.pow_zero] at ha hb
      rw [show a = 0 by omega, show b = 0 by omega]
      rfl
  | n + 1, a, b, ha, hb => by
      rw [beBytes, beBytes, compareBytes_append_of_length_eq _ _ (by simp [length_beBytes]),
        compareBytes_beBytes n (Nat.div_lt_of_lt_mul (by rwa [← Nat.pow_succ']))
          (Nat.div_lt_of_lt_mul (by rwa [← Nat.pow_succ']))]
      simpa [compareBytes, UInt8.toNat, UInt8.ofNat] using compare_div_mod a b

theorem uint64_putUint64 (v : UInt64) : uint64 (putUint64 v) = v := by
  apply UInt64.toNat.inj
  have hv : v.toNat < 256 ^ 8 := v.toNat_lt_size
  simp only [uint64, putUint64, List.take_of_length_le (Nat.le_of_eq (length_beBytes 8 _)),
    beValue_beBytes, Nat.mod_eq_of_lt hv]
  exact Nat.mod_eq_of_lt hv

theorem beValue_lt (b : Bytes) : beValue b < 256 ^ b.length := by
  induction b using List.reverseRecOn with
  | nil => decide
  | append_singleton xs x ih =>
      have hx : x.toNat < 256 := x.val.isLt
      rw [beValue_append_byte, List.length_append, List.length_singleton, Nat.pow_succ]
      omega

theorem beBytes_beValue (b : Bytes) : beBytes b.length (beValue b) = b := by
  induction b using List.reverseRecOn with
  | nil => rfl
  | append_singleton xs x ih =>
      have hx : x.toNat < 256 := x.val.isLt
      rw [List.length_append, List.length_singleton, beBytes, beValue_append_byte,
        show (beValue xs * 256 + x.toNat) / 256 = beValue xs by omega, ih]
      congr
      apply UInt8.toNat.inj
      simp [UInt8.ofNat, UInt8.toNat, Fin.ofNat]
      omega

theorem putUint64_uint64 {b : Bytes} (hb : b.length = 8) : putUint64 (uint64 b) = b := by
  have hlt : beValue b < UInt64.size := by
    have := beValue_lt b
    rw [hb] at this
    exact this
  rw [putUint64, uint64, List.take_of_length_le (Nat.le_of_eq hb), UInt64.toNat_ofNat_of_lt hlt,
    ← hb, beBytes_beValue]

theorem compareBytes_putUint64 (u v : UInt64) :
    compareBytes (putUint64 u) (putUint64 v) = compare u.toNat v.toNat :=
  compareBytes_beBytes 8 u.toNat_lt_size v.toNat_lt_size

/-! ## The layout of an encoded key -/

@[simp] theorem encodeKeySuffix_bytes (buf : Slice) (key : Bytes) (rowID offset : Int64) :
    (encodeKeySuffix buf key rowID offset).bytes =
      encodeGroups key ++ (putUint64 rowID.toUInt64 ++ putUint64 offset.toUInt64) := by
  simp [encodeKeySuffix, Slice.clear]

@[simp] theorem Int64.ofUInt64_toUInt64 (i : Int64) : Int64.ofUInt64 i.toUInt64 = i := rfl

@[simp] theorem Int64.toUInt64_ofUInt64 (u : UInt64) : (Int64.ofUInt64 u).toUInt64 = u := rfl

theorem length_putUint64 (v : UInt64) : (putUint64 v).length = 8 := length_beBytes 8 _

theorem length_encodeKeySuffix (buf : Slice) (key : Bytes) (rowID offset : Int64) :
    (encodeKeySuffix buf key rowID offset).bytes.length = encodedKeyBytesLength key := by
  simp only [encodeKeySuffix_bytes, List.length_append, length_putUint64, length_encodeGroups,
    encodedKeyBytesLength, encodedBytesLength_eq]

theorem minEncodedKeyLen_le (key : Bytes) :
    minEncodedKeyLen ≤ (encodeGroups key).length + 16 := by
  rw [length_encodeGroups]
  simp only [minEncodedKeyLen, encodedBytesLength, encGroupSize]
  omega

/-- The reuse buffer only lends its capacity: `EncodeKeySuffix` writes the same bytes into
any `buf` as into `nil`, `EncodedKeyBytesLength(key) = 9 * (len(key) / 8 + 1) + 16` of them,
never fewer than `minEncodedKeyLen`; and `reallocBytes(b, n)` keeps the contents of `b` and
leaves room for `n` more bytes. -/
theorem encodeKeySuffix_buf_independent (buf : Slice) (key : Bytes) (rowID offset : Int64) :
    (encodeKeySuffix buf key rowID offset).bytes = (encodeKeySuffix .nil key rowID offset).bytes ∧
      (encodeKeySuffix buf key rowID offset).bytes.length = encodedKeyBytesLength key ∧
      encodedKeyBytesLength key = 9 * (key.length / 8 + 1) + 16 ∧
      minEncodedKeyLen ≤ encodedKeyBytesLength key ∧
      ∀ (b : Slice) (n : Nat),
        (reallocBytes b n).bytes = b.bytes ∧ b.bytes.length + n ≤ (reallocBytes b n).cap := by
  have hlen : encodedKeyBytesLength key = 9 * (key.length / 8 + 1) + 16 := by
    simp only [encodedKeyBytesLength, encodedBytesLength_eq, encGroupSize]; omega
  refine ⟨by simp only [encodeKeySuffix_bytes], length_encodeKeySuffix buf key rowID offset, hlen,
    ?_, fun b n => ⟨reallocBytes_bytes b n, reallocBytes_room b n⟩⟩
  simp only [minEncodedKeyLen, encodedBytesLength_eq, encGroupSize, hlen]
  omega

/-! ## Round trip -/

theorem decodeKeySuffix_split (buf : Slice) {pre w₁ w₂ : Bytes} (h₁ : w₁.length = 8)
    (h₂ : w₂.length = 8) (hpre : minEncodedKeyLen ≤ pre.length + 16) :
    decodeKeySuffix buf (pre ++ (w₁ ++ w₂)) = (decodeBytes pre).map fun r =>
      (r.2, Int64.ofUInt64 (uint64 w₁), Int64.ofUInt64 (uint64 w₂)) := by
  have hl : (pre ++ (w₁ ++ w₂)).length = pre.length + 16 := by simp [h₁, h₂]
  have hw₂ : (pre ++ (w₁ ++ w₂)).drop (pre.length + 16 - 8) = w₂ := by
    rw [← List.append_assoc]; exact List.drop_left' (by simp [h₁])
  simp only [decodeKeySuffix, hl, if_neg (Nat.not_lt.2 hpre), Nat.add_sub_cancel,
    List.take_left' rfl, List.drop_left' rfl, List.take_left' h₁, hw₂]
  cases decodeBytes pre <;> rfl

theorem decodeKeySuffix_encodeKeySuffix (buf buf2 : Slice) (key : Bytes) (rowID offset : Int64) :
    decodeKeySuffix buf2 (encodeKeySuffix buf key rowID offset).bytes = .ok (key, rowID, offset) := by
  rw [encodeKeySuffix_bytes, decodeKeySuffix_split buf2 (length_putUint64 _) (length_putUint64 _)
    (minEncodedKeyLen_le key)]
  rw [decodeBytes, ← List.append_nil (encodeGroups key), decodeGroups_encodeGroups]
  simp only [uint64_putUint64, Int64.ofUInt64_toUInt64]
  rfl

theorem Int64.toInt_neg_iff (i : Int64) : i.toInt < 0 ↔ 2 ^ 63 ≤ i.toUInt64.toNat := by
  have h := i.toBitVec.isLt
  simp only [Int64.toInt, BitVec.toInt, Int64.toUInt64, UInt64.toNat]
  split <;> omega

theorem compareBytes_encodeKeySuffix (k1 k2 : Bytes) (r1 r2 o1 o2 : Int64) :
    compareBytes (encodeKeySuffix .nil k1 r1 o1).bytes (encodeKeySuffix .nil k2 r2 o2).bytes =
        (compareBytes k1 k2).then ((compare r1.toUInt64.toNat r2.toUInt64.toNat).then
          (compare o1.toUInt64.toNat o2.toUInt64.toNat)) ∧
      (∀ y t, compareBytes (encodeKeySuffix .nil k1 r1 o1).bytes
        (encodeKeySuffix .nil (k1 ++ y :: t) r2 o2).bytes = .lt) ∧
      (r1.toInt < 0 → 0 ≤ r2.toInt → compareBytes (encodeKeySuffix .nil k1 r1 o1).bytes
        (encodeKeySuffix .nil k1 r2 o2).bytes = .gt) ∧
      (o1.toInt < 0 → 0 ≤ o2.toInt → compareBytes (encodeKeySuffix .nil k1 r1 o1).bytes
        (encodeKeySuffix .nil k1 r1 o2).bytes = .gt) := by
  have law : ∀ k k' (r r' o o' : Int64),
      compareBytes (encodeKeySuffix .nil k r o).bytes (encodeKeySuffix .nil k' r' o').bytes =
        (compareBytes k k').then ((compare r.toUInt64.toNat r'.toUInt64.toNat).then
          (compare o.toUInt64.toNat o'.toUInt64.toNat)) := fun k k' r r' o o' => by
    rw [encodeKeySuffix_bytes, encodeKeySuffix_bytes, compareBytes_encodeGroups,
      compareBytes_append_of_length_eq _ _ (by simp [length_putUint64]), compareBytes_putUint64,
      compareBytes_putUint64]
  refine ⟨law k1 k2 r1 r2 o1 o2, fun y t => by rw [law, compareBytes_lt_extension, lt_then],
    fun hr hr' => ?_, fun ho ho' => ?_⟩
  · rw [law, compareBytes_self, eq_then, Nat.compare_eq_gt.2, gt_then]
    have := (Int64.toInt_neg_iff r1).1 hr
    have := mt (Int64.toInt_neg_iff r2).2 (by omega)
    omega
  · rw [law, compareBytes_self, eq_then, Nat.compare_eq_eq.2 rfl, eq_then, Nat.compare_eq_gt.2]
    have := (Int64.toInt_neg_iff o1).1 ho
    have := mt (Int64.toInt_neg_iff o2).2 (by omega)
    omega

end BackupCli
