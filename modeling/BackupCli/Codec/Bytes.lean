/-
# `BackupCli.Codec.Bytes` — byte strings, `bytes.Compare`, and Go slices

Everything the key codec is stated over.  A Go `[]byte` is modelled by its contents
(`Bytes`), and where its capacity matters by a `Slice`, which carries the proof that the
contents fit.  `bytes.Compare` is `compareBytes`, an `Ordering`-valued function defined by
structural recursion, so it evaluates.

## What is proved here

The lemmas the order law of `Codec.Memcomparable` is assembled from:

* `compareBytes_append_of_length_eq` — comparing two strings whose first blocks have one
  length compares the blocks, then what follows them.  Every step of the order proof is an
  instance of it: groups are 9 bytes, the suffix halves are 8.
* `compareBytes_zeros_ne_gt` — a block of zero bytes is the least block of its length;
  this is why the zero padding of a last group never decides a comparison.
* `compareBytes_padded` — two short strings padded to one width compare as the strings,
  with ties broken by their lengths.

`compareBytes_lt_trans` and its companions make `compareBytes` a total order, for the key
ranges of the duplicate-detect streams.

`reallocBytes` is the function of `part_001` (the codec library carries an identical copy);
`reallocBytes_room` is the one fact about it that the encoder needs.
-/
import Mathlib.Data.List.Basic
import Mathlib.Tactic.SplitIfs
import Mathlib.Algebra.Order.Ring.Nat

namespace BackupCli

/-- Go's `[]byte`, by its contents. -/
abbrev Bytes := List UInt8

/-- Go's `bytes.Compare`: byte-wise lexicographic order, a proper prefix first.  Go
returns `-1`, `0`, `+1`; here they are `.lt`, `.eq`, `.gt`. -/
def compareBytes : Bytes → Bytes → Ordering
  | [], [] => .eq
  | [], _ :: _ => .lt
  | _ :: _, [] => .gt
  | x :: xs, y :: ys => (compare x.toNat y.toNat).then (compareBytes xs ys)

/-! ## `Ordering.then`, the lexicographic product -/

@[simp] theorem eq_then (o : Ordering) : Ordering.eq.then o = o := rfl

@[simp] theorem lt_then (o : Ordering) : Ordering.lt.then o = .lt := rfl

@[simp] theorem gt_then (o : Ordering) : Ordering.gt.then o = .gt := rfl

@[simp] theorem then_eq_right (o : Ordering) : o.then .eq = o := by cases o <;> rfl

theorem then_assoc (a b c : Ordering) : (a.then b).then c = a.then (b.then c) := by
  cases a <;> rfl

theorem then_of_ne_eq {o : Ordering} (h : o ≠ .eq) (o' : Ordering) : o.then o' = o := by
  cases o <;> simp_all

theorem then_lt_of_ne_gt {o : Ordering} (h : o ≠ .gt) : o.then .lt = .lt := by
  cases o <;> simp_all

theorem then_gt_of_ne_lt {o : Ordering} (h : o ≠ .lt) : o.then .gt = .gt := by
  cases o <;> simp_all

theorem compare_add_left (k a b : Nat) : compare (k + a) (k + b) = compare a b := by
  simp only [Nat.compare_def_lt]
  split_ifs <;> first | rfl | omega

/-! ## `compareBytes` -/

theorem byte_toNat_inj {x y : UInt8} : x.toNat = y.toNat ↔ x = y :=
  ⟨UInt8.toNat.inj, congrArg _⟩

@[simp] theorem compareBytes_nil_cons (y : UInt8) (ys : Bytes) :
    compareBytes [] (y :: ys) = .lt := rfl

@[simp] theorem compareBytes_cons_nil (x : UInt8) (xs : Bytes) :
    compareBytes (x :: xs) [] = .gt := rfl

@[simp] theorem compareBytes_cons_cons (x y : UInt8) (xs ys : Bytes) :
    compareBytes (x :: xs) (y :: ys) = (compare x.toNat y.toNat).then (compareBytes xs ys) :=
  rfl

theorem compareBytes_swap : ∀ xs ys : Bytes, (compareBytes xs ys).swap = compareBytes ys xs
  | [], [] => rfl
  | [], _ :: _ => rfl
  | _ :: _, [] => rfl
  | x :: xs, y :: ys => by
      simp [Ordering.swap_then, Nat.compare_swap, compareBytes_swap xs ys]

theorem compareBytes_eq_iff : ∀ {xs ys : Bytes}, compareBytes xs ys = .eq ↔ xs = ys
  | [], [] => by simp [compareBytes]
  | [], _ :: _ => by simp
  | _ :: _, [] => by simp
  | x :: xs, y :: ys => by
      simp [Ordering.then_eq_eq, Nat.compare_eq_eq, compareBytes_eq_iff, byte_toNat_inj]

@[simp] theorem compareBytes_self (xs : Bytes) : compareBytes xs xs = .eq :=
  compareBytes_eq_iff.2 rfl

theorem compareBytes_ne_eq_of_length_ne {xs ys : Bytes} (h : xs.length ≠ ys.length) :
    compareBytes xs ys ≠ .eq := fun he => h (congrArg List.length (compareBytes_eq_iff.1 he))

theorem compareBytes_append_of_length_eq :
    ∀ {xs ys : Bytes} (s t : Bytes), xs.length = ys.length →
      compareBytes (xs ++ s) (ys ++ t) = (compareBytes xs ys).then (compareBytes s t)
  | [], [], _, _, _ => rfl
  | x :: xs, y :: ys, s, t, h => by
      simp [compareBytes_append_of_length_eq s t (Nat.succ.inj h), then_assoc]

theorem compareBytes_append_left (p xs ys : Bytes) :
    compareBytes (p ++ xs) (p ++ ys) = compareBytes xs ys := by
  simp [compareBytes_append_of_length_eq xs ys rfl]

theorem compareBytes_lt_extension (p : Bytes) (y : UInt8) (t : Bytes) :
    compareBytes p (p ++ y :: t) = .lt := by
  simpa using compareBytes_append_left p [] (y :: t)

theorem compareBytes_zeros_ne_gt : ∀ (ys : Bytes),
    compareBytes (List.replicate ys.length 0) ys ≠ .gt
  | [] => by simp [compareBytes]
  | y :: ys => by
      have := compareBytes_zeros_ne_gt ys
      simp only [List.length_cons, List.replicate_succ, compareBytes_cons_cons]
      cases h : compare (0 : UInt8).toNat y.toNat <;> simp_all [Ordering.then, Nat.compare_eq_gt]

theorem compareBytes_ne_zeros_lt (ys : Bytes) :
    compareBytes ys (List.replicate ys.length 0) ≠ .lt := by
  have := compareBytes_zeros_ne_gt ys
  rw [← compareBytes_swap]
  cases h : compareBytes (List.replicate ys.length 0) ys <;> simp_all [Ordering.swap]

theorem compareBytes_padded : ∀ (N : Nat) (r s : Bytes), r.length ≤ N → s.length ≤ N →
    (compareBytes (r ++ List.replicate (N - r.length) 0)
      (s ++ List.replicate (N - s.length) 0)).then (compare r.length s.length) =
      compareBytes r s
  | N, [], [], _, _ => by simp [Nat.compare_eq_eq]
  | N, [], y :: s, _, hs => by
      have := compareBytes_zeros_ne_gt ((y :: s) ++ List.replicate (N - (y :: s).length) 0)
      simp only [List.length_append, List.length_replicate] at this
      rw [show (y :: s).length + (N - (y :: s).length) = N by omega] at this
      simp only [List.length_nil, Nat.sub_zero, List.nil_append]
      rw [show compare 0 (y :: s).length = .lt from Nat.compare_eq_lt.2 (by simp)]
      exact then_lt_of_ne_gt this
  | N, x :: r, [], hr, _ => by
      have := compareBytes_ne_zeros_lt ((x :: r) ++ List.replicate (N - (x :: r).length) 0)
      simp only [List.length_append, List.length_replicate] at this
      rw [show (x :: r).length + (N - (x :: r).length) = N by omega] at this
      simp only [List.length_nil, Nat.sub_zero, List.nil_append]
      rw [show compare (x :: r).length 0 = .gt from Nat.compare_eq_gt.2 (by simp)]
      exact then_gt_of_ne_lt this
  | N + 1, x :: r, y :: s, hr, hs => by
      have ih := compareBytes_padded N r s (by simp at hr; omega) (by simp at hs; omega)
      simp only [List.length_cons, Nat.add_sub_add_right, List.cons_append,
        compareBytes_cons_cons, then_assoc]
      rw [show compare (r.length + 1) (s.length + 1) = compare r.length s.length by
        simpa [Nat.add_comm] using compare_add_left 1 r.length s.length, ih]

/-! ## `compareBytes` is a total order

`≠ .gt` reads "at most", `= .lt` "below".  These are the facts the key ranges of
`Duplicate.Ranges` are reasoned about with. -/

theorem compareBytes_lt_trans : ∀ {a b c : Bytes}, compareBytes a b = .lt →
    compareBytes b c = .lt → compareBytes a c = .lt
  | [], _ :: _, _ :: _, _, _ => rfl
  | x :: xs, y :: ys, z :: zs, h1, h2 => by
      simp only [compareBytes_cons_cons, Ordering.then_eq_lt, Nat.compare_eq_lt,
        Nat.compare_eq_eq] at *
      rcases h1 with h1 | ⟨h1, h1'⟩ <;> rcases h2 with h2 | ⟨h2, h2'⟩
      · exact .inl (by omega)
      · exact .inl (by omega)
      · exact .inl (by omega)
      · exact .inr ⟨by omega, compareBytes_lt_trans h1' h2'⟩
  | [], [], _, h1, _ => by cases h1
  | _ :: _, [], _, h1, _ => by cases h1
  | _, _ :: _, [], _, h2 => by cases h2

theorem compareBytes_ne_gt_iff {a b : Bytes} :
    compareBytes a b ≠ .gt ↔ compareBytes a b = .lt ∨ a = b := by
  rw [← compareBytes_eq_iff]
  cases compareBytes a b <;> simp

theorem compareBytes_ne_lt_iff {a b : Bytes} : compareBytes a b ≠ .lt ↔ compareBytes b a ≠ .gt := by
  rw [← compareBytes_swap a b]
  cases compareBytes a b <;> simp [Ordering.swap]

theorem compareBytes_le_lt_trans {a b c : Bytes} (h1 : compareBytes a b ≠ .gt)
    (h2 : compareBytes b c = .lt) : compareBytes a c = .lt := by
  rcases compareBytes_ne_gt_iff.1 h1 with h1 | rfl
  · exact compareBytes_lt_trans h1 h2
  · exact h2

theorem compareBytes_lt_le_trans {a b c : Bytes} (h1 : compareBytes a b = .lt)
    (h2 : compareBytes b c ≠ .gt) : compareBytes a c = .lt := by
  rcases compareBytes_ne_gt_iff.1 h2 with h2 | rfl
  · exact compareBytes_lt_trans h1 h2
  · exact h1

theorem compareBytes_le_trans {a b c : Bytes} (h1 : compareBytes a b ≠ .gt)
    (h2 : compareBytes b c ≠ .gt) : compareBytes a c ≠ .gt := by
  rcases compareBytes_ne_gt_iff.1 h1 with h1 | rfl
  · exact compareBytes_ne_gt_iff.2 (.inl (compareBytes_lt_le_trans h1 h2))
  · exact h2

theorem compareBytes_nil_le (k : Bytes) : compareBytes [] k ≠ .gt := by
  cases k <;> simp [compareBytes]

/-! ## Go slices

A `[]byte` value is a window on a backing array: `len` bytes of content and a capacity
`cap` that appends may fill without reallocating.  The model keeps the content and the
capacity, and that the content fits is a field. -/

/-- A Go byte slice: its contents and its capacity. -/
structure Slice where
  bytes : Bytes
  cap : Nat
  len_le_cap : bytes.length ≤ cap

/-- The `nil` slice. -/
def Slice.nil : Slice := ⟨[], 0, Nat.le_refl 0⟩

@[simp] theorem Slice.nil_bytes : Slice.nil.bytes = [] := rfl

/-- `b[:0]`: the same backing array, no content. -/
def Slice.clear (b : Slice) : Slice := ⟨[], b.cap, Nat.zero_le _⟩

/-- `reallocBytes(b, n)`: `b` itself when `n` more bytes fit in its capacity, else a copy
of it whose capacity is exactly `len(b) + n` (`make([]byte, len(b), newSize)`). -/
def reallocBytes (b : Slice) (n : Nat) : Slice :=
  if b.cap < b.bytes.length + n then ⟨b.bytes, b.bytes.length + n, by omega⟩ else b

@[simp] theorem reallocBytes_bytes (b : Slice) (n : Nat) :
    (reallocBytes b n).bytes = b.bytes := by
  unfold reallocBytes; split <;> rfl

theorem reallocBytes_room (b : Slice) (n : Nat) :
    b.bytes.length + n ≤ (reallocBytes b n).cap := by
  unfold reallocBytes; split
  · exact Nat.le_refl _
  · omega

end BackupCli
