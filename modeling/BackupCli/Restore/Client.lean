/-
# `BackupCli.Restore.Client` — the error channels of the restore client

`RestoreTable`, `RestoreDatabase` and `RestoreAll` of the restore client (the Go source
carried in `tests/br_gc_safepoint/run.sh`, lines 140–292) share one pattern: `errCh :=
make(chan error)` with `defer close(errCh)`, one goroutine per item (file, table, database)
that sends `errors.Trace(err)` when its call failed and then `nil` in every case, and a loop
that receives exactly one value per item, keeping the last error.

The channel is unbuffered, so a send completes only together with a receive: an event of
`ErrCh` is one such meeting, or the deferred `close` once the loop has received its count
and the function returns.  The three functions are one definition, `ErrCh.init`, applied
to their own items.  `ctx.Done()`, which makes the launch loop return early, is left out.

## What is proved

* `ErrCh.run_sends` — along any run, the sends still to make and the values received add
  up to one per item plus one per failed call.
* `ErrCh.run_closed_pending` — so when `errCh` is closed, exactly one send per failed call
  has not been received: that goroutine is blocked on `errCh`, and sends on it once it is
  closed.
* `ErrCh.run_nilOwed`, `ErrCh.run_collected_none` — a loop that received its count and no
  error heard only from goroutines whose one send was nil: every call succeeded.
-/
import Mathlib.Data.List.Basic
import Mathlib.Algebra.BigOperators.Group.List
import Mathlib.Algebra.Order.Ring.Nat

namespace BackupCli

/-- What one goroutine sends on `errCh`: its call's error when it failed, then nil. -/
def fanOutSends (err : Option String) : List (Option String) :=
  match err with
  | some e => [some e, none]
  | none => [none]

/-- `errCh` and the goroutines of a fan-out. -/
structure ErrCh where
  /-- Each goroutine's sends still to make. -/
  pending : List (List (Option String))
  /-- The values the collecting loop has received. -/
  received : Nat
  /-- The loop's `returnErr`: the last error received. -/
  returnErr : Option String
  /-- The deferred `close(errCh)` has run. -/
  closed : Bool
deriving DecidableEq, Repr

/-- A fan-out over items whose calls end with `errs`: one goroutine per item, nothing sent
yet. -/
def ErrCh.init (errs : List (Option String)) : ErrCh := ⟨errs.map fanOutSends, 0, none, false⟩

/-- `errCh` of `RestoreTable`: one goroutine per file, failing as its `RestoreFile` did. -/
def restoreTableErrCh (restoreFileErrs : List (Option String)) : ErrCh :=
  ErrCh.init restoreFileErrs

/-- `errCh` of `RestoreDatabase`: one goroutine per table, failing as its `RestoreTable`
did. -/
def restoreDatabaseErrCh (restoreTableErrs : List (Option String)) : ErrCh :=
  ErrCh.init restoreTableErrs

/-- `errCh` of `RestoreAll`: one goroutine per database, failing as its `RestoreDatabase`
did. -/
def restoreAllErrCh (restoreDatabaseErrs : List (Option String)) : ErrCh :=
  ErrCh.init restoreDatabaseErrs

/-- What may happen next on `errCh`. -/
inductive ErrChEvent
  /-- Goroutine `i`'s next send meets a receive of the collecting loop. -/
  | recv (i : Nat)
  /-- The function returns and its deferred `close(errCh)` runs. -/
  | close
deriving DecidableEq, Repr

/-- One event, for a loop that receives `n` values. -/
def ErrCh.step (n : Nat) (s : ErrCh) : ErrChEvent → Option ErrCh
  | .recv i =>
      if s.closed ∨ n ≤ s.received then none
      else match s.pending[i]? with
        | some (v :: vs) =>
            some { s with pending := s.pending.set i vs, received := s.received + 1,
                          returnErr := v.or s.returnErr }
        | _ => none
  | .close => if !s.closed ∧ s.received = n then some { s with closed := true } else none

/-- A run of events, `none` when one of them cannot happen. -/
def ErrCh.run (n : Nat) (s : ErrCh) : List ErrChEvent → Option ErrCh
  | [] => some s
  | e :: es => (s.step n e).bind (·.run n es)

/-- The sends still to make. -/
def ErrCh.unsent (s : ErrCh) : Nat := (s.pending.map List.length).sum

/-- The failed calls of a fan-out. -/
def failures (errs : List (Option String)) : Nat := (errs.filter Option.isSome).length

/-! ## Every failed call leaves one send behind -/

theorem sum_map_set (f : List (Option String) → Nat) {l : List (List (Option String))} {i : Nat}
    {x y : List (Option String)} (h : l[i]? = some x) :
    ((l.set i y).map f).sum + f x = (l.map f).sum + f y := by
  induction l generalizing i with
  | nil => cases h
  | cons a l ih =>
      cases i with
      | zero =>
          simp only [List.getElem?_cons_zero, Option.some.injEq] at h
          subst h
          simp only [List.set_cons_zero, List.map_cons, List.sum_cons]
          omega
      | succ i =>
          simp only [List.getElem?_cons_succ] at h
          simp only [List.set_cons_succ, List.map_cons, List.sum_cons]
          have := ih h
          omega

theorem ErrCh.step_cases {n : Nat} {s s' : ErrCh} {e : ErrChEvent} (h : s.step n e = some s') :
    (∃ i v vs, ¬(s.closed = true ∨ n ≤ s.received) ∧ s.pending[i]? = some (v :: vs) ∧
      s' = { s with pending := s.pending.set i vs, received := s.received + 1,
                    returnErr := v.or s.returnErr }) ∨
    ((!s.closed) = true ∧ s.received = n) ∧ s' = { s with closed := true } := by
  cases e with
  | recv i =>
      simp only [ErrCh.step] at h
      split at h
      · cases h
      · split at h
        · exact .inl ⟨i, _, _, ‹_›, ‹_›, (Option.some.inj h).symm⟩
        · cases h
  | close =>
      simp only [ErrCh.step] at h
      split at h
      · exact .inr ⟨‹_›, (Option.some.inj h).symm⟩
      · cases h

theorem ErrCh.step_sends {n : Nat} {s s' : ErrCh} {e : ErrChEvent} (h : s.step n e = some s') :
    s'.unsent + s'.received = s.unsent + s.received ∧ (s'.closed → s'.received = n) := by
  obtain ⟨i, v, vs, hc, hv, rfl⟩ | ⟨hc, rfl⟩ := ErrCh.step_cases h
  · have := @sum_map_set List.length _ _ _ vs hv
    simp only [List.length_cons] at this
    exact ⟨by simp only [ErrCh.unsent]; omega, fun hcl => absurd (.inl hcl) hc⟩
  · exact ⟨rfl, fun _ => hc.2⟩

theorem ErrCh.run_sends {n : Nat} :
    ∀ {s s' : ErrCh} {es : List ErrChEvent}, (s.closed → s.received = n) → s.run n es = some s' →
      s'.unsent + s'.received = s.unsent + s.received ∧ (s'.closed → s'.received = n)
  | s, s', [], hc, h => by cases h; exact ⟨rfl, hc⟩
  | s, s', e :: es, hc, h => by
      simp only [ErrCh.run] at h
      cases hs : s.step n e with
      | none => simp [hs] at h
      | some s1 =>
          rw [hs, Option.some_bind] at h
          obtain ⟨h1, hc1⟩ := ErrCh.step_sends hs
          obtain ⟨h2, hc2⟩ := ErrCh.run_sends hc1 h
          exact ⟨h2.trans h1, hc2⟩

theorem unsent_init (errs : List (Option String)) :
    (ErrCh.init errs).unsent = errs.length + failures errs := by
  induction errs with
  | nil => rfl
  | cons err errs ih =>
      simp only [ErrCh.unsent, ErrCh.init, List.map_cons, List.map_map, List.sum_cons] at ih ⊢
      cases err <;> simp [fanOutSends, failures, List.filter_cons, ih] <;> omega

/-- Once `errCh` is closed, one send per failed call has not been received: its goroutine
is blocked on the channel when it is closed, and that send panics. -/
theorem ErrCh.run_closed_pending {errs : List (Option String)} {es : List ErrChEvent}
    {s : ErrCh} (h : (ErrCh.init errs).run errs.length es = some s) (hc : s.closed) :
    s.unsent = failures errs := by
  obtain ⟨hs, hn⟩ := ErrCh.run_sends (fun h => by cases h) h
  have := unsent_init errs
  have := hn hc
  simp only [ErrCh.init] at *
  omega

/-! ## A loop that received only nil

Each goroutine sends nothing more, its last nil, or its error and then nil.  While no error
has been received, a value received is some goroutine's last nil, taken from a goroutine
whose only send left was that nil.  So the values received and the goroutines still owing
just a nil add up to the goroutines that owed just a nil at the start: a loop that has
received one value per goroutine and no error has heard from goroutines that all
succeeded. -/

/-- The sends a goroutine may still have to make. -/
def SendsLeft (p : List (Option String)) : Prop := p = [] ∨ p = [none] ∨ ∃ e, p = [some e, none]

/-- One when the goroutine's only send left is nil. -/
def owesNil (p : List (Option String)) : Nat := if p = [none] then 1 else 0

/-- The goroutines whose only send left is nil. -/
def ErrCh.nilOwed (s : ErrCh) : Nat := (s.pending.map owesNil).sum

theorem ErrCh.step_nilOwed {n : Nat} {s s' : ErrCh} {e : ErrChEvent}
    (hs : ∀ p ∈ s.pending, SendsLeft p) (h : s.step n e = some s') :
    (∀ p ∈ s'.pending, SendsLeft p) ∧
      (s'.returnErr = none → s.returnErr = none ∧ s'.received + s'.nilOwed = s.received + s.nilOwed) := by
  obtain ⟨i, v, vs, -, hv, rfl⟩ | ⟨-, rfl⟩ := ErrCh.step_cases h
  · have hleft := hs _ (List.getElem?_mem hv)
    refine ⟨fun p hp => ?_, fun hr => ?_⟩
    · rcases List.mem_or_eq_of_mem_set hp with hp | rfl
      · exact hs p hp
      · rcases hleft with h | h | ⟨e, h⟩
        · cases h
        · exact .inl (List.cons.inj h).2
        · exact .inr (.inl (List.cons.inj h).2)
    · cases v with
      | some e => simp at hr
      | none =>
          obtain rfl : vs = [] := by rcases hleft with h | h | ⟨e, h⟩ <;> simp_all
          have := @sum_map_set owesNil _ _ _ [] hv
          rw [show owesNil [none] = 1 by decide, show owesNil [] = 0 by decide] at this
          simp only [ErrCh.nilOwed, Option.none_or] at hr ⊢
          exact ⟨hr, by omega⟩
  · exact ⟨hs, fun hr => ⟨hr, rfl⟩⟩

theorem ErrCh.run_nilOwed {n : Nat} :
    ∀ {s s' : ErrCh} {es : List ErrChEvent}, (∀ p ∈ s.pending, SendsLeft p) →
      s.run n es = some s' →
      s'.returnErr = none →
        s.returnErr = none ∧ s'.received + s'.nilOwed = s.received + s.nilOwed
  | s, s', [], _, h, hr => by cases h; exact ⟨hr, rfl⟩
  | s, s', e :: es, hs, h, hr => by
      simp only [ErrCh.run] at h
      cases h1 : s.step n e with
      | none => simp [h1] at h
      | some s1 =>
          rw [h1, Option.some_bind] at h
          obtain ⟨hs1, hstep⟩ := ErrCh.step_nilOwed hs h1
          obtain ⟨hr1, hsum⟩ := ErrCh.run_nilOwed hs1 h hr
          obtain ⟨hr0, hsum1⟩ := hstep hr1
          exact ⟨hr0, hsum.trans hsum1⟩

theorem sum_owesNil_le (l : List (List (Option String))) : (l.map owesNil).sum ≤ l.length := by
  induction l with
  | nil => rfl
  | cons a l ih =>
      simp only [List.map_cons, List.sum_cons, List.length_cons, owesNil]
      split <;> omega

theorem owesNil_all {l : List (List (Option String))} (h : (l.map owesNil).sum = l.length) :
    ∀ p ∈ l, p = [none] := by
  induction l with
  | nil => simp
  | cons a l ih =>
      have hle := sum_owesNil_le l
      simp only [List.map_cons, List.sum_cons, List.length_cons, owesNil] at h
      split at h
      · exact List.forall_mem_cons.2 ⟨‹_›, ih (by omega)⟩
      · omega

/-- A run that received one value per goroutine and no error: every goroutine had just its
nil to send. -/
theorem ErrCh.run_collected_none {pending : List (List (Option String))}
    (hs : ∀ p ∈ pending, SendsLeft p) {es : List ErrChEvent} {s : ErrCh}
    (h : (⟨pending, 0, none, false⟩ : ErrCh).run pending.length es = some s)
    (hn : s.received = pending.length) (hr : s.returnErr = none) :
    ∀ p ∈ pending, p = [none] := by
  have hsum := (ErrCh.run_nilOwed hs h hr).2
  have hle := sum_owesNil_le pending
  simp only [ErrCh.nilOwed] at hsum
  exact owesNil_all (by omega)

/-- One file, whose `RestoreFile` fails. -/
theorem restoreTable_failed_file_left_send :
    ∃ s : ErrCh, (restoreTableErrCh [some "restore file failed"]).run 1 [.recv 0, .close] =
      some s ∧ s.pending = [[none]] ∧ s.closed ∧ s.unsent = failures [some "restore file failed"] :=
  ⟨_, rfl, rfl, rfl,
    @ErrCh.run_closed_pending [some "restore file failed"] [.recv 0, .close] _ rfl rfl⟩

end BackupCli
