/-
# `BackupCli.Utils.Retry` — `WithRetry`

`WithRetry(retryableFunc, backoffer)` of `pkg/utils/retry.go`: call the operation while the
backoffer has attempts left, return nil at the first call that succeeds, and the last error
otherwise.

`Backoffer` is an interface, and no implementation of it is in the sources: the model gives
it an abstract state `σ`, read by `Attempt()` and moved on by `NextBackoff(err)`; the
duration `NextBackoff` returns is only slept on and is left out.  The operation is given by
the outcome of each of its calls in turn (`none` for a nil error).  For a backoffer whose
attempts never run out the Go loop does not end, so the model runs on fuel and answers
`none` when the fuel is spent.

## What is proved

* `withRetryLoop_spec` — the loop, from any state, for a backoffer whose `Attempt()` drops
  by at least one at each `NextBackoff`: fuel above `Attempt()` suffices, and the loop
  makes at most `Attempt()` calls, all failing but the last, and returns the last call's
  outcome, or `lastErr` untouched when it makes none.
* `withRetry_result` — hence `WithRetry`, started with `lastErr = nil`: a backoffer that
  starts with no attempts left makes it return nil without calling the operation at all.
-/
import Mathlib.Order.Basic

namespace BackupCli

/-- The `Backoffer` interface over a state `σ`. -/
structure Backoffer (σ : Type) where
  /-- `NextBackoff(err)`: the state after one more backoff. -/
  nextBackoff : σ → String → σ
  /-- `Attempt()`: the attempts left. -/
  attempt : σ → Int

section WithRetry
variable {σ : Type} (backoffer : Backoffer σ) (retryableFunc : Nat → Option String)

/-- The loop of `WithRetry`, with backoffer state `s` after `n` calls that left `lastErr`:
the error it returns with the number of calls made in all, or `none` when fuel runs out. -/
def withRetryLoop : Nat → σ → Nat → Option String → Option (Option String × Nat)
  | 0, _, _, _ => none
  | fuel + 1, s, n, lastErr =>
    if 0 < backoffer.attempt s then
      match retryableFunc n with
      | some err => withRetryLoop fuel (backoffer.nextBackoff s err) (n + 1) (some err)
      | none => some (none, n + 1)
    else some (lastErr, n)

/-- `WithRetry(retryableFunc, backoffer)`: `var lastErr error`, then the loop. -/
def withRetry (fuel : Nat) (s : σ) : Option (Option String × Nat) :=
  withRetryLoop backoffer retryableFunc fuel s 0 none

/-- The loop from any state: `m` more calls, `m ≤ Attempt()`, all failing but the last,
and the outcome of the last one returned (`lastErr` when there is none); it makes no call
exactly when no attempt is left. -/
theorem withRetryLoop_spec
    (hdec : ∀ s e, backoffer.attempt (backoffer.nextBackoff s e) + 1 ≤ backoffer.attempt s) :
    ∀ (fuel : Nat) (s : σ) (n : Nat) (lastErr : Option String),
      (backoffer.attempt s).toNat < fuel → ∃ m,
        withRetryLoop backoffer retryableFunc fuel s n lastErr =
          some (if m = 0 then lastErr else retryableFunc (n + m - 1), n + m) ∧
        m ≤ (backoffer.attempt s).toNat ∧ (∀ k, k + 1 < m → retryableFunc (n + k) ≠ none) ∧
        (m = 0 ↔ backoffer.attempt s ≤ 0)
  | 0, _, _, _, hfuel => absurd hfuel (Nat.not_lt_zero _)
  | fuel + 1, s, n, lastErr, hfuel => by
    unfold withRetryLoop
    by_cases ha : 0 < backoffer.attempt s
    · rw [if_pos ha]
      cases hf : retryableFunc n with
      | none => exact ⟨1, by simp [hf], by omega, by omega, by omega⟩
      | some err =>
        have hs := hdec s err
        obtain ⟨m, hrun, hm, hfail, hzero⟩ :=
          withRetryLoop_spec hdec fuel (backoffer.nextBackoff s err) (n + 1) (some err) (by omega)
        refine ⟨m + 1, ?_, by omega, fun k hk => ?_, by omega⟩
        · dsimp only
          rw [hrun, show n + 1 + m = n + (m + 1) by omega]
          cases m <;> simp [hf]
        · cases k with
          | zero => simp [hf]
          | succ k => simpa only [Nat.add_right_comm n 1 k, Nat.add_assoc] using hfail k (by omega)
    · rw [if_neg ha]
      exact ⟨0, rfl, Nat.zero_le _, fun _ hk => absurd hk (by omega), by omega⟩

/-- What `WithRetry` returns, for a backoffer that counts down: after `n ≤ Attempt()` calls,
all failing but the last, the last call's outcome; and with no attempt left, nil after no
call at all, whatever the operation would have returned. -/
theorem withRetry_result (s : σ) (fuel : Nat)
    (hdec : ∀ s e, backoffer.attempt (backoffer.nextBackoff s e) + 1 ≤ backoffer.attempt s)
    (hfuel : (backoffer.attempt s).toNat < fuel) :
    ∃ n, withRetry backoffer retryableFunc fuel s =
        some (if n = 0 then none else retryableFunc (n - 1), n) ∧
      n ≤ (backoffer.attempt s).toNat ∧ (∀ k, k + 1 < n → retryableFunc k ≠ none) ∧
      (n = 0 ↔ backoffer.attempt s ≤ 0) := by
  obtain ⟨n, hrun, hn, hfail, hzero⟩ :=
    withRetryLoop_spec backoffer retryableFunc hdec fuel s 0 none hfuel
  simp only [Nat.zero_add] at hrun hfail
  exact ⟨n, hrun, hn, hfail, hzero⟩

end WithRetry

/-- A backoffer that counts its attempts down by one. -/
def countdown : Backoffer Int := ⟨fun s _ => s - 1, id⟩

/-- Started with no attempts left, `WithRetry` returns nil for an operation that always
fails, having never called it. -/
theorem withRetry_nil_without_calls :
    (∀ s e, countdown.attempt (countdown.nextBackoff s e) + 1 ≤ countdown.attempt s) ∧
      (countdown.attempt 0).toNat < 1 ∧
      withRetry countdown (fun _ => some "retryable error") 1 0 = some (none, 0) := by
  have hdec : ∀ s e, countdown.attempt (countdown.nextBackoff s e) + 1 ≤ countdown.attempt s :=
    fun s _ => by simp [countdown]
  obtain ⟨n, hrun, hn, -, -⟩ := withRetry_result countdown (fun _ => some "retryable error") 0 1
    hdec (by decide)
  obtain rfl : n = 0 := by simpa [countdown] using hn
  exact ⟨hdec, by decide, hrun⟩

end BackupCli
