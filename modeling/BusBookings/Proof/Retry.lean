import Mathlib.Data.List.Basic
import BusBookings.App.Worker

/-!
# The attempts of `_with_retry`

Attempt 1 is made, and after each failed attempt but the last a pause and the next one, up to the
first success (`retryFrom_success`); when all attempts fail, the exception of the last one is raised
(`retryFrom_failure`).
-/

namespace BusBookings

/-! ## Calls and sleeps -/

def RetryOp.attempt? : RetryOp → Option Nat
  | .call attempt => some attempt
  | .sleep _ => none

/-- The attempts that are made, in order. -/
def attemptsOf (ops : List RetryOp) : List Nat := ops.filterMap RetryOp.attempt?

/-- The number of pauses of `RETRY_DELAY_SECONDS`. -/
def pausesOf (ops : List RetryOp) : Nat := ops.count (.sleep retryDelaySeconds)

/-- The calls of `m` attempts from `attempt` on, with a pause between two of them. -/
def attempts (attempt m : Nat) : List RetryOp :=
  ((List.range' attempt m).map RetryOp.call).intersperse (.sleep retryDelaySeconds)

theorem attempts_succ {m : Nat} (attempt : Nat) (h : 0 < m) : attempts attempt (m + 1) =
    .call attempt :: .sleep retryDelaySeconds :: attempts (attempt + 1) m := by
  obtain ⟨m, rfl⟩ := Nat.exists_eq_succ_of_ne_zero (Nat.pos_iff_ne_zero.1 h)
  simp only [attempts, List.range'_succ, List.map_cons, List.intersperse]

theorem attemptsOf_attempts (attempt m : Nat) :
    attemptsOf (attempts attempt m) = List.range' attempt m := by
  induction m generalizing attempt with
  | zero => rfl
  | succ m ih =>
    rcases Nat.eq_zero_or_pos m with rfl | hm
    · rfl
    · rw [attempts_succ attempt hm, List.range'_succ, ← ih (attempt + 1)]
      rfl

theorem pausesOf_attempts (attempt m : Nat) : pausesOf (attempts attempt m) = m - 1 := by
  induction m generalizing attempt with
  | zero => rfl
  | succ m ih =>
    rcases Nat.eq_zero_or_pos m with rfl | hm
    · rfl
    · have := ih (attempt + 1)
      simp only [pausesOf, attempts_succ attempt hm, List.count_cons, beq_self_eq_true,
        reduceCtorEq, beq_iff_eq, if_false, if_true] at this ⊢
      omega

/-! ## The loop -/

section

variable {E : Type} {coroFunc : Nat → Except E Unit}

/-- `_with_retry` returns iff one of its attempts succeeds. -/
theorem retryFrom_ok {bound attempt left : Nat} {lastExc : Option E} :
    (retryFrom coroFunc bound attempt left lastExc).2 = .ok () ↔
      ∃ k, attempt ≤ k ∧ k < attempt + left ∧ coroFunc k = .ok () := by
  induction left generalizing attempt lastExc with
  | zero =>
    simp only [retryFrom, reduceCtorEq, false_iff]
    intro ⟨k, h1, h2, _⟩
    omega
  | succ left ih =>
    unfold retryFrom
    split
    · rename_i h
      exact ⟨fun _ => ⟨attempt, Nat.le_refl _, by omega, h⟩, fun _ => rfl⟩
    · rename_i exc h
      refine ih.trans ⟨?_, ?_⟩
      · intro ⟨k, h1, h2, hk⟩
        exact ⟨k, by omega, by omega, hk⟩
      · intro ⟨k, h1, h2, hk⟩
        have : k ≠ attempt := fun he => by rw [he, h] at hk; cases hk
        exact ⟨k, by omega, by omega, hk⟩

theorem withRetry_ok {n : Nat} :
    (withRetry coroFunc n).2 = .ok () ↔ ∃ k, 1 ≤ k ∧ k ≤ n ∧ coroFunc k = .ok () := by
  refine retryFrom_ok.trans (exists_congr fun k => ?_)
  rw [Nat.lt_one_add_iff]

theorem retryFrom_of_ok {bound attempt left : Nat} {lastExc : Option E}
    (h : coroFunc attempt = .ok ()) :
    retryFrom coroFunc bound attempt (left + 1) lastExc = ([.call attempt], .ok ()) := by
  rw [retryFrom, h]

/-- A failed attempt with attempts left. -/
theorem retryFrom_of_error {bound attempt left : Nat} {lastExc : Option E} {exc : E}
    (h : coroFunc attempt = .error exc) (hlt : attempt < bound) :
    retryFrom coroFunc bound attempt (left + 1) lastExc =
      (.call attempt :: .sleep retryDelaySeconds ::
        (retryFrom coroFunc bound (attempt + 1) left (some exc)).1,
       (retryFrom coroFunc bound (attempt + 1) left (some exc)).2) := by
  rw [retryFrom, h]
  simp only [if_pos hlt, List.cons_append, List.nil_append]

/-- The last attempt fails. -/
theorem retryFrom_last {bound : Nat} {lastExc : Option E} {exc : E} (h : coroFunc bound = .error exc) :
    retryFrom coroFunc bound bound 1 lastExc = ([.call bound], .error (some exc)) := by
  simp only [retryFrom, h, Nat.lt_irrefl, if_false, List.append_nil]

theorem exists_error {k : Nat} (h : coroFunc k ≠ .ok ()) : ∃ exc, coroFunc k = .error exc := by
  cases hk : coroFunc k with
  | error exc => exact ⟨exc, rfl⟩
  | ok u => exact absurd hk h

/-- **The loop up to its first success**: `m` attempts fail, the next one succeeds. -/
theorem retryFrom_success {m left attempt bound : Nat} {lastExc : Option E}
    (hbound : attempt + left = bound + 1) (hm : m < left)
    (hfail : ∀ j, attempt ≤ j → j < attempt + m → coroFunc j ≠ .ok ())
    (hok : coroFunc (attempt + m) = .ok ()) :
    retryFrom coroFunc bound attempt left lastExc = (attempts attempt (m + 1), .ok ()) := by
  induction m generalizing attempt left lastExc with
  | zero =>
    obtain ⟨left, rfl⟩ := Nat.exists_eq_succ_of_ne_zero (Nat.pos_iff_ne_zero.1 hm)
    exact retryFrom_of_ok hok
  | succ m ih =>
    obtain ⟨left, rfl⟩ := Nat.exists_eq_succ_of_ne_zero (show left ≠ 0 by omega)
    obtain ⟨exc, hexc⟩ := exists_error (hfail attempt (Nat.le_refl _) (by omega))
    have hrest := @ih left (attempt + 1) (some exc) (by omega) (by omega)
      (fun j h1 h2 => hfail j (by omega) (by omega)) (by rwa [Nat.add_right_comm])
    rw [retryFrom_of_error hexc (by omega), hrest, attempts_succ attempt (Nat.succ_pos m)]

/-- **The loop without a success**: every attempt is made, and the last one's exception raised. -/
theorem retryFrom_failure {left attempt bound : Nat} {lastExc : Option E}
    (hbound : attempt + left = bound)
    (hfail : ∀ j, attempt ≤ j → j ≤ bound → coroFunc j ≠ .ok ()) : ∃ exc,
    coroFunc bound = .error exc ∧ retryFrom coroFunc bound attempt (left + 1) lastExc =
      (attempts attempt (left + 1), .error (some exc)) := by
  induction left generalizing attempt lastExc with
  | zero =>
    obtain rfl : attempt = bound := hbound
    obtain ⟨exc, hexc⟩ := exists_error (hfail attempt (Nat.le_refl _) (Nat.le_refl _))
    exact ⟨exc, hexc, retryFrom_last hexc⟩
  | succ left ih =>
    obtain ⟨exc, hexc⟩ := exists_error (hfail attempt (Nat.le_refl _) (by omega))
    obtain ⟨last, hlast, hrest⟩ := @ih (attempt + 1) (some exc) (by omega)
      (fun j h1 h2 => hfail j (by omega) h2)
    refine ⟨last, hlast, ?_⟩
    rw [retryFrom_of_error hexc (by omega), hrest, attempts_succ attempt (Nat.succ_pos left)]

end

/-! ## All attempts -/

section

variable {E : Type} (coroFunc : Nat → Except E Unit)

/-- Attempt `k` is the first that succeeds. -/
def FirstSuccess (k : Nat) : Prop :=
  1 ≤ k ∧ coroFunc k = .ok () ∧ ∀ j, 1 ≤ j → j < k → coroFunc j ≠ .ok ()

/-- **What `_with_retry` does**: `k` calls and `k - 1` pauses when attempt `k` is the first success,
all `n` calls and the exception of the last one when there is none. -/
theorem withRetry_attempts {n : Nat} (hn : 1 ≤ n) :
    (∀ k, k ≤ n → FirstSuccess coroFunc k →
      attemptsOf (withRetry coroFunc n).1 = List.range' 1 k ∧ pausesOf (withRetry coroFunc n).1 = k - 1 ∧
        (withRetry coroFunc n).1 = attempts 1 k ∧ (withRetry coroFunc n).2 = .ok ()) ∧
    ((∀ k, k ≤ n → ¬ FirstSuccess coroFunc k) →
      attemptsOf (withRetry coroFunc n).1 = List.range' 1 n ∧ pausesOf (withRetry coroFunc n).1 = n - 1 ∧
        (withRetry coroFunc n).1 = attempts 1 n ∧
        ∃ exc, coroFunc n = .error exc ∧ (withRetry coroFunc n).2 = .error (some exc)) := by
  refine ⟨fun k hk ⟨h1, hok, hfail⟩ => ?_, fun hnone => ?_⟩
  · obtain ⟨m, rfl⟩ := Nat.exists_eq_add_of_le h1
    have heq : withRetry coroFunc n = (attempts 1 (1 + m), .ok ()) := by
      rw [Nat.add_comm 1 m]
      exact retryFrom_success (Nat.add_comm 1 n) (by omega) hfail hok
    rw [heq]
    exact ⟨attemptsOf_attempts 1 _, pausesOf_attempts 1 _, rfl, rfl⟩
  · -- A success would have a first one.
    have hfail : ∀ j, 1 ≤ j → j ≤ n → coroFunc j ≠ .ok () := by
      intro j
      induction j using Nat.strong_induction_on with
      | _ j ih =>
        intro h1 hj hok
        exact hnone j hj ⟨h1, hok, fun i hi hij => ih i hij hi (by omega)⟩
    obtain ⟨m, rfl⟩ := Nat.exists_eq_add_of_le' hn
    have h := @retryFrom_failure _ coroFunc m 1 (m + 1) none (Nat.add_comm 1 m) hfail
    obtain ⟨exc, hexc, heq⟩ := h
    rw [show withRetry coroFunc (m + 1) = (attempts 1 (m + 1), .error (some exc)) from heq]
    exact ⟨attemptsOf_attempts 1 _, pausesOf_attempts 1 _, rfl, exc, hexc, rfl⟩

end

/-- The second of three attempts succeeds: two calls and one pause. -/
theorem withRetry_attempts_second :
    let coroFunc : Nat → Except Unit Unit := fun k => if k = 2 then .ok () else .error ()
    attemptsOf (withRetry coroFunc 3).1 = [1, 2] ∧ pausesOf (withRetry coroFunc 3).1 = 1 ∧
      (withRetry coroFunc 3).1 = attempts 1 2 ∧ (withRetry coroFunc 3).2 = .ok () := by
  intro coroFunc
  refine (withRetry_attempts coroFunc (show 1 ≤ 3 by decide)).1 2 (by decide) ⟨by decide, rfl, ?_⟩
  intro j h1 h2
  obtain rfl : j = 1 := by omega
  decide

end BusBookings
