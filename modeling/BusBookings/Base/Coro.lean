import Mathlib.Logic.Function.Basic

/-!
# Coroutines

An `async def` runs without interruption up to its next `await`, hands the awaited call to its
surroundings and resumes with the reply. `Coro C R α` is such a computation: calls `c : C`, replies
`R c`, result `α`. It is a free monad, so a coroutine is written in `do` notation as in the source
and its suspension points are data.

* `Coro.run exec co s`: the coroutine alone on the shared state `s`; `exec c s = none` means that
  the call blocks.
* `Coro.Only P co`: all its calls satisfy `P`.
* `Coro.Took co rs co'`: `co` has taken the calls of `rs`, each with its reply, and is `co'` now.
-/

namespace Async

/-- A computation that returns, or suspends at a call and resumes with its reply. -/
inductive Coro (C : Type) (R : C → Type) (α : Type) where
  | done (a : α)
  | await (c : C) (k : R c → Coro C R α)

namespace Coro

variable {C : Type} {R : C → Type} {α β S E : Type}

def bind : Coro C R α → (α → Coro C R β) → Coro C R β
  | .done a, f => f a
  | .await c k, f => .await c fun r => (k r).bind f

instance : Monad (Coro C R) where
  pure := .done
  bind := .bind

@[simp] theorem pure_eq (a : α) : (pure a : Coro C R α) = .done a := rfl

@[simp] theorem done_bind (a : α) (f : α → Coro C R β) : (Coro.done a >>= f) = f a := rfl

@[simp] theorem await_bind (c : C) (k : R c → Coro C R α) (f : α → Coro C R β) :
    (Coro.await c k >>= f) = .await c fun r => k r >>= f := rfl

/-- The call a suspended coroutine waits for. -/
def awaiting : Coro C R α → Option C
  | .done _ => none
  | .await c _ => some c

/-- The result of a finished coroutine. -/
def result : Coro C R α → Option α
  | .done a => some a
  | .await _ _ => none

@[simp] theorem awaiting_done (a : α) : (Coro.done a : Coro C R α).awaiting = none := rfl
@[simp] theorem awaiting_await (c : C) (k : R c → Coro C R α) : (Coro.await c k).awaiting = some c := rfl
@[simp] theorem result_done (a : α) : (Coro.done a : Coro C R α).result = some a := rfl
@[simp] theorem result_await (c : C) (k : R c → Coro C R α) : (Coro.await c k).result = none := rfl

/-! ## Running alone -/

/-- The coroutine on the shared state, nothing else running; `none` if a call blocks. -/
def run (exec : (c : C) → S → Option (R c × S)) : Coro C R α → S → Option (α × S)
  | .done a, s => some (a, s)
  | .await c k, s => (exec c s).bind fun p => (k p.1).run exec p.2

variable {exec : (c : C) → S → Option (R c × S)}

theorem run_await {c : C} {k : R c → Coro C R α} {s s' : S} {r : R c} (h : exec c s = some (r, s')) :
    (Coro.await c k).run exec s = (k r).run exec s' := by
  simp [run, h]

/-! ## Calls -/

/-- All calls satisfy `P`, whatever the replies are. -/
def Only (P : C → Prop) : Coro C R α → Prop
  | .done _ => True
  | .await c k => P c ∧ ∀ r, (k r).Only P

theorem Only.bind {P : C → Prop} {co : Coro C R α} {f : α → Coro C R β} (h : co.Only P)
    (hf : ∀ a, (f a).Only P) : (co >>= f).Only P := by
  induction co with
  | done a => exact hf a
  | await c k ih => exact ⟨h.1, fun r => ih r (h.2 r)⟩

/-! ## Replies -/

/-- The coroutine has taken calls with these replies, and what is left of it. -/
inductive Took : Coro C R α → List ((c : C) × R c) → Coro C R α → Prop
  | nil {co : Coro C R α} : Took co [] co
  | cons {c : C} {k : R c → Coro C R α} {r : R c} {rs : List ((c : C) × R c)} {co : Coro C R α} :
      Took (k r) rs co → Took (.await c k) (⟨c, r⟩ :: rs) co

theorem Took.snoc {co : Coro C R α} {rs : List ((c : C) × R c)} {c : C} {k : R c → Coro C R α}
    (h : co.Took rs (.await c k)) (r : R c) : co.Took (rs ++ [⟨c, r⟩]) (k r) := by
  generalize hco : Coro.await c k = co' at h
  induction h with
  | nil =>
    subst hco
    exact .cons .nil
  | cons _ ih => exact .cons (ih hco)

/-- What is composed takes its calls one part after the other. -/
theorem Took.of_bind {co : Coro C R α} {f : α → Coro C R β} {rs : List ((c : C) × R c)} {b : β}
    (h : (co >>= f).Took rs (.done b)) :
    ∃ rs₁ rs₂ a, rs = rs₁ ++ rs₂ ∧ co.Took rs₁ (.done a) ∧ (f a).Took rs₂ (.done b) := by
  induction co generalizing rs with
  | done a => exact ⟨[], rs, a, rfl, .nil, h⟩
  | await c k ih =>
    cases h with
    | @cons _ _ r rs _ h =>
      obtain ⟨rs₁, rs₂, a, rfl, h₁, h₂⟩ := ih r h
      exact ⟨⟨c, r⟩ :: rs₁, rs₂, a, rfl, .cons h₁, h₂⟩

end Coro

end Async
