import BusBookings.Base.Interleave
import Mathlib.Algebra.BigOperators.Fin
import Mathlib.Algebra.Order.BigOperators.Group.Finset

/-!
# How many calls a program takes

`budget` is a protocol whose phases count the calls that are left; what is simulated from phase `n` takes
at most `n` calls.

* `Costs`: an upper bound on the calls of a program, with its rules (`Costs.bind`, `Costs.call`,
  `Costs.tryCatch`).
* `Bounded.of_run`: every request keeps to its bound, however the requests are interleaved.
* `Bounded.steps`: without arrivals, no more calls are taken than the requests in flight have left.
* `exists_quiescent`: if some request can always move on, a run of calls answers them all.
-/

namespace Async

section

variable {C : Type} {R : C → Type} {S Q A Λ Ev : Type}

/-- The phase is the number of calls that are left. -/
def budget (C S Λ : Type) : Protocol C S Unit Unit Λ Nat where
  start _ := 0
  waits _ n _ := 0 < n
  step _ _ _ _ n _ n' _ := n' + 1 = n
  ends _ _ _ := True

/-- The step is a call of a request. -/
def Label.isCall : Label Q Λ Ev → Bool
  | .run _ _ => true
  | _ => false

/-- The calls that the requests in flight have left, if `calls q` is the bound of request `q`. -/
def System.callsLeft (calls : Q → Nat) (sys : System C R S Q A) : Nat :=
  (sys.tasks.map fun t => if t.co.awaiting.isSome then calls t.req else 0).sum

/-! ## Programs -/

section

variable {E α β : Type}

/-- Run as request `i`, the program takes at most `m` calls; `K` holds of what it returns. -/
def Costs (exec : Λ → Nat → (c : C) → S → Option (Except E (R c) × S)) (i : Nat) (p : Prog C R E α)
    (m : Nat) (K : α → Prop) : Prop :=
  ∀ n, SimE (budget C S Λ) exec () i p (n + m) (fun a n' => n ≤ n' ∧ K a)
    fun _ n' => n ≤ n'

namespace Costs

variable {exec : Λ → Nat → (c : C) → S → Option (Except E (R c) × S)} {i m u v : Nat}
  {K : α → Prop} {L : β → Prop}

theorem pure {a : α} (h : K a) : Costs exec i (Pure.pure a : Prog C R E α) 0 K :=
  fun _ => ⟨Nat.le_refl _, h⟩

theorem throw {e : E} : Costs exec i (throw e : Prog C R E α) 0 K := fun _ => Nat.le_refl _

theorem mono {p : Prog C R E α} {K' : α → Prop} (h : Costs exec i p u K) (hm : u ≤ v)
    (hK : ∀ a, K a → K' a) : Costs exec i p v K' := fun n => by
  have hn : n + v = (n + (v - u)) + u := by omega
  rw [hn]
  exact SimE.mono (h _) (fun a n' ⟨hle, ha⟩ => ⟨by omega, hK a ha⟩) fun _ n' hle => by omega

theorem bind {p : Prog C R E α} {f : α → Prog C R E β} (h : Costs exec i p u K)
    (hf : ∀ a, K a → Costs exec i (f a) v L) : Costs exec i (p >>= f) (u + v) L := fun n => by
  have hn : n + (u + v) = (n + v) + u := by omega
  rw [hn]
  refine SimE.bind (SimE.mono (h _) (fun a n' ⟨hle, ha⟩ => ?_) fun _ n' hle => by omega)
  -- what is left of the first program's budget comes on top
  obtain ⟨k, rfl⟩ : ∃ k, n' = (n + k) + v := ⟨n' - v - n, by omega⟩
  exact SimE.mono (hf a ha (n + k)) (fun b n' ⟨hle, hb⟩ => ⟨by omega, hb⟩) fun _ n' hle => by omega

theorem tryCatch {p : Prog C R E α} {f : E → Prog C R E α} (h : Costs exec i p u K)
    (hf : ∀ e, Costs exec i (f e) v K) : Costs exec i (tryCatch p f) (u + v) K := fun n => by
  have hn : n + (u + v) = (n + v) + u := by omega
  rw [hn]
  refine SimE.tryCatch (SimE.mono (h _) (fun a n' ⟨hle, ha⟩ => ⟨by omega, ha⟩) fun e n' hle => ?_)
  obtain ⟨k, rfl⟩ : ∃ k, n' = (n + k) + v := ⟨n' - v - n, by omega⟩
  exact SimE.mono (hf e (n + k)) (fun b n' ⟨hle, hb⟩ => ⟨by omega, hb⟩) fun _ n' hle => by omega

/-- One call, with what is known of its reply. -/
theorem call {c : C} {K : R c → Prop}
    (h : ∀ l s r s', exec l i c s = some (.ok r, s') → K r) : Costs exec i (Async.call c) 1 K :=
  fun n => SimE.call (Nat.succ_pos n)
    (fun l s a s' he => ⟨n, rfl, Nat.le_refl _, h l s a s' he⟩) fun _ _ _ _ _ => ⟨n, rfl, Nat.le_refl _⟩

end Costs

end

/-! ## Runs -/

variable {M : Semantics C R S Q A Λ Ev} {calls : Q → Nat}

/-- The request takes at most `n` more calls. -/
abbrev Within (M : Semantics C R S Q A Λ Ev) (i : Nat) (co : Coro C R A) (n : Nat) : Prop :=
  Sim (budget C S Λ) M.exec () i co n fun _ _ => True

/-- Every request of the system keeps to its budget, of which `left i` is left to request `i`. -/
def Bounded (M : Semantics C R S Q A Λ Ev) (calls : Q → Nat) (left : Nat → Nat)
    (sys : System C R S Q A) : Prop :=
  ∀ i t, sys.tasks[i]? = some t → left i ≤ calls t.req ∧ Within M i t.co (left i)

namespace Bounded

variable {sys sys' : System C R S Q A} {left : Nat → Nat}

/-- A request that arrives has its whole budget. -/
theorem spawn (hM : ∀ q i, Within M i (M.handler q) (calls q)) (h : Bounded M calls left sys) (q : Q) :
    Bounded M calls (Function.update left sys.tasks.length (calls q))
      { sys with tasks := sys.tasks ++ [⟨q, M.handler q⟩] } := by
  intro i t ht
  rcases Nat.lt_trichotomy i sys.tasks.length with hi | rfl | hi
  · rw [List.getElem?_append_left hi] at ht
    rw [Function.update_of_ne (Nat.ne_of_lt hi)]
    exact h i t ht
  · simp only [List.getElem?_append_right (Nat.le_refl _), Nat.sub_self, List.getElem?_cons_zero,
      Option.some.injEq] at ht
    subst ht
    rw [Function.update_self]
    exact ⟨Nat.le_refl _, hM q _⟩
  · rw [List.getElem?_eq_none (by simp; omega)] at ht
    cases ht

/-- A call is taken from the budget of its request. -/
theorem run {l : Λ} {i : Nat} (h : Bounded M calls left sys)
    (hs : M.step sys (.run l i) = some sys') :
    0 < left i ∧ Bounded M calls (Function.update left i (left i - 1)) sys' := by
  obtain ⟨q, c, k, r, s, ht, he, rfl⟩ := step_run hs
  obtain ⟨hle, hpos, hsim⟩ := h i _ ht
  refine ⟨hpos, fun j t hj => ?_⟩
  by_cases hji : j = i
  · subst hji
    rw [List.getElem?_set_self (List.getElem?_eq_some_iff.1 ht).1, Option.some.injEq] at hj
    subst hj
    obtain ⟨n, hn, hk⟩ := hsim l _ r s he
    rw [Function.update_self, ← hn, Nat.add_sub_cancel]
    exact ⟨by rw [← hn] at hle; exact Nat.le_of_succ_le hle, hk⟩
  · rw [List.getElem?_set_ne (Ne.symm hji)] at hj
    rw [Function.update_of_ne hji]
    exact h j t hj

theorem env {e : Ev} (h : Bounded M calls left sys) (hs : M.step sys (.env e) = some sys') :
    Bounded M calls left sys' := by
  obtain ⟨s, -, rfl⟩ := Option.map_eq_some_iff.1 hs
  exact h

/-- **The budget rule**: in every run from a system without requests each request keeps to its budget. -/
theorem of_run (hM : ∀ q i, Within M i (M.handler q) (calls q))
    {P : System C R S Q A → Label Q Λ Ev → Prop} (hr : Run M P sys sys') (h : Bounded M calls left sys) :
    ∃ left', Bounded M calls left' sys' := by
  induction hr with
  | refl => exact ⟨left, h⟩
  | step hr hp hs ih =>
    rename_i l
    obtain ⟨left₁, h₁⟩ := ih
    cases l with
    | spawn q =>
      cases hs
      exact ⟨_, h₁.spawn hM q⟩
    | run o i => exact ⟨_, (h₁.run hs).2⟩
    | env e => exact ⟨_, h₁.env hs⟩

/-- The budgets of answered requests do not count. -/
theorem inFlight (h : Bounded M calls left sys) : ∃ left', Bounded M calls left' sys ∧
    ∑ i ∈ Finset.range sys.tasks.length, left' i ≤ sys.callsLeft calls := by
  refine ⟨fun i => if (sys.awaiting i).isSome then left i else 0, fun i t ht => ?_, ?_⟩
  · obtain ⟨hle, hsim⟩ := h i t ht
    have hawait : sys.awaiting i = t.co.awaiting := by simp [System.awaiting, ht]
    cases hco : t.co with
    | done a => simp [hawait, hco, Sim]
    | await c k =>
      rw [hco] at hsim
      simpa [hawait, hco] using ⟨hle, hsim⟩
  · rw [Finset.sum_range, System.callsLeft, ← Fin.sum_univ_getElem]
    refine le_of_le_of_eq (Finset.sum_le_sum fun i _ => ?_) (Fin.sum_congr' _ (by simp))
    have ht : sys.tasks[i.1]? = some sys.tasks[i.1] := List.getElem?_eq_getElem i.2
    have hawait : sys.awaiting i.1 = sys.tasks[i.1].co.awaiting := by simp [System.awaiting]
    simp only [hawait, Fin.val_cast, List.getElem_map]
    split
    · exact (h i.1 _ ht).1
    · exact Nat.le_refl _

/-- Without arrivals, every call is one of those that were left. -/
theorem steps {ls : List (Label Q Λ Ev)} (h : Bounded M calls left sys)
    (hls : ∀ l ∈ ls, ∀ q, l ≠ .spawn q) (hs : M.steps sys ls = some sys') :
    ∃ left', Bounded M calls left' sys' ∧ sys'.tasks.length = sys.tasks.length ∧
      ls.countP Label.isCall + ∑ i ∈ Finset.range sys.tasks.length, left' i =
        ∑ i ∈ Finset.range sys.tasks.length, left i := by
  induction ls generalizing sys left with
  | nil =>
    cases hs
    exact ⟨left, h, rfl, Nat.zero_add _⟩
  | cons l ls ih =>
    obtain ⟨sys₁, h₁, h₂⟩ := Option.bind_eq_some_iff.1 hs
    have hls' : ∀ l ∈ ls, ∀ q, l ≠ .spawn q := fun l hl => hls l (List.mem_cons_of_mem _ hl)
    cases l with
    | spawn q => exact absurd rfl (hls _ (by simp) q)
    | env e =>
      obtain ⟨left', hb, hlen, hsum⟩ := ih (h.env h₁) hls' h₂
      obtain ⟨s, -, rfl⟩ := Option.map_eq_some_iff.1 h₁
      exact ⟨left', hb, hlen, by simpa [Label.isCall] using hsum⟩
    | run o i =>
      obtain ⟨hpos, hb₁⟩ := h.run h₁
      obtain ⟨left', hb, hlen, hsum⟩ := ih hb₁ hls' h₂
      obtain ⟨q, c, k, r, s, ht, -, rfl⟩ := step_run h₁
      have hi : i ∈ Finset.range sys.tasks.length := by
        simpa using (List.getElem?_eq_some_iff.1 ht).1
      refine ⟨left', hb, by simpa using hlen, ?_⟩
      simp only [List.length_set] at hsum
      rw [Finset.sum_update_of_mem hi] at hsum
      rw [List.countP_cons_of_pos (by rfl), Finset.sum_eq_add_sum_sdiff_singleton_of_mem hi left]
      omega

end Bounded

/-- **A system that can always move on answers all its requests**: there is a run of calls, none of which
fails, after which no request is in flight. -/
theorem exists_quiescent {I : System C R S Q A → Prop} {o : Λ}
    (hstep : ∀ sys i sys', I sys → M.step sys (.run o i) = some sys' → I sys')
    (hprogress : ∀ sys, I sys → ¬ sys.Quiescent → ∃ i sys', M.step sys (.run o i) = some sys')
    {sys : System C R S Q A} {left : Nat → Nat} (h : I sys) (hb : Bounded M calls left sys) :
    ∃ (is : List Nat) (sys' : System C R S Q A), M.steps sys (is.map (.run o)) = some sys' ∧
      sys'.Quiescent := by
  -- by induction on the calls that are left
  generalize hn : ∑ i ∈ Finset.range sys.tasks.length, left i = n
  induction n generalizing sys left with
  | zero =>
    refine ⟨[], sys, rfl, Classical.byContradiction fun hq => ?_⟩
    obtain ⟨i, sys', hs⟩ := hprogress sys h hq
    obtain ⟨left', -, -, hsum⟩ := hb.steps (by simp) (Semantics.steps_one hs)
    simp only [List.countP_singleton, Label.isCall, if_true] at hsum
    omega
  | succ n ih =>
    by_cases hq : sys.Quiescent
    · exact ⟨[], sys, rfl, hq⟩
    · obtain ⟨i, sys₁, hs⟩ := hprogress sys h hq
      obtain ⟨left', hb', hlen, hsum⟩ := hb.steps (by simp) (Semantics.steps_one hs)
      simp only [List.countP_singleton, Label.isCall, if_true] at hsum
      obtain ⟨is, sys', hsteps, hq'⟩ := ih (hstep sys i sys₁ h hs) hb' (by rw [hlen]; omega)
      exact ⟨i :: is, sys', by simp [Semantics.steps, hs, hsteps], hq'⟩

end

end Async
