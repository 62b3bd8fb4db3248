import Mathlib.Data.List.Basic

/-!
# Transactions at isolation level READ COMMITTED

`Store D`: the committed state and the uncommitted changes of the open transactions, in the order in
which they were made. A statement of transaction `i` sees `view i`: what is committed at that moment
and the transaction's own changes. A change locks the rows and unique keys `D.locks` names until its
transaction ends, and a change of another transaction that needs one of them waits (`blocked`): one that
locks it itself, or looks at it only (`D.awaits`). So no two transactions have changes under the same
lock, which is the field `excl`.
-/

namespace ReadCommitted

/-- How a change acts on the state, what it locks, and whose locks it waits for besides. -/
structure Schema (σ ω κ : Type) where
  apply : ω → σ → σ
  locks : ω → List κ
  awaits : σ → ω → List κ

structure Store {σ ω κ : Type} (D : Schema σ ω κ) where
  committed : σ
  pending : List (Nat × ω)
  excl : ∀ p ∈ pending, ∀ p' ∈ pending, p.1 ≠ p'.1 → ∀ k ∈ D.locks p.2, k ∉ D.locks p'.2

namespace Store

variable {σ ω κ : Type} {D : Schema σ ω κ}

/-- No transaction is open. -/
def init (s : σ) : Store D := ⟨s, [], by simp⟩

/-- The uncommitted changes of transaction `i`. -/
def own (st : Store D) (i : Nat) : List ω := (st.pending.filter fun p => p.1 = i).map (·.2)

/-- The state with the changes `ws` made. -/
def applyAll (D : Schema σ ω κ) (ws : List ω) (s : σ) : σ := ws.foldl (fun s w => D.apply w s) s

@[simp] theorem applyAll_nil (s : σ) : applyAll D [] s = s := rfl
@[simp] theorem applyAll_cons (w : ω) (ws : List ω) (s : σ) :
    applyAll D (w :: ws) s = applyAll D ws (D.apply w s) := rfl

/-- What a statement of transaction `i` sees. -/
def view (st : Store D) (i : Nat) : σ := applyAll D (st.own i) st.committed

/-- What nobody else may hold when `w` is made. -/
def needs (st : Store D) (w : ω) : List κ := D.locks w ++ D.awaits st.committed w

/-- Another transaction holds a lock that `w` needs. -/
def blocked [DecidableEq κ] (st : Store D) (i : Nat) (w : ω) : Bool :=
  st.pending.any fun p => p.1 ≠ i && (D.locks p.2).any (· ∈ st.needs w)

theorem blocked_eq_false [DecidableEq κ] {st : Store D} {i : Nat} {w : ω} :
    st.blocked i w = false ↔ ∀ p ∈ st.pending, p.1 ≠ i → ∀ k ∈ D.locks p.2, k ∉ st.needs w := by
  simp [blocked, List.any_eq_false]

/-- Transaction `i` makes the change `w`. -/
def write [DecidableEq κ] (st : Store D) (i : Nat) (w : ω) (h : st.blocked i w = false) : Store D where
  committed := st.committed
  pending := st.pending ++ [(i, w)]
  excl := by
    have hb := blocked_eq_false.1 h
    intro p hp p' hp' hne k hk hk'
    simp only [List.mem_append, List.mem_singleton] at hp hp'
    rcases hp with hp | rfl <;> rcases hp' with hp' | rfl
    · exact st.excl p hp p' hp' hne k hk hk'
    · exact hb p hp hne k hk (List.mem_append_left _ hk')
    · exact hb p' hp' (Ne.symm hne) k hk' (List.mem_append_left _ hk)
    · exact hne rfl

/-- The transaction is gone, its changes with it. -/
def rollback (st : Store D) (i : Nat) : Store D where
  committed := st.committed
  pending := st.pending.filter fun p => p.1 ≠ i
  excl := fun p hp p' hp' =>
    st.excl p (List.mem_of_mem_filter hp) p' (List.mem_of_mem_filter hp')

/-- The transaction is over, its changes are committed. -/
def commit (st : Store D) (i : Nat) : Store D := { st.rollback i with committed := st.view i }

/-! ## Simp set -/

section

variable (st : Store D) (i : Nat) {w : ω}

@[simp] theorem committed_rollback : (st.rollback i).committed = st.committed := rfl
@[simp] theorem committed_commit : (st.commit i).committed = st.view i := rfl

@[simp] theorem own_rollback_self : (st.rollback i).own i = [] := by
  simp [own, rollback, List.filter_filter]

theorem own_rollback_ne {j : Nat} (hj : j ≠ i) : (st.rollback i).own j = st.own j := by
  simp only [own, rollback, List.filter_filter]
  congr 1
  apply List.filter_congr
  intro p _
  by_cases hp : p.1 = j
  · simp [hp, hj]
  · simp [hp]

@[simp] theorem own_commit_self : (st.commit i).own i = [] := own_rollback_self st i

theorem own_commit_ne {j : Nat} (hj : j ≠ i) : (st.commit i).own j = st.own j :=
  own_rollback_ne st i hj

variable [DecidableEq κ] {h : st.blocked i w = false}

@[simp] theorem committed_write : (st.write i w h).committed = st.committed := rfl

@[simp] theorem own_write_self : (st.write i w h).own i = st.own i ++ [w] := by
  simp [own, write]

theorem own_write_ne {j : Nat} (hj : j ≠ i) : (st.write i w h).own j = st.own j := by
  simp [own, write, Ne.symm hj]

theorem view_write_self : (st.write i w h).view i = D.apply w (st.view i) := by
  simp [view, applyAll, List.foldl_append]

end

theorem mem_own {st : Store D} {i : Nat} {w : ω} : w ∈ st.own i ↔ (i, w) ∈ st.pending := by
  simp [own]

/-- A change waits iff some other transaction holds one of its locks. -/
theorem blocked_eq_true [DecidableEq κ] {st : Store D} {i : Nat} {w : ω} : st.blocked i w = true ↔
    ∃ j, j ≠ i ∧ ∃ w' ∈ st.own j, ∃ k ∈ D.locks w', k ∈ st.needs w := by
  simp only [blocked, List.any_eq_true, Bool.and_eq_true, decide_eq_true_eq]
  constructor
  · rintro ⟨⟨j, w'⟩, hp, hj, k, hk, hkw⟩
    exact ⟨j, hj, w', mem_own.2 hp, k, hk, hkw⟩
  · rintro ⟨j, hj, w', hw', k, hk, hkw⟩
    exact ⟨(j, w'), mem_own.1 hw', hj, k, hk, hkw⟩

/-- Two open transactions hold different locks. -/
theorem disjoint_locks {st : Store D} {i j : Nat} (hij : i ≠ j) {w w' : ω} (hw : w ∈ st.own i)
    (hw' : w' ∈ st.own j) {k : κ} (hk : k ∈ D.locks w) : k ∉ D.locks w' :=
  st.excl _ (mem_own.1 hw) _ (mem_own.1 hw') hij k hk

end Store

end ReadCommitted
