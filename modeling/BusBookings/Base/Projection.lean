import BusBookings.Base.Interleave
import Mathlib.Logic.Relation

/-!
# Systems with more state

`Projects π M' M`: the requests of `M'` are those of `M`, and what `π` shows of its state changes as the
state of `M` does. So the runs of `M'` are runs of `M`, whose invariants hold on them (`Projects.run`); and
what is kept along a run of `M'` may relate the phases of a protocol of `M` to the rest of the state
(`Projects.invariant`).
-/

namespace Async

section

variable {C : Type} {R : C → Type} {S S' Q A Λ Ev Ev' G : Type}

/-- The system as `π` shows its state. -/
def System.map (π : S' → S) (sys : System C R S' Q A) : System C R S Q A := ⟨π sys.shared, sys.tasks⟩

/-- A step that the surroundings may take. -/
def Semantics.Env (M : Semantics C R S Q A Λ Ev) (s s' : S) : Prop := ∃ e, M.env e s = some s'

structure Projects (π : S' → S) (M' : Semantics C R S' Q A Λ Ev') (M : Semantics C R S Q A Λ Ev) : Prop where
  handler : M'.handler = M.handler
  exec : ∀ {l i c s r s'}, M'.exec l i c s = some (r, s') → M.exec l i c (π s) = some (r, π s')
  env : ∀ {e s s'}, M'.env e s = some s' → Relation.ReflTransGen M.Env (π s) (π s')

variable {π : S' → S} {M' : Semantics C R S' Q A Λ Ev'} {M : Semantics C R S Q A Λ Ev}
  {P : Protocol C S Q A Λ G} {sys sys' sys₀ : System C R S' Q A} {a : Abs S Q G}
  {ls : List (Label Q Λ Ev')} {l : Λ} {i : Nat} {q : Q}

/-- What the surroundings do, as a run. -/
theorem run_of_env {s s' : S} (h : Relation.ReflTransGen M.Env s s') (tasks : List (Task C R Q A)) :
    Run M (fun _ _ => True) ⟨s, tasks⟩ ⟨s', tasks⟩ := by
  induction h with
  | refl => exact .refl _
  | tail _ he ih =>
    obtain ⟨e, he⟩ := he
    exact .step ih trivial (l := .env e) (by simp [Semantics.step, he])

namespace Projects

theorem spawn (h : Projects π M' M) (hs : M'.step sys (.spawn q) = some sys') :
    M.step (sys.map π) (.spawn q) = some (sys'.map π) := by
  cases hs
  simp [Semantics.step, System.map, h.handler]

theorem call (h : Projects π M' M) (hs : M'.step sys (.run l i) = some sys') :
    M.step (sys.map π) (.run l i) = some (sys'.map π) := by
  obtain ⟨q, c, k, r, s, ht, he, rfl⟩ := step_run hs
  simp [Semantics.step, System.map, ht, h.exec he]

/-- **A run with more state is a run.** -/
theorem run (h : Projects π M' M) {Adm : System C R S' Q A → Label Q Λ Ev' → Prop}
    (hr : Run M' Adm sys sys') : Run M (fun _ _ => True) (sys.map π) (sys'.map π) := by
  induction hr with
  | refl => exact .refl _
  | step hr hadm hs ih =>
    rename_i sys₁ sys₂ l
    cases l with
    | spawn q => exact .step ih trivial (h.spawn hs)
    | run l i => exact .step ih trivial (h.call hs)
    | env e =>
      obtain ⟨s, he, rfl⟩ := Option.map_eq_some_iff.1 hs
      exact ih.trans (run_of_env (h.env he) _)

/-- **The invariant rule** for a system with more state than its protocol. -/
theorem invariant (hπ : Projects π M' M)
    (hstart : ∀ i q, Sim P M.exec q i (M.handler q) (P.start q) fun r g => P.ends q g r)
    {I : List (Label Q Λ Ev') → S' → Abs S Q G → Prop}
    (hspawn : ∀ ls sys a q a', M'.steps sys₀ ls = some sys → Refines P M (sys.map π) a → I ls sys.shared a →
      P.Step M.env a (.spawn q) none a' → I (ls ++ [.spawn q]) sys.shared a')
    (hcall : ∀ ls sys a l i c r s' a', M'.steps sys₀ ls = some sys → Refines P M (sys.map π) a →
      I ls sys.shared a → M'.exec l i c sys.shared = some (r, s') → a'.shared = π s' →
      P.Step M.env a (.run l i) (some c) a' → I (ls ++ [.run l i]) s' a')
    (henv : ∀ ls sys a e s', M'.steps sys₀ ls = some sys → Refines P M (sys.map π) a → I ls sys.shared a →
      M'.env e sys.shared = some s' → I (ls ++ [.env e]) s' ⟨π s', a.phase⟩)
    (h : M'.steps sys₀ ls = some sys) (ha : Refines P M (sys₀.map π) a) (hI : I [] sys₀.shared a) :
    ∃ a', Refines P M (sys.map π) a' ∧ I ls sys.shared a' := by
  have htr := Trace.of_steps h
  clear h
  induction htr with
  | nil => exact ⟨a, ha, hI⟩
  | snoc htr hadm hs ih =>
    rename_i ls l sys₁ sys₂
    obtain ⟨a₁, ha₁, hI₁⟩ := ih
    cases l with
    | spawn q =>
      obtain ⟨a₂, hst, ha₂⟩ := ha₁.step hstart (hπ.spawn hs)
      cases hs
      exact ⟨a₂, ha₂, hspawn _ sys₁ _ _ _ htr.steps ha₁ hI₁ hst⟩
    | run l i =>
      obtain ⟨a₂, hst, ha₂⟩ := ha₁.step hstart (hπ.call hs)
      obtain ⟨q, c, k, r, s, ht, he, rfl⟩ := step_run hs
      have hc : (sys₁.map π).callOf (.run l i : Label Q Λ Ev) = some c := by
        simp [System.callOf, System.awaiting, System.map, ht]
      rw [hc] at hst
      exact ⟨a₂, ha₂, hcall _ _ _ _ _ _ _ _ _ htr.steps ha₁ hI₁ he ha₂.shared hst⟩
    | env e =>
      obtain ⟨s, he, rfl⟩ := Option.map_eq_some_iff.1 hs
      exact ⟨⟨π s, a₁.phase⟩, ⟨rfl, ha₁.sim, ha₁.fresh⟩, henv _ _ _ _ _ htr.steps ha₁ hI₁ he⟩

end Projects

end

end Async
