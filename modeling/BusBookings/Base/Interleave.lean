import BusBookings.Base.Coro

/-!
# Interleaved coroutines and their abstract protocols

A `System` is a shared state with the coroutines that serve the requests received so far. One step
(`Semantics.step`) receives a request, lets one coroutine take its next call, or lets the
surroundings act; so a run of steps is an interleaving at the suspension points.

A `Protocol` is an abstract model of the same requests: each request is in a phase, and
`Protocol.step` says what one call may do to the phase and to the shared state. `Sim` says that a
coroutine is simulated by a phase: it is checked once along the program text (`Sim.bind`,
`SimE.bind`, `SimE.tryCatch`, `SimE.call`). Then

* `Refines.step`: a step of the system is a step of the protocol,
* `Run.invariant`: an invariant of the protocol's steps holds after every run of the system.
-/

namespace Async

/-- A request with the coroutine that serves it. -/
structure Task (C : Type) (R : C → Type) (Q A : Type) where
  req : Q
  co : Coro C R A

/-- The shared state and the requests received so far, in the order of their arrival. -/
structure System (C : Type) (R : C → Type) (S Q A : Type) where
  shared : S
  tasks : List (Task C R Q A)

/-- One step: request `q` arrives, request `i` takes its next call (`l`: how the call goes), or the
surroundings do `e`. -/
inductive Label (Q Λ Ev : Type) where
  | spawn (q : Q)
  | run (l : Λ) (i : Nat)
  | env (e : Ev)

/-- The code of each request, the effect of a call (`none`: it blocks) and of the surroundings. -/
structure Semantics (C : Type) (R : C → Type) (S Q A Λ Ev : Type) where
  handler : Q → Coro C R A
  exec : Λ → Nat → (c : C) → S → Option (R c × S)
  env : Ev → S → Option S

section

variable {C : Type} {R : C → Type} {S Q A Λ Ev : Type}

namespace System

/-- Request `i`. -/
def request (sys : System C R S Q A) (i : Nat) : Option Q := sys.tasks[i]?.map (·.req)

/-- The requests received so far. -/
def requests (sys : System C R S Q A) : List Q := sys.tasks.map (·.req)

/-- The call request `i` waits for. -/
def awaiting (sys : System C R S Q A) (i : Nat) : Option C := sys.tasks[i]?.bind (·.co.awaiting)

/-- The answer request `i` got. -/
def answer (sys : System C R S Q A) (i : Nat) : Option A := sys.tasks[i]?.bind (·.co.result)

/-- The call a step takes. -/
def callOf {Λ Ev : Type} (sys : System C R S Q A) : Label Q Λ Ev → Option C
  | .run _ i => sys.awaiting i
  | _ => none

/-- No request is in flight. -/
def Quiescent (sys : System C R S Q A) : Prop := ∀ t ∈ sys.tasks, t.co.awaiting = none

instance (sys : System C R S Q A) : Decidable sys.Quiescent :=
  decidable_of_iff (sys.tasks.all (·.co.awaiting.isNone) = true) (by simp [Quiescent])

end System

def Semantics.step (M : Semantics C R S Q A Λ Ev) (sys : System C R S Q A) :
    Label Q Λ Ev → Option (System C R S Q A)
  | .spawn q => some { sys with tasks := sys.tasks ++ [⟨q, M.handler q⟩] }
  | .env e => (M.env e sys.shared).map fun s => { sys with shared := s }
  | .run l i =>
    match sys.tasks[i]? with
    | some ⟨q, .await c k⟩ =>
      (M.exec l i c sys.shared).map fun p =>
        { shared := p.2, tasks := sys.tasks.set i ⟨q, k p.1⟩ }
    | _ => none

/-- The steps of a list, in order. -/
def Semantics.steps (M : Semantics C R S Q A Λ Ev) :
    System C R S Q A → List (Label Q Λ Ev) → Option (System C R S Q A)
  | sys, [] => some sys
  | sys, l :: ls => (M.step sys l).bind (M.steps · ls)

theorem Semantics.steps_append (M : Semantics C R S Q A Λ Ev) (sys : System C R S Q A)
    (ls ls' : List (Label Q Λ Ev)) : M.steps sys (ls ++ ls') = (M.steps sys ls).bind (M.steps · ls') := by
  induction ls generalizing sys with
  | nil => rfl
  | cons l ls ih => simp [steps, ih, Option.bind_assoc]

theorem Semantics.steps_one {M : Semantics C R S Q A Λ Ev} {sys sys' : System C R S Q A}
    {l : Label Q Λ Ev} (h : M.step sys l = some sys') : M.steps sys [l] = some sys' := by
  simp [steps, h]

/-- The steps of a list lead from the state after each of its prefixes to the last one. -/
theorem Semantics.steps_of_prefix {M : Semantics C R S Q A Λ Ev} {sys₀ sys₁ sys : System C R S Q A}
    {ls₁ ls : List (Label Q Λ Ev)} (hpre : ls₁ <+: ls) (h₁ : M.steps sys₀ ls₁ = some sys₁)
    (h : M.steps sys₀ ls = some sys) : ∃ ls', M.steps sys₁ ls' = some sys := by
  obtain ⟨ls', rfl⟩ := hpre
  rw [M.steps_append, h₁] at h
  exact ⟨ls', h⟩

/-- At a moment of the steps `ls`, `P` was true of the steps taken until then and of the system. -/
def Semantics.Once (M : Semantics C R S Q A Λ Ev) (sys₀ : System C R S Q A)
    (P : List (Label Q Λ Ev) → System C R S Q A → Prop) (ls : List (Label Q Λ Ev)) : Prop :=
  ∃ ls₁ sys₁, ls₁ <+: ls ∧ M.steps sys₀ ls₁ = some sys₁ ∧ P ls₁ sys₁

namespace Semantics.Once

variable {M : Semantics C R S Q A Λ Ev} {sys₀ sys : System C R S Q A} {ls ls' : List (Label Q Λ Ev)}
  {P P' : List (Label Q Λ Ev) → System C R S Q A → Prop}

theorem now (hs : M.steps sys₀ ls = some sys) (h : P ls sys) : M.Once sys₀ P ls :=
  ⟨ls, sys, List.prefix_rfl, hs, h⟩

theorem append (h : M.Once sys₀ P ls) (ls' : List (Label Q Λ Ev)) : M.Once sys₀ P (ls ++ ls') := by
  obtain ⟨ls₁, sys₁, hpre, hmoment⟩ := h
  exact ⟨ls₁, sys₁, hpre.trans (List.prefix_append _ _), hmoment⟩

theorem imp (h : M.Once sys₀ P ls) (hP : ∀ ls₁ sys₁, M.steps sys₀ ls₁ = some sys₁ → P ls₁ sys₁ → P' ls₁ sys₁) :
    M.Once sys₀ P' ls := by
  obtain ⟨ls₁, sys₁, hpre, hs, h⟩ := h
  exact ⟨ls₁, sys₁, hpre, hs, hP _ _ hs h⟩

/-- A moment of a run lies before or after a state of it. -/
theorem split {ls₁ ls₂ : List (Label Q Λ Ev)} (h : M.Once sys₀ P (ls₁ ++ ls₂)) (hs : M.steps sys₀ ls₁ = some sys) :
    M.Once sys₀ P ls₁ ∨ M.Once sys (fun ls => P (ls₁ ++ ls)) ls₂ := by
  obtain ⟨ls', sys', hpre, hs', h⟩ := h
  rcases List.prefix_or_prefix_of_prefix hpre (List.prefix_append ls₁ ls₂) with hle | ⟨ls, rfl⟩
  · exact .inl ⟨ls', sys', hle, hs', h⟩
  · rw [M.steps_append, hs] at hs'
    exact .inr ⟨ls, sys', (List.prefix_append_right_inj _).1 hpre, hs', h⟩

end Semantics.Once

/-- Runs all of whose steps satisfy `P` (a condition on the state before the step and its label). -/
inductive Run (M : Semantics C R S Q A Λ Ev) (P : System C R S Q A → Label Q Λ Ev → Prop) :
    System C R S Q A → System C R S Q A → Prop
  | refl (sys : System C R S Q A) : Run M P sys sys
  | step {sys sys₁ sys₂ : System C R S Q A} {l : Label Q Λ Ev} : Run M P sys sys₁ → P sys₁ l →
      M.step sys₁ l = some sys₂ → Run M P sys sys₂

/-- The steps of a list, as long as each satisfies `P`. -/
def Semantics.stepsIf (M : Semantics C R S Q A Λ Ev) (P : System C R S Q A → Label Q Λ Ev → Prop)
    [∀ sys l, Decidable (P sys l)] : System C R S Q A → List (Label Q Λ Ev) → Option (System C R S Q A)
  | sys, [] => some sys
  | sys, l :: ls => if P sys l then (M.step sys l).bind (M.stepsIf P · ls) else none

/-- The run of the steps `ls`, all of which satisfy `P`. -/
inductive Trace (M : Semantics C R S Q A Λ Ev) (P : System C R S Q A → Label Q Λ Ev → Prop)
    (sys₀ : System C R S Q A) : List (Label Q Λ Ev) → System C R S Q A → Prop
  | nil : Trace M P sys₀ [] sys₀
  | snoc {ls : List (Label Q Λ Ev)} {l : Label Q Λ Ev} {sys sys' : System C R S Q A} :
      Trace M P sys₀ ls sys → P sys l → M.step sys l = some sys' → Trace M P sys₀ (ls ++ [l]) sys'

variable {M : Semantics C R S Q A Λ Ev} {P P' : System C R S Q A → Label Q Λ Ev → Prop}

namespace Trace

variable {sys₀ sys sys' : System C R S Q A} {ls ls' : List (Label Q Λ Ev)}

theorem steps (h : Trace M P sys₀ ls sys) : M.steps sys₀ ls = some sys := by
  induction h with
  | nil => rfl
  | snoc _ _ hs ih => rw [M.steps_append, ih, Option.bind_some, Semantics.steps, hs]; rfl

theorem run (h : Trace M P sys₀ ls sys) : Run M P sys₀ sys := by
  induction h with
  | nil => exact .refl _
  | snoc _ hp hs ih => exact .step ih hp hs

theorem append (h : Trace M P sys₀ ls sys) (h' : Trace M P sys ls' sys') :
    Trace M P sys₀ (ls ++ ls') sys' := by
  induction h' with
  | nil => rwa [List.append_nil]
  | snoc _ hp hs ih => rw [← List.append_assoc]; exact .snoc ih hp hs

theorem mono (h : Trace M P sys₀ ls sys) (hP : ∀ s l, P s l → P' s l) : Trace M P' sys₀ ls sys := by
  induction h with
  | nil => exact .nil
  | snoc _ hp hs ih => exact .snoc ih (hP _ _ hp) hs

theorem of_prefix (h : Trace M P sys₀ ls sys) {sys₁ : System C R S Q A} {ls₁ : List (Label Q Λ Ev)}
    (hpre : ls₁ <+: ls) (h₁ : M.steps sys₀ ls₁ = some sys₁) : Trace M P sys₀ ls₁ sys₁ := by
  induction h with
  | nil =>
    obtain rfl := List.prefix_nil.1 hpre
    cases h₁
    exact .nil
  | snoc h hp hs ih =>
    rcases List.prefix_concat_iff.1 hpre with rfl | hpre
    · have hwhole := Trace.snoc h hp hs
      rw [hwhole.steps, Option.some.injEq] at h₁
      exact h₁ ▸ hwhole
    · exact ih hpre

theorem of_steps (h : M.steps sys ls = some sys') : Trace M (fun _ _ => True) sys ls sys' := by
  induction ls generalizing sys with
  | nil =>
    cases h
    exact .nil
  | cons l ls ih =>
    obtain ⟨sys₁, h₁, h₂⟩ := Option.bind_eq_some_iff.1 h
    exact append (.snoc .nil trivial h₁) (ih h₂)

theorem of_stepsIf [∀ sys l, Decidable (P sys l)] (h : M.stepsIf P sys ls = some sys') :
    Trace M P sys ls sys' := by
  induction ls generalizing sys with
  | nil =>
    cases h
    exact .nil
  | cons l ls ih =>
    simp only [Semantics.stepsIf] at h
    split at h
    · obtain ⟨sys₁, h₁, h₂⟩ := Option.bind_eq_some_iff.1 h
      exact append (.snoc .nil ‹_› h₁) (ih h₂)
    · cases h

end Trace

theorem step_run {sys sys' : System C R S Q A} {l : Λ} {i : Nat}
    (h : M.step sys (.run l i) = some sys') : ∃ q c k r s,
    sys.tasks[i]? = some ⟨q, .await c k⟩ ∧ M.exec l i c sys.shared = some (r, s) ∧
      sys' = ⟨s, sys.tasks.set i ⟨q, k r⟩⟩ := by
  simp only [Semantics.step] at h
  split at h
  · rename_i q c k ht
    obtain ⟨p, hp, rfl⟩ := Option.map_eq_some_iff.1 h
    exact ⟨q, c, k, p.1, p.2, ht, hp, rfl⟩
  · cases h

/-- The call that request `i` takes in a step, with its reply. -/
def Semantics.reply? (M : Semantics C R S Q A Λ Ev) (sys : System C R S Q A) (i : Nat) :
    Label Q Λ Ev → Option ((c : C) × R c)
  | .run l j =>
    if j = i then
      match sys.tasks[j]? with
      | some ⟨_, .await c _⟩ => (M.exec l j c sys.shared).map fun p => ⟨c, p.1⟩
      | _ => none
    else none
  | _ => none

/-- The calls that request `i` takes in the steps of a list, with their replies. -/
def Semantics.replies (M : Semantics C R S Q A Λ Ev) (i : Nat) :
    System C R S Q A → List (Label Q Λ Ev) → List ((c : C) × R c)
  | _, [] => []
  | sys, l :: ls => (M.reply? sys i l).toList ++ ((M.step sys l).map (M.replies i · ls)).getD []

theorem Semantics.replies_snoc {sys sys' : System C R S Q A} {ls : List (Label Q Λ Ev)}
    (h : M.steps sys ls = some sys') (i : Nat) (l : Label Q Λ Ev) :
    M.replies i sys (ls ++ [l]) = M.replies i sys ls ++ (M.reply? sys' i l).toList := by
  induction ls generalizing sys with
  | nil =>
    cases h
    cases hs : M.step sys' l <;> simp [replies, hs]
  | cons l' ls ih =>
    obtain ⟨sys₁, h₁, h₂⟩ := Option.bind_eq_some_iff.1 h
    simp [replies, h₁, ih h₂]

/-- **A coroutine is its code after its replies.** -/
theorem Semantics.took {s : S} {sys : System C R S Q A} {ls : List (Label Q Λ Ev)}
    (h : M.steps ⟨s, []⟩ ls = some sys) {i : Nat} {t : Task C R Q A} (ht : sys.tasks[i]? = some t) :
    (M.handler t.req).Took (M.replies i ⟨s, []⟩ ls) t.co := by
  suffices hall : (∀ t, sys.tasks[i]? = some t → (M.handler t.req).Took (M.replies i ⟨s, []⟩ ls) t.co) ∧
      (sys.tasks[i]? = none → M.replies i ⟨s, []⟩ ls = []) from hall.1 t ht
  clear ht
  have htr := Trace.of_steps h
  clear h
  induction htr with
  | nil => exact ⟨fun t ht => (by cases ht), fun _ => rfl⟩
  | @snoc ls l sys sys' htr _ hs ih =>
    rw [replies_snoc htr.steps]
    cases l with
    | spawn q =>
      cases hs
      simp only [reply?, Option.toList_none, List.append_nil]
      rcases Nat.lt_trichotomy i sys.tasks.length with hlt | rfl | hgt
      · rw [List.getElem?_append_left hlt]
        exact ih
      · refine ⟨fun t ht => ?_, fun hnone => by simp at hnone⟩
        rw [List.getElem?_append_right (Nat.le_refl _), Nat.sub_self] at ht
        cases ht
        rw [ih.2 (by simp)]
        exact .nil
      · refine ⟨fun t ht => ?_, fun _ => ih.2 (List.getElem?_eq_none (by omega))⟩
        rw [List.getElem?_eq_none (by simp; omega)] at ht
        cases ht
    | env e =>
      obtain ⟨s', -, rfl⟩ := Option.map_eq_some_iff.1 hs
      simpa [reply?] using ih
    | run l j =>
      obtain ⟨q, c, k, r, s', hj, he, rfl⟩ := step_run hs
      by_cases hji : j = i
      · subst hji
        have hlt := (List.getElem?_eq_some_iff.1 hj).1
        have hreply : M.reply? sys j (.run l j) = some ⟨c, r⟩ := by simp [reply?, hj, he]
        refine ⟨fun t ht => ?_, fun hnone => ?_⟩
        · rw [List.getElem?_set_self hlt] at ht
          cases ht
          rw [hreply]
          exact (ih.1 _ hj).snoc r
        · rw [List.getElem?_set_self hlt] at hnone
          cases hnone
      · simpa [reply?, hji, List.getElem?_set_ne hji] using ih

/-- Only an arrival changes the list of requests. -/
theorem step_requests {sys sys' : System C R S Q A} {l : Label Q Λ Ev} (h : M.step sys l = some sys') :
    sys'.requests = sys.requests ++ (match l with | .spawn q => [q] | _ => []) := by
  cases l with
  | spawn q =>
    cases h
    simp [System.requests]
  | env e =>
    obtain ⟨s, -, rfl⟩ := Option.map_eq_some_iff.1 h
    simp [System.requests]
  | run l i =>
    obtain ⟨q, c, k, r, s, ht, -, rfl⟩ := step_run h
    obtain ⟨hi, ht⟩ := List.getElem?_eq_some_iff.1 ht
    have hi' : i < (sys.tasks.map (·.req)).length := by simpa using hi
    have hq : q = (sys.tasks.map (·.req))[i] := by simp [ht]
    simp only [System.requests, List.append_nil, List.map_set]
    rw [hq]
    exact List.set_getElem_self _

theorem System.requests_getElem? (sys : System C R S Q A) (i : Nat) : sys.requests[i]? = sys.request i := by
  simp [System.requests, System.request]

/-- Requests stay. -/
theorem Semantics.step_request {sys sys' : System C R S Q A} {l : Label Q Λ Ev}
    (h : M.step sys l = some sys') {i : Nat} {q : Q} (hq : sys.request i = some q) :
    sys'.request i = some q := by
  rw [← System.requests_getElem?] at hq ⊢
  rw [step_requests h, List.getElem?_append_left (List.getElem?_eq_some_iff.1 hq).1, hq]

/-- So do their answers. -/
theorem Semantics.step_answer {sys sys' : System C R S Q A} {l : Label Q Λ Ev}
    (h : M.step sys l = some sys') {i : Nat} {r : A} (hr : sys.answer i = some r) :
    sys'.answer i = some r := by
  obtain ⟨t, ht, hres⟩ := Option.bind_eq_some_iff.1 hr
  cases l with
  | spawn q =>
    cases h
    simp [System.answer, List.getElem?_append_left (List.getElem?_eq_some_iff.1 ht).1, ht, hres]
  | env e =>
    obtain ⟨s, -, rfl⟩ := Option.map_eq_some_iff.1 h
    exact hr
  | run l j =>
    obtain ⟨q, c, k, r', s, htj, -, rfl⟩ := step_run h
    have hij : j ≠ i := by
      rintro rfl
      rw [htj] at ht
      cases ht
      cases hres
    simp [System.answer, List.getElem?_set_ne hij, ht, hres]

theorem Semantics.steps_request {sys sys' : System C R S Q A} {ls : List (Label Q Λ Ev)}
    (h : M.steps sys ls = some sys') {i : Nat} {q : Q} (hq : sys.request i = some q) :
    sys'.request i = some q := by
  induction Trace.of_steps h with
  | nil => exact hq
  | snoc htr _ hs ih => exact step_request hs (ih htr.steps)

theorem Semantics.steps_answer {sys sys' : System C R S Q A} {ls : List (Label Q Λ Ev)}
    (h : M.steps sys ls = some sys') {i : Nat} {r : A} (hr : sys.answer i = some r) :
    sys'.answer i = some r := by
  induction Trace.of_steps h with
  | nil => exact hr
  | snoc htr _ hs ih => exact step_answer hs (ih htr.steps)

/-- A request that was there once is there. -/
theorem Semantics.Once.request {sys₀ sys : System C R S Q A} {ls : List (Label Q Λ Ev)}
    {P : List (Label Q Λ Ev) → System C R S Q A → Prop} (h : M.Once sys₀ P ls) (hs : M.steps sys₀ ls = some sys)
    {i : Nat} {q : Q} (hP : ∀ ls sys, P ls sys → sys.request i = some q) : sys.request i = some q := by
  obtain ⟨ls₁, sys₁, hpre, h₁, hmoment⟩ := h
  obtain ⟨ls', hs'⟩ := steps_of_prefix hpre h₁ hs
  exact steps_request hs' (hP _ _ hmoment)

namespace Run

theorem trans {sys₁ sys₂ sys₃ : System C R S Q A} (h₁ : Run M P sys₁ sys₂)
    (h₂ : Run M P sys₂ sys₃) : Run M P sys₁ sys₃ := by
  induction h₂ with
  | refl => exact h₁
  | step _ hp hs ih => exact .step ih hp hs

theorem mono {sys sys' : System C R S Q A} (h : Run M P sys sys')
    (hP : ∀ s l, P s l → P' s l) : Run M P' sys sys' := by
  induction h with
  | refl => exact .refl _
  | step _ hp hs ih => exact .step ih (hP _ _ hp) hs

/-- A list of steps is a run. -/
theorem of_steps {ls : List (Label Q Λ Ev)} {sys sys' : System C R S Q A}
    (h : M.steps sys ls = some sys') : Run M (fun _ _ => True) sys sys' := by
  suffices key : ∀ {sys₀}, Run M (fun _ _ => True) sys₀ sys → Run M (fun _ _ => True) sys₀ sys' from
    key (.refl _)
  induction ls generalizing sys with
  | nil =>
    intro sys₀ h₀
    simp only [Semantics.steps, Option.some.injEq] at h
    exact h ▸ h₀
  | cons l ls ih =>
    intro sys₀ h₀
    simp only [Semantics.steps] at h
    obtain ⟨sys₁, h₁, h₂⟩ := Option.bind_eq_some_iff.1 h
    exact ih h₂ (.step h₀ trivial h₁)

theorem of_stepsIf [∀ sys l, Decidable (P sys l)] {ls : List (Label Q Λ Ev)} {sys sys' : System C R S Q A}
    (h : M.stepsIf P sys ls = some sys') : Run M P sys sys' := by
  suffices key : ∀ {sys₀}, Run M P sys₀ sys → Run M P sys₀ sys' from key (.refl _)
  induction ls generalizing sys with
  | nil =>
    intro sys₀ h₀
    simp only [Semantics.stepsIf, Option.some.injEq] at h
    exact h ▸ h₀
  | cons l ls ih =>
    intro sys₀ h₀
    simp only [Semantics.stepsIf] at h
    split at h
    · obtain ⟨sys₁, h₁, h₂⟩ := Option.bind_eq_some_iff.1 h
      exact ih h₂ (.step h₀ ‹_› h₁)
    · cases h

/-- A property kept by every step of a run. -/
theorem preserves {I : System C R S Q A → Prop} {sys sys' : System C R S Q A} (h : Run M P sys sys')
    (hI : ∀ s s' l, I s → P s l → M.step s l = some s' → I s') (h₀ : I sys) : I sys' := by
  induction h with
  | refl => exact h₀
  | step _ hp hs ih => exact hI _ _ _ ih hp hs

end Run

end

/-! ## Protocols -/

/-- An abstract model of the requests: their phases `G` and what one call may do in a phase. -/
structure Protocol (C S Q A Λ G : Type) where
  start : Q → G
  /-- The calls a request may wait for in a phase. -/
  waits : Q → G → C → Prop
  /-- Request `q` with index `i` takes the call `c` in phase `g` and moves on to phase `g'`. -/
  step : Q → Nat → Λ → C → G → S → G → S → Prop
  /-- The answers of a finished request. -/
  ends : Q → G → A → Prop

/-- The shared state and the phase of each request received so far. -/
structure Abs (S Q G : Type) where
  shared : S
  phase : Nat → Option (Q × G)

section

variable {C : Type} {R : C → Type} {S Q A Λ Ev G α β : Type}

/-- The steps of the protocol, with the call that is taken. -/
inductive Protocol.Step (P : Protocol C S Q A Λ G) (env : Ev → S → Option S) :
    Abs S Q G → Label Q Λ Ev → Option C → Abs S Q G → Prop
  | run {a : Abs S Q G} {l : Λ} {i : Nat} {q : Q} {g g' : G} {c : C} {s' : S} :
      a.phase i = some (q, g) → P.waits q g c → P.step q i l c g a.shared g' s' →
      Step P env a (.run l i) (some c) ⟨s', Function.update a.phase i (some (q, g'))⟩
  | spawn {a : Abs S Q G} {i : Nat} {q : Q} : a.phase i = none →
      Step P env a (.spawn q) none ⟨a.shared, Function.update a.phase i (some (q, P.start q))⟩
  | env {a : Abs S Q G} {e : Ev} {s' : S} : env e a.shared = some s' →
      Step P env a (.env e) none ⟨s', a.phase⟩

/-- A phase after a step is as it was before, or the first one of a new request, or the one the call
of the step leads to. -/
theorem Protocol.Step.phase_eq {P : Protocol C S Q A Λ G} {env : Ev → S → Option S} {a a' : Abs S Q G}
    {l : Label Q Λ Ev} {call : Option C} (h : P.Step env a l call a') {j : Nat} {q : Q} {g' : G}
    (hj : a'.phase j = some (q, g')) : a.phase j = some (q, g') ∨
      (l = .spawn q ∧ a.phase j = none ∧ g' = P.start q) ∨
      ∃ o c g, l = .run o j ∧ call = some c ∧ a.phase j = some (q, g) ∧ P.waits q g c ∧
        P.step q j o c g a.shared g' a'.shared := by
  cases h with
  | env he => exact .inl hj
  | spawn hi =>
    rename_i i q'
    by_cases hji : j = i
    · subst hji
      simp only [Function.update_self, Option.some.injEq, Prod.mk.injEq] at hj
      obtain ⟨rfl, rfl⟩ := hj
      exact .inr (.inl ⟨rfl, hi, rfl⟩)
    · exact .inl (by simpa [Function.update_of_ne hji] using hj)
  | run hi hw hs =>
    rename_i o i q' g g₁ c s'
    by_cases hji : j = i
    · subst hji
      simp only [Function.update_self, Option.some.injEq, Prod.mk.injEq] at hj
      obtain ⟨rfl, rfl⟩ := hj
      exact .inr (.inr ⟨o, c, g, rfl, rfl, hi, hw, hs⟩)
    · exact .inl (by simpa [Function.update_of_ne hji] using hj)

/-- A request stays the same, whatever its phase. -/
theorem Protocol.Step.phase_request {P : Protocol C S Q A Λ G} {env : Ev → S → Option S}
    {a a' : Abs S Q G} {l : Label Q Λ Ev} {call : Option C} (h : P.Step env a l call a') {j : Nat}
    {q : Q} {g : G} (hj : a.phase j = some (q, g)) : ∃ g', a'.phase j = some (q, g') := by
  cases h with
  | env he => exact ⟨g, hj⟩
  | spawn hi =>
    rename_i i q'
    have hji : j ≠ i := fun he => by
      rw [he, hi] at hj
      cases hj
    exact ⟨g, by simpa [Function.update_of_ne hji] using hj⟩
  | run hi hw hs =>
    rename_i o i q' g₀ g₁ c s'
    by_cases hji : j = i
    · subst hji
      rw [hi] at hj
      cases hj
      exact ⟨g₁, by simp⟩
    · exact ⟨g, by simpa [Function.update_of_ne hji] using hj⟩

/-- A phase that waits for no call is kept. -/
theorem Protocol.Step.phase_keep {P : Protocol C S Q A Λ G} {env : Ev → S → Option S}
    {a a' : Abs S Q G} {l : Label Q Λ Ev} {call : Option C} (h : P.Step env a l call a') {j : Nat}
    {q : Q} {g : G} (hj : a.phase j = some (q, g)) (hg : ∀ c, ¬ P.waits q g c) :
    a'.phase j = some (q, g) := by
  obtain ⟨g', hj'⟩ := h.phase_request hj
  rcases h.phase_eq hj' with hold | ⟨-, hnew, -⟩ | ⟨o, c, g₀, -, -, hi, hw, -⟩
  · rw [hj] at hold
    rw [hj', hold]
  · rw [hj] at hnew
    cases hnew
  · rw [hj] at hi
    cases hi
    exact absurd hw (hg c)

/-- The coroutine is simulated by the protocol from phase `g`; `K` holds of its result and its last
phase. -/
def Sim (P : Protocol C S Q A Λ G) (exec : Λ → Nat → (c : C) → S → Option (R c × S)) (q : Q)
    (i : Nat) : Coro C R α → G → (α → G → Prop) → Prop
  | .done a, g, K => K a g
  | .await c k, g, K => P.waits q g c ∧ ∀ l s r s', exec l i c s = some (r, s') →
      ∃ g', P.step q i l c g s g' s' ∧ Sim P exec q i (k r) g' K

variable {P : Protocol C S Q A Λ G} {exec : Λ → Nat → (c : C) → S → Option (R c × S)} {q : Q}
  {i : Nat}

theorem Sim.mono {co : Coro C R α} {g : G} {K K' : α → G → Prop} (h : Sim P exec q i co g K)
    (hK : ∀ a g, K a g → K' a g) : Sim P exec q i co g K' := by
  induction co generalizing g with
  | done a => exact hK _ _ h
  | await c k ih =>
    refine ⟨h.1, fun l s r s' he => ?_⟩
    obtain ⟨g', hs, hk⟩ := h.2 l s r s' he
    exact ⟨g', hs, ih r hk⟩

theorem Sim.bind {co : Coro C R α} {f : α → Coro C R β} {g : G} {K : β → G → Prop}
    (h : Sim P exec q i co g fun a g' => Sim P exec q i (f a) g' K) :
    Sim P exec q i (co >>= f) g K := by
  induction co generalizing g with
  | done a => exact h
  | await c k ih =>
    refine ⟨h.1, fun l s r s' he => ?_⟩
    obtain ⟨g', hs, hk⟩ := h.2 l s r s' he
    exact ⟨g', hs, ih r hk⟩

/-- A coroutine whose calls stay in a phase. -/
theorem Sim.of_only {co : Coro C R α} {g : G} {Φ : C → Prop} (h : co.Only Φ)
    (hstep : ∀ c, Φ c → P.waits q g c ∧ ∀ l s r s', exec l i c s = some (r, s') → P.step q i l c g s g s') :
    Sim P exec q i co g fun _ g' => g' = g := by
  induction co with
  | done a => rfl
  | await c k ih =>
    obtain ⟨hw, hs⟩ := hstep c h.1
    exact ⟨hw, fun l s r s' he => ⟨g, hs l s r s' he, ih r (h.2 r)⟩⟩

/-- **The rule for a coroutine that runs alone**: where no call blocks and the protocol's steps keep
`I`, it returns. -/
theorem Sim.run_alone {co : Coro C R α} {g : G} {s : S} {l : Λ} {K : α → G → Prop} {I : G → S → Prop}
    (h : Sim P exec q i co g K) (hI : I g s)
    (hprogress : ∀ g c s, I g s → P.waits q g c → ∃ p, exec l i c s = some p)
    (hstep : ∀ g c s g' s', I g s → P.waits q g c → P.step q i l c g s g' s' → I g' s') :
    ∃ a s' g', co.run (exec l i) s = some (a, s') ∧ K a g' ∧ I g' s' := by
  induction co generalizing g s with
  | done a => exact ⟨a, s, g, rfl, h, hI⟩
  | await c k ih =>
    obtain ⟨⟨r, s'⟩, he⟩ := hprogress g c s hI h.1
    obtain ⟨g', hs, hk⟩ := h.2 l s r s' he
    obtain ⟨a, s'', g'', hrun, hK, hI'⟩ := ih r hk (hstep g c s g' s' hI h.1 hs)
    exact ⟨a, s'', g'', (Coro.run_await he).trans hrun, hK, hI'⟩

/-! ## Refinement -/

variable {M : Semantics C R S Q A Λ Ev}

/-- The protocol state `a` describes the system: the same shared state, and each coroutine is
simulated from the phase of its request. -/
structure Refines (P : Protocol C S Q A Λ G) (M : Semantics C R S Q A Λ Ev)
    (sys : System C R S Q A) (a : Abs S Q G) : Prop where
  shared : a.shared = sys.shared
  sim : ∀ i t, sys.tasks[i]? = some t → ∃ g, a.phase i = some (t.req, g) ∧
    Sim P M.exec t.req i t.co g fun r g => P.ends t.req g r
  fresh : ∀ i, sys.tasks[i]? = none → a.phase i = none

/-- The phase of a suspended request waits for its call. -/
theorem Refines.waits {sys : System C R S Q A} {a : Abs S Q G} (h : Refines P M sys a) {i : Nat}
    {q : Q} {g : G} (hi : a.phase i = some (q, g)) :
    ∃ t, sys.tasks[i]? = some t ∧ t.req = q ∧
      (∀ c, t.co.awaiting = some c → P.waits q g c) ∧ ∀ r, t.co.result = some r → P.ends q g r := by
  cases ht : sys.tasks[i]? with
  | none => rw [h.fresh i ht] at hi; cases hi
  | some t =>
    obtain ⟨g', hg, hsim⟩ := h.sim i t ht
    rw [hi] at hg
    simp only [Option.some.injEq, Prod.mk.injEq] at hg
    obtain ⟨rfl, rfl⟩ := hg
    refine ⟨t, rfl, rfl, ?_, ?_⟩
    · intro c hc
      cases hco : t.co with
      | done r => rw [hco] at hc; cases hc
      | await c' k =>
        rw [hco] at hc hsim
        cases hc
        exact hsim.1
    · intro r hr
      cases hco : t.co with
      | done r' =>
        rw [hco] at hr hsim
        cases hr
        exact hsim
      | await c' k => rw [hco] at hr; cases hr

/-- The request of a phase is the one received. -/
theorem Refines.request {sys : System C R S Q A} {a : Abs S Q G} (h : Refines P M sys a) {i : Nat}
    {q : Q} {g : G} (hi : a.phase i = some (q, g)) : sys.request i = some q := by
  obtain ⟨t, ht, rfl, -⟩ := h.waits hi
  exact Option.map_eq_some_iff.2 ⟨t, ht, rfl⟩

/-- A request is in a phase. -/
theorem Refines.phase {sys : System C R S Q A} {a : Abs S Q G} (h : Refines P M sys a) {i : Nat} {q : Q}
    (hreq : sys.request i = some q) : ∃ g, a.phase i = some (q, g) := by
  obtain ⟨t, ht, rfl⟩ := Option.map_eq_some_iff.1 hreq
  obtain ⟨g, hg, -⟩ := h.sim i t ht
  exact ⟨g, hg⟩

/-- What the awaited call of a request does, in whatever state it is taken, is a step of the protocol. -/
theorem Refines.taken {sys : System C R S Q A} {a : Abs S Q G} (h : Refines P M sys a) {i : Nat} {q : Q}
    {c : C} {l : Λ} {s s' : S} {r : R c} (hreq : sys.request i = some q) (hc : sys.awaiting i = some c)
    (he : M.exec l i c s = some (r, s')) : ∃ g g', a.phase i = some (q, g) ∧ P.step q i l c g s g' s' := by
  obtain ⟨t, ht, rfl⟩ := Option.map_eq_some_iff.1 hreq
  obtain ⟨g, hg, hsim⟩ := h.sim i t ht
  simp only [System.awaiting, ht, Option.bind_some] at hc
  cases hco : t.co with
  | done r => rw [hco] at hc; cases hc
  | await c' k =>
    rw [hco] at hc hsim
    cases hc
    obtain ⟨g', hs, -⟩ := hsim.2 l s r s' he
    exact ⟨g, g', hg, hs⟩

/-- A finished request is in a last phase. -/
theorem Refines.ends {sys : System C R S Q A} {a : Abs S Q G} (h : Refines P M sys a) {i : Nat}
    {t : Task C R Q A} {r : A} (ht : sys.tasks[i]? = some t) (hr : t.co.result = some r) :
    ∃ g, a.phase i = some (t.req, g) ∧ P.ends t.req g r := by
  obtain ⟨g, hg, -⟩ := h.sim i t ht
  obtain ⟨t', ht', -, -, he⟩ := h.waits hg
  rw [ht] at ht'
  cases ht'
  exact ⟨g, hg, he r hr⟩

/-- A request that arrives starts in the first phase. -/
theorem Refines.spawn {sys : System C R S Q A} {a : Abs S Q G} {q : Q}
    (hstart : ∀ i, Sim P M.exec q i (M.handler q) (P.start q) fun r g => P.ends q g r)
    (h : Refines P M sys a) : Refines P M { sys with tasks := sys.tasks ++ [⟨q, M.handler q⟩] }
      ⟨a.shared, Function.update a.phase sys.tasks.length (some (q, P.start q))⟩ := by
  refine ⟨h.shared, fun j t ht => ?_, fun j hj => ?_⟩
  · by_cases hjn : j = sys.tasks.length
    · subst hjn
      simp only [List.getElem?_append_right (Nat.le_refl _), Nat.sub_self, List.getElem?_cons_zero,
        Option.some.injEq] at ht
      subst ht
      exact ⟨P.start q, by simp, hstart _⟩
    · have hjl : j < sys.tasks.length := by
        have := (List.getElem?_eq_some_iff.1 ht).1
        simp only [List.length_append, List.length_singleton] at this
        omega
      rw [List.getElem?_append_left hjl] at ht
      obtain ⟨g, hg, hsim⟩ := h.sim j t ht
      exact ⟨g, by simp [Function.update_of_ne hjn, hg], hsim⟩
  · simp only [List.getElem?_eq_none_iff, List.length_append, List.length_singleton] at hj
    have hjn : j ≠ sys.tasks.length := by omega
    simp only [Function.update_of_ne hjn]
    exact h.fresh j (by simp; omega)

/-- **A step of the system is a step of the protocol.** -/
theorem Refines.step {sys sys' : System C R S Q A} {a : Abs S Q G} {l : Label Q Λ Ev}
    (hstart : ∀ i q, Sim P M.exec q i (M.handler q) (P.start q) fun r g => P.ends q g r)
    (h : Refines P M sys a) (hs : M.step sys l = some sys') :
    ∃ a', P.Step M.env a l (sys.callOf l) a' ∧ Refines P M sys' a' := by
  cases l with
  | env e =>
    simp only [Semantics.step] at hs
    obtain ⟨s', he, rfl⟩ := Option.map_eq_some_iff.1 hs
    exact ⟨_, .env (h.shared ▸ he), ⟨rfl, h.sim, h.fresh⟩⟩
  | spawn q =>
    simp only [Semantics.step, Option.some.injEq] at hs
    subst hs
    exact ⟨_, .spawn (h.fresh _ (by simp)), h.spawn fun i => hstart i q⟩
  | run l i =>
    obtain ⟨q, c, k, r, s', ht, he, rfl⟩ := step_run hs
    obtain ⟨g, hg, hw, hsim⟩ := h.sim i _ ht
    obtain ⟨g', hst, hk⟩ := hsim l _ r s' he
    have hc : sys.callOf (.run l i : Label Q Λ Ev) = some c := by
      simp [System.callOf, System.awaiting, ht]
    rw [hc]
    refine ⟨_, .run hg hw (h.shared ▸ hst), rfl, fun j t htj => ?_, fun j hj => ?_⟩
    · by_cases hji : j = i
      · subst hji
        rw [List.getElem?_set_self (List.getElem?_eq_some_iff.1 ht).1, Option.some.injEq] at htj
        subst htj
        exact ⟨g', by simp, hk⟩
      · rw [List.getElem?_set_ne (Ne.symm hji)] at htj
        obtain ⟨gj, hgj, hsj⟩ := h.sim j t htj
        exact ⟨gj, by simp [Function.update_of_ne hji, hgj], hsj⟩
    · have hji : j ≠ i := by
        rintro rfl
        have := (List.getElem?_eq_some_iff.1 ht).1
        simp only [List.getElem?_eq_none_iff, List.length_set] at hj
        omega
      simp only [Function.update_of_ne hji]
      exact h.fresh j (by simpa using hj)

/-- The invariant rule for properties that refer to the run so far. -/
theorem Run.invariant_along {Adm : System C R S Q A → Label Q Λ Ev → Prop}
    {I : System C R S Q A → Abs S Q G → Prop}
    (hstart : ∀ i q, Sim P M.exec q i (M.handler q) (P.start q) fun r g => P.ends q g r)
    {sys sys' : System C R S Q A}
    (hstep : ∀ sys₁ a l sys₂ a', Run M Adm sys sys₁ → Adm sys₁ l → M.step sys₁ l = some sys₂ →
      Refines P M sys₁ a → Refines P M sys₂ a' → I sys₁ a → P.Step M.env a l (sys₁.callOf l) a' → I sys₂ a')
    (hr : Run M Adm sys sys') {a : Abs S Q G} (ha : Refines P M sys a) (hI : I sys a) :
    ∃ a', Refines P M sys' a' ∧ I sys' a' := by
  induction hr with
  | refl => exact ⟨a, ha, hI⟩
  | step hr hp hs ih =>
    obtain ⟨a₁, ha₁, hI₁⟩ := ih
    obtain ⟨a₂, hst, ha₂⟩ := ha₁.step hstart hs
    exact ⟨a₂, ha₂, hstep _ _ _ _ _ hr hp hs ha₁ ha₂ hI₁ hst⟩

/-- The same rule for a run whose steps are known. -/
theorem Trace.invariant {Adm : System C R S Q A → Label Q Λ Ev → Prop}
    {I : List (Label Q Λ Ev) → Abs S Q G → Prop}
    (hstart : ∀ i q, Sim P M.exec q i (M.handler q) (P.start q) fun r g => P.ends q g r)
    {sys sys' : System C R S Q A} {ls : List (Label Q Λ Ev)}
    (hstep : ∀ ls sys₁ a l sys₂ a', Trace M Adm sys ls sys₁ → Adm sys₁ l → M.step sys₁ l = some sys₂ →
      Refines P M sys₁ a → Refines P M sys₂ a' → I ls a → P.Step M.env a l (sys₁.callOf l) a' →
      I (ls ++ [l]) a')
    (hr : Trace M Adm sys ls sys') {a : Abs S Q G} (ha : Refines P M sys a) (hI : I [] a) :
    ∃ a', Refines P M sys' a' ∧ I ls a' := by
  induction hr with
  | nil => exact ⟨a, ha, hI⟩
  | snoc hr hp hs ih =>
    obtain ⟨a₁, ha₁, hI₁⟩ := ih
    obtain ⟨a₂, hst, ha₂⟩ := ha₁.step hstart hs
    exact ⟨a₂, ha₂, hstep _ _ _ _ _ _ hr hp hs ha₁ ha₂ hI₁ hst⟩

/-- **The invariant rule**: what the protocol's steps keep holds after every run of the system whose
steps satisfy `Adm`. -/
theorem Run.invariant {Adm : System C R S Q A → Label Q Λ Ev → Prop} {I : Abs S Q G → Prop}
    (hstart : ∀ i q, Sim P M.exec q i (M.handler q) (P.start q) fun r g => P.ends q g r)
    (hstep : ∀ sys a l a', Refines P M sys a → Adm sys l → I a →
      P.Step M.env a l (sys.callOf l) a' → I a')
    {sys sys' : System C R S Q A} (hr : Run M Adm sys sys') {a : Abs S Q G}
    (ha : Refines P M sys a) (hI : I a) : ∃ a', Refines P M sys' a' ∧ I a' :=
  hr.invariant_along (I := fun _ a => I a) hstart
    (fun _ _ _ _ _ _ hp _ hv _ hI hs => hstep _ _ _ _ hv hp hI hs) ha hI

/-- A system that has received no request is described by a protocol state without phases. -/
theorem Refines.initial (s : S) : Refines P M ⟨s, []⟩ ⟨s, fun _ => none⟩ :=
  ⟨rfl, fun i t ht => by simp at ht, fun _ _ => rfl⟩

end

/-! ## Programs with exceptions -/

/-- A coroutine whose calls and body may raise `E`. -/
abbrev Prog (C : Type) (R : C → Type) (E α : Type) := ExceptT E (Coro C fun c => Except E (R c)) α

section

variable {C : Type} {R : C → Type} {S Q A Λ G E α β : Type}

/-- Await one call. -/
def call (c : C) : Prog C R E (R c) := ExceptT.mk (.await c .done)

/-- `Sim` for programs: `K` for a returned value, `X` for a raised exception. -/
def SimE (P : Protocol C S Q A Λ G)
    (exec : Λ → Nat → (c : C) → S → Option (Except E (R c) × S)) (q : Q) (i : Nat)
    (p : Prog C R E α) (g : G) (K : α → G → Prop) (X : E → G → Prop) : Prop :=
  Sim P exec q i p.run g fun r g => match r with
    | .ok a => K a g
    | .error e => X e g

namespace SimE

variable {P : Protocol C S Q A Λ G} {exec : Λ → Nat → (c : C) → S → Option (Except E (R c) × S)}
  {q : Q} {i : Nat} {g : G} {K : α → G → Prop} {L : β → G → Prop} {X Y : E → G → Prop}

theorem throw {e : E} (h : X e g) : SimE P exec q i (throw e : Prog C R E α) g K X := h

theorem mono {p : Prog C R E α} {K' : α → G → Prop} (h : SimE P exec q i p g K X)
    (hK : ∀ a g, K a g → K' a g) (hX : ∀ e g, X e g → Y e g) : SimE P exec q i p g K' Y :=
  Sim.mono h fun r g hr => by cases r with
    | ok a => exact hK a g hr
    | error e => exact hX e g hr

theorem bind {p : Prog C R E α} {f : α → Prog C R E β}
    (h : SimE P exec q i p g (fun a g' => SimE P exec q i (f a) g' L X) X) :
    SimE P exec q i (p >>= f) g L X :=
  Sim.bind (Sim.mono h fun r g hr => by cases r with
    | ok a => exact hr
    | error e => exact hr)

theorem map {p : Prog C R E α} {f : α → β} (h : SimE P exec q i p g (fun a g' => L (f a) g') X) :
    SimE P exec q i (f <$> p) g L X :=
  Sim.bind (Sim.mono h fun r g hr => by cases r with
    | ok a => exact hr
    | error e => exact hr)

theorem tryCatch {p : Prog C R E α} {f : E → Prog C R E α}
    (h : SimE P exec q i p g K fun e g' => SimE P exec q i (f e) g' K X) :
    SimE P exec q i (tryCatch p f) g K X :=
  Sim.bind (Sim.mono h fun r g hr => by cases r with
    | ok a => exact hr
    | error e => exact hr)

/-- One call: each outcome is a step of the protocol. -/
theorem call {c : C} {K : R c → G → Prop} (hw : P.waits q g c)
    (hok : ∀ l s a s', exec l i c s = some (.ok a, s') → ∃ g', P.step q i l c g s g' s' ∧ K a g')
    (herr : ∀ l s e s', exec l i c s = some (.error e, s') →
      ∃ g', P.step q i l c g s g' s' ∧ X e g') :
    SimE P exec q i (Async.call c) g K X :=
  ⟨hw, fun l s r s' h => by cases r with
    | ok a => exact hok l s a s' h
    | error e => exact herr l s e s' h⟩

end SimE

end

end Async
