import BusBookings.Proof.Addresses
import BusBookings.Proof.Answers

/-!
# Who may do what

The API gives nobody rights. A user is as the start or his registration left him, but for the direct changes
in the database since (`user_history`): a registration makes an active user who is no administrator, and no
request changes a user. A route was created by a user who was an active administrator while his request was
in flight, and who had been made one directly (`routes_by_admins`).
-/

namespace BusBookings

open Async ReadCommitted

/-- A user's row after direct changes. -/
def afterSteps (u : User) (ls : List Label) : User := ls.foldl (fun u l => onUser l u) u

/-- The row a registration makes. -/
def Registers (server : Server) (p : UserRegister) (salt : String) (u : User) : Prop :=
  u = ⟨u.id, p.email, server.hashpw salt p.password, p.username, p.firstName, p.lastName, true, .user⟩

def AdminUser (db : Db) (u : Int) : Prop :=
  ∃ user ∈ db.users.rows, user.id = u ∧ user.isActive = true ∧ user.role = .admin

section

variable (server : Server) (sys₀ : System)

/-- Where a user comes from: the steps until he was there, and his row then. -/
inductive Origin (ls : List Label) : User → Prop
  | start {u : User} : u ∈ sys₀.shared.db.users.rows → ls = [] → Origin ls u
  | registered {u : User} {sys : System} {i : Nat} {p : UserRegister} {salt : String} :
      (semantics server).steps sys₀ ls = some sys → sys.request i = some (.register p salt) →
      sys.answer i = some (.user (.ofUser u)) → Registers server p salt u → Origin ls u

/-- A user's row is that of his origin, but for direct changes. -/
def History (ls : List Label) (u : User) : Prop :=
  ∃ ls₁ ls₂ u₀, ls = ls₁ ++ ls₂ ∧ Origin server sys₀ ls₁ u₀ ∧ u = afterSteps u₀ ls₂

/-- The users of a run with their histories, the users about to be registered, the administrators who create
routes, and the routes. -/
structure Rights (ls : List Label) (a : Abs World Request Stage) : Prop where
  users : ∀ u ∈ a.shared.db.users.rows, History server sys₀ ls u
  registering : ∀ i p salt g u, a.phase i = some (.register p salt, g) → .insertUser u ∈ g.writes →
    Registers server p salt u
  admins : ∀ i u p g, a.phase i = some (.createRoute u p, g) → g.Passed →
    (semantics server).Once sys₀ (fun _ sys =>
      InFlight sys i (.createRoute u p) ∧ AdminUser sys.shared.db u) ls
  routes : ∀ r ∈ a.shared.db.routes.rows, ∃ i u p,
    a.phase i = some (.createRoute u p, .ended (.route (.ofRoute r))) ∧ Drafted server p r

end

section

variable {server : Server} {sys₀ sys sys' : System} {ls : List Label} {a a' : Abs World Request Stage}
  {i : Nat} {q : Request} {g g' : Stage} {w w' : World} {o : Outcome} {c : Call} {l : Label}
  {call : Option Call} {u : User}

/-! ## Direct changes -/

theorem afterSteps_append (u : User) (ls ls' : List Label) :
    afterSteps u (ls ++ ls') = afterSteps (afterSteps u ls) ls' := List.foldl_append

/-- An administrator was one before, or is made one. -/
theorem role_onUser (h : (onUser l u).role = .admin) : u.role = .admin ∨ l = .env (.setRole u.id .admin) := by
  unfold onUser at h
  split at h
  · split at h <;> exact .inl h
  · split at h
    · rename_i hid
      cases h
      exact .inr (by rw [hid])
    · exact .inl h
  · exact .inl h

@[simp] theorem afterSteps_id (u : User) (ls : List Label) : (afterSteps u ls).id = u.id := by
  induction ls generalizing u with
  | nil => rfl
  | cons l ls ih => exact (ih _).trans (onUser_id l u)

theorem role_afterSteps (h : (afterSteps u ls).role = .admin) :
    u.role = .admin ∨ .env (.setRole u.id .admin) ∈ ls := by
  induction ls generalizing u with
  | nil => exact .inl h
  | cons l ls ih =>
    rcases ih h with hrole | hmem
    · exact (role_onUser hrole).imp_right fun hl => by simp [hl]
    · rw [onUser_id] at hmem
      exact .inr (List.mem_cons_of_mem _ hmem)

theorem History.snoc (h : History server sys₀ ls u) (l : Label) :
    History server sys₀ (ls ++ [l]) (onUser l u) := by
  obtain ⟨ls₁, ls₂, u₀, rfl, horigin, rfl⟩ := h
  exact ⟨ls₁, ls₂ ++ [l], u₀, List.append_assoc .., horigin, by rw [afterSteps_append]; rfl⟩

/-! ## One step -/

/-- A row of the users after a step is one from before, changed directly, or that of a registration. -/
theorem Inv.user_step (hinv : Inv server a) (hs : (protocol server).Step envStep a l call a')
    (hu : u ∈ a'.shared.db.users.rows) : (∃ u₀ ∈ a.shared.db.users.rows, u = onUser l u₀) ∨
      ∃ i p salt, a.phase i = some (.register p salt, .closing (.register u)) ∧
        a'.phase i = some (.register p salt, .ended (.user (.ofUser u))) := by
  cases hs with
  | env he =>
    rename_i e w'
    cases e with
    | expire key =>
      cases he
      exact .inl ⟨u, hu, rfl⟩
    | setActive id isActive | setRole id role =>
      cases he
      obtain ⟨u₀, hu₀, rfl⟩ := List.mem_map.1 hu
      exact .inl ⟨u₀, hu₀, rfl⟩
  | spawn hi => exact .inl ⟨u, hu, rfl⟩
  | run hi hw hst =>
    rename_i o i q g g' c w'
    by_cases hend : ∃ resp, g' = .ended resp
    · obtain ⟨resp, rfl⟩ := hend
      rcases hst.ended with ⟨j, rfl, rfl, rfl⟩ | ⟨e, e', -, -, rfl⟩
      · cases j with
        | register u' =>
          obtain ⟨p, salt, rfl, -⟩ := (hinv.facts i _ _ hi : (Job.register u').Facts server _ q)
          replace hu : u ∈ (a.shared.commit i).db.users.rows := hu
          rw [(hinv.commit_register hi).1, List.mem_append, List.mem_singleton] at hu
          rcases hu with hu | rfl
          · exact .inl ⟨u, hu, rfl⟩
          · exact .inr ⟨i, p, salt, hi, by simp; rfl⟩
        | _ =>
          have hview : (a.shared.commit i).db = _ := hinv.view hi (by simp)
          replace hu : u ∈ (a.shared.commit i).db.users.rows := hu
          rw [hview] at hu
          first
          | exact .inl ⟨u, hu, rfl⟩
          | (rename_i b free
             cases free <;> exact .inl ⟨u, hu, rfl⟩)
      · exact .inl ⟨u, hu, rfl⟩
    · rw [show w'.db = a.shared.db from hst.db_eq (hinv.ne_lost hi) (not_exists.1 hend)] at hu
      exact .inl ⟨u, hu, rfl⟩

/-- A route after a step was there before, or its creation is answered. -/
theorem Inv.route_step (hinv : Inv server a) (hs : (protocol server).Step envStep a l call a') {r : Route}
    (hr : r ∈ a'.shared.db.routes.rows) : r ∈ a.shared.db.routes.rows ∨ ∃ i u p,
      a'.phase i = some (.createRoute u p, .ended (.route (.ofRoute r))) ∧ Drafted server p r := by
  cases hs with
  | env he =>
    rename_i e w'
    cases e <;> cases he <;> exact .inl hr
  | spawn hi => exact .inl hr
  | run hi hw hst =>
    rename_i o i q g g' c w'
    by_cases hend : ∃ resp, g' = .ended resp
    · obtain ⟨resp, rfl⟩ := hend
      rcases hst.ended with ⟨j, rfl, rfl, rfl⟩ | ⟨e, e', -, -, rfl⟩
      · have hview : (a.shared.commit i).db = _ := hinv.view hi (by simp)
        replace hr : r ∈ (a.shared.commit i).db.routes.rows := hr
        cases j with
        | route r' first =>
          obtain ⟨u, p, rfl, hdraft⟩ := (hinv.facts i _ _ hi : (Job.route r' first).Facts server _ q)
          rw [hview] at hr
          rcases Table.mem_of_mem_insert (t := a.shared.db.routes) hr with hr | rfl
          · exact .inl hr
          · exact .inr ⟨i, u, p, by simp; rfl, hdraft⟩
        | create b route => exact .inl ((hinv.commit_create hi).2.1 ▸ hr)
        | cancel b free => exact .inl ((hinv.commit_cancel hi).2.1 ▸ hr)
        | register u => rw [hview] at hr; exact .inl hr
        | read resp => rw [hview] at hr; exact .inl hr
      · exact .inl hr
    · rw [show w'.db = a.shared.db from hst.db_eq (hinv.ne_lost hi) (not_exists.1 hend)] at hr
      exact .inl hr

/-- Only an active administrator passes the check of `create_route`. -/
theorem Step.admin {u : Int} {p : RouteCreate} (hinv : Inv server a)
    (hi : a.phase i = some (.createRoute u p, g)) (hw : Waits (.createRoute u p) g c)
    (hs : Step server (.createRoute u p) i o c g a.shared g' w') (hg' : g'.Passed) :
    g.Passed ∨ AdminUser a.shared.db u := by
  cases g with
  | start =>
    refine .inr ?_
    cases hs with
    | fail => exact hg'.elim
    | read hr =>
      cases hr with
      | again ha => cases ha
      | lost hno hex => obtain ⟨_, _, ha⟩ := hex; cases ha
      | admin =>
        rw [hinv.view hi (by simp)] at hg'
        unfold adminCheck at hg'
        split at hg'
        · exact hg'.elim
        · rename_i user hfound
          obtain ⟨hmem, hid⟩ := Table.find?_eq_some.1 hfound
          split at hg'
          · exact hg'.elim
          · rename_i hactive
            split at hg'
            · exact hg'.elim
            · rename_i hrole
              exact ⟨user, hmem, hid, by simpa using hactive, not_not.1 hrole⟩
    | write hwr => cases hwr
    | writeFails hwr => cases hwr
    | cachedRoutes hq | cachedSeats hq => cases hq
  | failing e =>
    obtain ⟨e', -, rfl⟩ := hs.of_failing hw
    cases e' <;> cases hg'
  | ended resp => exact absurd hw not_waits_ended
  | _ => exact .inl trivial

theorem Rights.step (h : Rights server sys₀ ls a) (hinv : Inv server a) (hv : View server sys a)
    (hv' : View server sys' a') (hsteps : (semantics server).steps sys₀ ls = some sys)
    (hstep : (semantics server).step sys l = some sys')
    (hs : (protocol server).Step envStep a l call a') : Rights server sys₀ (ls ++ [l]) a' := by
  refine ⟨fun u hu => ?_, fun i p salt g u hi hu => ?_, fun i u p g hi hpassed => ?_, fun r hr => ?_⟩
  · rcases hinv.user_step hs hu with ⟨u₀, hu₀, rfl⟩ | ⟨i, p, salt, hi, hi'⟩
    · exact (h.users u₀ hu₀).snoc l
    · have hregisters := h.registering i p salt _ u hi (by simp [Stage.writes, Job.writes])
      have hsteps' : (semantics server).steps sys₀ (ls ++ [l]) = some sys' := by
        rw [Semantics.steps_append, hsteps]
        exact Semantics.steps_one hstep
      exact ⟨ls ++ [l], [], u, (List.append_nil _).symm, .registered hsteps' (hv'.request hi')
        ((answer_iff hv' (hinv.step hs)).2 ⟨_, hi'⟩) hregisters, rfl⟩
  · rcases hs.phase_eq hi with hold | ⟨-, -, rfl⟩ | ⟨o, c, g₀, -, -, hi₀, -, hst⟩
    · exact h.registering i p salt g u hold hu
    · cases hu
    · rcases hst.mem_writes ((hinv.step hs).ne_lost hi) (hinv.facts i _ _ hi₀) hu with hu | ⟨hw, -⟩
      · exact h.registering i p salt g₀ u hi₀ hu
      · cases hw with
        | insertUser hrow hnew => rw [hnew]; rfl
  · rcases hs.phase_eq hi with hold | ⟨-, -, rfl⟩ | ⟨o, c, g₀, -, -, hi₀, hw, hst⟩
    · exact (h.admins i u p g hold hpassed).append _
    · exact hpassed.elim
    · rcases Step.admin hinv hi₀ hw hst hpassed with hpassed₀ | hadmin
      · exact (h.admins i u p g₀ hi₀ hpassed₀).append _
      · have hfly := inFlight_of_phase hv hinv hi₀ fun resp he => by
          subst he
          exact hw
        exact (Semantics.Once.now hsteps ⟨⟨hv.request hi₀, hfly.2⟩, hv.shared ▸ hadmin⟩).append _
  · rcases hinv.route_step hs hr with hold | hnew
    · obtain ⟨i, u, p, hi, hdraft⟩ := h.routes r hold
      exact ⟨i, u, p, hs.phase_keep hi fun _ => id, hdraft⟩
    · exact hnew

theorem rights (h₀ : Start sys₀) (h : (semantics server).steps sys₀ ls = some sys) :
    ∃ a, View server sys a ∧ Inv server a ∧ Rights server sys₀ ls a := by
  obtain ⟨users, nextUser, hu, hemails, rfl⟩ := h₀
  refine Trace.invariant (I := fun ls a => Inv server a ∧ Rights server _ ls a) handler_sim
    (fun ls sys₁ a l sys₂ a' htr _ hstep hv hv' ⟨hinv, hI⟩ hs =>
      ⟨hinv.step hs, hI.step hinv hv hv' htr.steps hstep hs⟩) (Trace.of_steps h) (Refines.initial _)
    ⟨inv_start hu, fun u hmem => ⟨[], [], u, rfl, .start hmem rfl, rfl⟩, fun i p salt g u hi => (by cases hi),
      fun i u p g hi => (by cases hi), fun r hr => by cases hr⟩

/-! ## Users and routes -/

/-- **Only direct changes change a user**: his row is that of the start or of his registration, as an active
user who is no administrator, but for the direct changes since then. -/
theorem user_history (h₀ : Start sys₀) (h : (semantics server).steps sys₀ ls = some sys)
    (hu : u ∈ sys.shared.db.users.rows) :
    ∃ ls₁ ls₂ u₀, ls = ls₁ ++ ls₂ ∧ Origin server sys₀ ls₁ u₀ ∧ u = afterSteps u₀ ls₂ := by
  obtain ⟨a, hv, -, hrights⟩ := rights h₀ h
  exact hrights.users u (hv.shared ▸ hu)

/-- Cid registers, and is then made an administrator. -/
theorem user_history_cid : ∃ ls sys u,
    ls = .spawn (.register (someAccount "cid@bus.com" "password123" (by decide)) "salt") :: calls 0 4 ++
      [.env (.setRole 4 .admin)] ∧ runSome ls = some sys ∧ u ∈ sys.shared.db.users.rows ∧ u.role = .admin ∧
    ∃ ls₁ ls₂ u₀, ls = ls₁ ++ ls₂ ∧ Origin plainServer someStart ls₁ u₀ ∧ u = afterSteps u₀ ls₂ := by
  obtain ⟨sys, hsys, hlast⟩ := exists_runSome
    (.spawn (.register (someAccount "cid@bus.com" "password123" (by decide)) "salt") :: calls 0 4 ++
      [.env (.setRole 4 .admin)])
    (fun sys => sys.shared.db.users.rows.getLast?.any (·.id = 4) = true ∧
      sys.shared.db.users.rows.getLast?.any (·.role = .admin) = true) (by decide +kernel)
  obtain ⟨u, hu, hid⟩ := (Option.any_eq_true _ _).1 hlast.1
  have hmem := List.mem_of_getLast? hu
  have hrole : u.role = .admin := by simpa [hu] using hlast.2
  exact ⟨_, sys, u, rfl, hsys, hmem, hrole, user_history start_someStart hsys hmem⟩

/-- An administrator was one at the start, or has been made one. -/
theorem Origin.admin (h : Origin server sys₀ ls u) (hrole : u.role = .admin) :
    u ∈ sys₀.shared.db.users.rows := by
  cases h with
  | start hmem => exact hmem
  | registered _ _ _ hregisters =>
    rw [hregisters] at hrole
    cases hrole

/-- **Routes are created by administrators**: each was answered to the request of a user who was an active
administrator while it was in flight, and who was an administrator at the start or had been made one
directly. -/
theorem routes_by_admins (h₀ : Start sys₀) (h : (semantics server).steps sys₀ ls = some sys) {r : Route}
    (hr : r ∈ sys.shared.db.routes.rows) : ∃ i u p, sys.request i = some (.createRoute u p) ∧
      sys.answer i = some (.route (.ofRoute r)) ∧ Drafted server p r ∧
      (semantics server).Once sys₀ (fun ls₁ sys₁ => InFlight sys₁ i (.createRoute u p) ∧
        AdminUser sys₁.shared.db u ∧ ((∃ u₀ ∈ sys₀.shared.db.users.rows, u₀.id = u ∧ u₀.role = .admin) ∨
          .env (.setRole u .admin) ∈ ls₁)) ls := by
  obtain ⟨a, hv, hinv, hrights⟩ := rights h₀ h
  obtain ⟨i, u, p, hi, hdraft⟩ := hrights.routes r (hv.shared ▸ hr)
  refine ⟨i, u, p, hv.request hi, (answer_iff hv hinv).2 ⟨_, hi⟩, hdraft, ?_⟩
  refine (hrights.admins i u p _ hi rfl).imp fun ls₁ sys₁ hs₁ ⟨hfly, hadmin⟩ => ⟨hfly, hadmin, ?_⟩
  obtain ⟨user, hmem, rfl, -, hrole⟩ := hadmin
  obtain ⟨a₁, hv₁, -, hrights₁⟩ := rights h₀ hs₁
  obtain ⟨ls₂, ls₃, u₀, rfl, horigin, rfl⟩ := hrights₁.users user (hv₁.shared ▸ hmem)
  rw [afterSteps_id]
  rcases role_afterSteps hrole with hrole₀ | hset
  · exact .inl ⟨u₀, horigin.admin hrole₀, rfl, hrole₀⟩
  · exact .inr (List.mem_append_right _ hset)

end

/-- Route 1 was created by the administrator 1. -/
theorem routes_by_admins_first : ∃ sys r, runSome routeCreated = some sys ∧ r ∈ sys.shared.db.routes.rows ∧
    ∃ i u p, sys.request i = some (.createRoute u p) ∧ sys.answer i = some (.route (.ofRoute r)) := by
  obtain ⟨sys, hsys, hlen⟩ := exists_runSome routeCreated (fun sys => sys.shared.db.routes.rows.length = 1)
    (by decide +kernel)
  obtain ⟨r, hr⟩ := List.exists_mem_of_length_pos (l := sys.shared.db.routes.rows) (by omega)
  obtain ⟨i, u, p, hreq, hans, -⟩ := routes_by_admins start_someStart hsys hr
  exact ⟨sys, r, hsys, hr, i, u, p, hreq, hans⟩

end BusBookings
