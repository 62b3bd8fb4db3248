import BusBookings.Proof.Cache

/-!
# Any endpoint in a session

`get_db` around any code that leaves its transaction to it (`Scoped`), in any interleaving of any number of
such requests: the committed database changes only with the commit of a request, which is answered with what
its code returns and has then made all its changes at once; a request that raises has changed nothing, and
one that is over has nothing left to commit and holds no locks (`getDb_atomic`). The endpoints of the
application are such code (`endpoint_scoped`).
-/

namespace BusBookings

open Async ReadCommitted

/-- Calls other than the end of a transaction. -/
def Call.scoped : Call → Bool
  | .commit | .rollback => false
  | _ => true

/-- The code leaves its transaction to `get_db`. -/
def Scoped {α : Type} (x : SessionM α) : Prop := ∀ σ, Coro.Only (·.scoped = true) (x.run σ).run

/-! ## Code that is scoped -/

namespace Scoped

variable {α β : Type}

theorem pure {a : α} : Scoped (pure a) := fun _ => trivial

theorem throw {e : Exc} : Scoped (throw e : SessionM α) := fun _ => trivial

theorem bind {x : SessionM α} {f : α → SessionM β} (h : Scoped x) (hf : ∀ a, Scoped (f a)) :
    Scoped (x >>= f) := fun σ => Coro.Only.bind (h σ) fun r => match r with
  | .ok p => hf p.1 p.2
  | .error _ => trivial

theorem map {x : SessionM α} {f : α → β} (h : Scoped x) : Scoped (f <$> x) :=
  bind (f := fun a => Pure.pure (f a)) h fun _ => pure

theorem await {c : Call} (hc : c.scoped = true) : Scoped (BusBookings.await c) :=
  fun _ => ⟨hc, fun r => match r with
    | .ok _ => trivial
    | .error _ => trivial⟩

theorem modify {f : Session → Session} : Scoped (modify f) := fun _ => trivial

theorem get : Scoped (get : SessionM Session) := fun _ => trivial

theorem forM {ρ : Type} {f : ρ → SessionM PUnit} (h : ∀ a, Scoped (f a)) (l : List ρ) :
    Scoped (l.forM f) := by
  induction l with
  | nil => exact pure
  | cons a l ih => exact bind (h a) fun _ => ih

theorem raiseIf {cond : Bool} {statusCode : Nat} {detail : String} :
    Scoped (BusBookings.raiseIf cond statusCode detail) := by
  cases cond with
  | true => exact throw
  | false => exact pure

end Scoped

theorem flush_scoped : Scoped Session.flush :=
  .bind .get fun _ => .bind (.forM (fun _ => .await rfl) _) fun _ =>
    .bind (.forM (fun _ => .await rfl) _) fun _ => .modify

theorem selectSeat_scoped {seatId : Int} : Scoped (Session.selectSeat seatId) :=
  .bind (.await rfl) fun row => by
    cases row with
    | none => exact .pure
    | some row => exact fun _ => trivial

theorem selectBooking_scoped {bookingId : Int} : Scoped (Session.selectBooking bookingId) :=
  .bind (.await rfl) fun row => by
    cases row with
    | none => exact .pure
    | some row => exact fun _ => trivial

theorem refreshBooking_scoped {bookingId : Int} : Scoped (Session.refreshBooking bookingId) :=
  .bind (.await rfl) fun row => by
    cases row with
    | none => exact .throw
    | some row => exact .bind .modify fun _ => .pure

theorem deletePattern_scoped {pattern : String} : Scoped (CacheService.deletePattern pattern) :=
  .bind (.await rfl) fun keys => by
    cases List.isEmpty keys with
    | true => exact .pure
    | false => exact .await rfl

theorem mark_scoped {isBooked : Bool} {seatId : Int} : Scoped (SeatRepository.mark isBooked seatId) :=
  .bind selectSeat_scoped fun seat => by
    split
    · exact .modify
    · exact .pure

theorem updateStatus_scoped {bookingId : Int} {status : BookingStatus} :
    Scoped (BookingRepository.updateStatus bookingId status) :=
  .bind selectBooking_scoped fun b => by
    split
    · exact .pure
    · exact .bind .modify fun _ => .bind flush_scoped fun _ => .map refreshBooking_scoped

theorem createBooking_scoped {u r s : Int} : Scoped (BookingService.createBooking u r s) := by
  refine .bind (.await rfl) fun route => ?_
  split
  · refine .bind .raiseIf fun _ => .bind selectSeat_scoped fun seat => ?_
    split
    · refine .bind .raiseIf fun _ => .bind .raiseIf fun _ =>
        .bind (.bind flush_scoped fun _ => .bind (.await rfl) fun _ => refreshBooking_scoped) fun b =>
          .bind mark_scoped fun _ => .bind updateStatus_scoped fun b' => ?_
      split
      · exact .bind deletePattern_scoped fun _ => .bind (.await rfl) fun _ =>
          .bind (.await rfl) fun _ => .pure
      · exact .throw
    · exact .throw
  · exact .throw

theorem cancelBooking_scoped {u id : Int} : Scoped (BookingService.cancelBooking id u) := by
  refine .bind selectBooking_scoped fun b => ?_
  split
  · refine .bind .raiseIf fun _ => .bind .raiseIf fun _ => .bind updateStatus_scoped fun b' => ?_
    split
    · exact .bind mark_scoped fun _ => .bind deletePattern_scoped fun _ => .bind (.await rfl) fun _ =>
        .bind (.await rfl) fun _ => .pure
    · exact .throw
  · exact .throw

theorem register_scoped {server : Server} {p : UserRegister} {salt : String} :
    Scoped (register server p salt) :=
  .bind (.await rfl) fun _ => .bind .raiseIf fun _ => .bind (.bind (.await rfl) fun _ =>
    .bind (.await rfl) fun user => by
      split
      · exact .throw
      · exact .pure) fun _ => .pure

theorem login_scoped {server : Server} {username password : String} :
    Scoped (login server username password) :=
  .bind (.await rfl) fun user => by
    split
    · exact .bind .raiseIf fun _ => .bind .raiseIf fun _ => .pure
    · exact .throw

theorem getCurrentAdminUser_scoped {u : Int} : Scoped (getCurrentAdminUser u) :=
  .bind (.await rfl) fun user => by
    split
    · exact .bind .raiseIf fun _ => .raiseIf
    · exact .throw

theorem routeCreate_scoped {row : NewRoute} : Scoped (RouteRepository.create row) :=
  .bind (.await rfl) fun _ => .bind (.await rfl) fun route => by
    split
    · exact .throw
    · rename_i route
      cases (RouteRepository.seatNumbers route.totalSeats).isEmpty with
      | true => exact .pure
      | false => exact .bind (.await rfl) fun _ => .pure

theorem createRoute_scoped {u : Int} {p : RouteCreate} : Scoped (createRoute u p) :=
  .bind getCurrentAdminUser_scoped fun _ => by
    split
    · split
      · exact .bind routeCreate_scoped fun _ => .bind deletePattern_scoped fun _ => .pure
      · exact .throw
    · exact .throw

theorem orCached_scoped {α : Type} {key : String} {ofJson? : Json → Option α} {resp : α → Response}
    {rest : SessionM Response} (h : Scoped rest) : Scoped (orCached key ofJson? resp rest) :=
  .bind (.await rfl) fun entry => by
    split
    · split
      · exact .pure
      · exact .throw
    · exact h

/-- **The endpoints leave their transactions to `get_db`.** -/
theorem endpoint_scoped (server : Server) (q : Request) : Scoped (endpoint server q) := by
  cases q with
  | register p salt => exact register_scoped
  | login username password => exact login_scoped
  | createRoute u p => exact createRoute_scoped
  | listRoutes q =>
    exact orCached_scoped (.bind (.bind (.await rfl) fun _ => .bind (.await rfl) fun _ => .pure) fun _ =>
      .bind (.await rfl) fun _ => .pure)
  | listSeats r => exact orCached_scoped (.bind (.await rfl) fun _ => .bind (.await rfl) fun _ => .pure)
  | createBooking u r s => exact .map createBooking_scoped
  | myBookings u => exact .map (.await rfl)
  | cancelBooking u id => exact .map cancelBooking_scoped

/-! ## The protocol of a transaction -/

inductive Transaction where
  | working
  | committed
  | rolledBack

/-- What a call of a request in a session does. -/
inductive Transaction.Step (server : Server) (i : Nat) :
    Outcome → Call → Transaction → World → Transaction → World → Prop
  | call {o : Outcome} {c : Call} {r : Except Exc (Reply c)} {w w' : World} : c.scoped = true →
      exec server o i c w = some (r, w') → Step server i o c .working w .working w'
  | commit {w : World} : Step server i .ok .commit .working w .committed (w.commit i)
  | commitFails {w : World} : Step server i .fail .commit .working w .working w
  | rollback {o : Outcome} {w : World} : Step server i o .rollback .working w .rolledBack (w.rollback i)

/-- The answers of a transaction: what its code returns, or the exception it raises. -/
def Transaction.Ends {α : Type} (g : Transaction) : Except Exc α → Prop
  | .ok _ => g = .committed
  | .error _ => g = .rolledBack

section

variable {Q α : Type}

def transactions (server : Server) (Q α : Type) :
    Protocol Call World Q (Except Exc α) Outcome Transaction where
  start _ := .working
  waits _ g _ := g = .working
  step _ := Transaction.Step server
  ends _ := Transaction.Ends

/-- Requests of any kind, the code of each in a session. -/
def sessions (server : Server) (body : Q → SessionM α) :
    Semantics Call (fun c => Except Exc (Reply c)) World Q (Except Exc α) Outcome EnvEvent where
  handler q := (getDb (body q)).run
  exec := exec server
  env := envStep

variable {server : Server} {body : Q → SessionM α} {i : Nat} {q : Q}

/-- Scoped code works on, whether it returns or raises. -/
theorem Scoped.sim {β : Type} {x : SessionM β} (h : Scoped x) (σ : Session) :
    SimE (transactions server Q α) (exec server) q i (x.run σ) .working
      (fun _ g => g = .working) fun _ g => g = .working :=
  Sim.mono (Sim.of_only (h σ) fun c hc => ⟨rfl, fun _ _ _ _ he => .call hc he⟩) fun r g hg => by
    cases r <;> exact hg

/-- **`get_db` ends a transaction once**, with its commit or its rollback. -/
theorem getDb_transaction (hbody : Scoped (body q)) :
    Sim (transactions server Q α) (exec server) q i (getDb (body q)).run .working
      fun r g => g.Ends r := by
  have hcommit (a : α) (σ : Session) : SimE (transactions server Q α) (exec server) q i
      ((do Session.commit; return a : SessionM α).run σ) .working (fun _ g => g = .committed)
      fun _ g => g = .working := by
    refine SimE.bind (SimE.bind (SimE.mono (flush_scoped.sim σ) (fun p g hg => ?_) fun _ _ => id))
    subst hg
    refine SimE.bind (SimE.call rfl (fun o w r w' he => ?_) fun o w e w' he => ?_)
    · cases o <;> cases he
      exact ⟨_, .commit, rfl⟩
    · cases o <;> cases he
      exact ⟨_, .commitFails, rfl⟩
  have hrollback (e : Exc) : SimE (transactions server Q α) (exec server) q i
      (do Async.call Call.rollback; throw e : Prog α) .working (fun _ g => g = .committed)
      fun _ g => g = .rolledBack := by
    refine SimE.bind (SimE.call rfl (fun o w r w' he => ?_) fun o w e' w' he => ?_)
    · cases o <;> cases he
      exact ⟨_, .rollback, rfl⟩
    · cases o <;> cases he
      exact ⟨_, .rollback, rfl⟩
  have hdb : SimE (transactions server Q α) (exec server) q i (getDb (body q)) .working
      (fun _ g => g = .committed) fun _ g => g = .rolledBack := by
    refine SimE.tryCatch (SimE.map (SimE.bind (SimE.mono (hbody.sim {}) (fun p g hg => ?_) fun e g hg => ?_)))
    · subst hg
      exact SimE.mono (hcommit p.1 p.2) (fun _ _ => id) fun e g hg => hg ▸ hrollback e
    · exact hg ▸ hrollback e
  exact Sim.mono hdb fun r g hg => by cases r <;> exact hg

/-! ## Runs -/

/-- What a call does to the transactions: it changes nothing that is committed, nor what others have made. -/
theorem exec_scoped {server : Server} {o : Outcome} {c : Call} {w w' : World} {r : Except Exc (Reply c)}
    (h : exec server o i c w = some (r, w')) (hc : c.scoped = true) :
    w'.db = w.db ∧ ∀ j, j ≠ i → w'.pg.own j = w.pg.own j := by
  have hchange (w₀ : World) {w' : World} {ch : Change} {r : Except Exc Unit} (hw₀ : w₀.pg = w.pg)
      (h : w₀.change i ch = some (r, w')) : w'.db = w.db ∧ ∀ j, j ≠ i → w'.pg.own j = w.pg.own j := by
    cases r with
    | ok u =>
      obtain ⟨hb, -, rfl⟩ := change_ok h
      exact ⟨by simp [World.db, hw₀], fun j hj => by rw [Store.own_write_ne _ _ hj, hw₀]⟩
    | error e =>
      obtain ⟨-, -, rfl⟩ := change_error h
      exact ⟨by simp [World.db, hw₀], fun j _ => by rw [hw₀]⟩
  have hinsert (w₀ : World) {w' : World} {ch : Change} {id : Int} {r : Except Exc Int} (hw₀ : w₀.pg = w.pg)
      (h : w₀.insert i ch id = some (r, w')) : w'.db = w.db ∧ ∀ j, j ≠ i → w'.pg.own j = w.pg.own j := by
    obtain ⟨⟨r', w''⟩, hch, heq⟩ := Option.map_eq_some_iff.1 h
    cases heq
    exact hchange w₀ hw₀ hch
  cases o with
  | fail =>
    rw [exec_fail (by rintro rfl; cases hc)] at h
    cases h
    exact ⟨rfl, fun _ _ => rfl⟩
  | ok =>
    cases c with
    | commit | rollback => cases hc
    | insertUser row => exact hinsert (w.bump (.insertUser row)) rfl h
    | insertRoute row => exact hinsert (w.bump (.insertRoute row)) rfl h
    | insertBooking row => exact hinsert (w.bump (.insertBooking row)) rfl h
    | insertSeats routeId ns => exact hchange (w.bump (.insertSeats routeId ns)) rfl h
    | updateSeat | updateBooking => exact hchange w rfl h
    | _ => cases h; exact ⟨rfl, fun _ _ => rfl⟩

/-- A request that is not at work has no uncommitted changes. -/
def Closed (a : Abs World Q Transaction) : Prop :=
  ∀ i, (∀ q, a.phase i ≠ some (q, .working)) → a.shared.pg.own i = []

theorem envStep_own {e : EnvEvent} {w w' : World} (h : envStep e w = some w') (i : Nat) :
    w'.pg.own i = w.pg.own i := by
  cases e <;> cases h <;> rfl

theorem Closed.step {a a' : Abs World Q Transaction} {l : Async.Label Q Outcome EnvEvent}
    {call : Option Call} (h : Closed a)
    (hs : (transactions server Q α).Step envStep a l call a') : Closed a' := by
  intro j hj
  cases hs with
  | env he => exact (envStep_own he j).trans (h j hj)
  | spawn hi =>
    rename_i i q
    refine h j fun q' hq' => hj q' ?_
    have hne : j ≠ i := by
      rintro rfl
      rw [hi] at hq'
      cases hq'
    simpa [Function.update_of_ne hne] using hq'
  | run hi hw hst =>
    rename_i o i q g g' c w'
    by_cases hji : j = i
    · subst hji
      cases hst with
      | call => exact absurd (by simp) (hj q)
      | commitFails => exact absurd (by simp) (hj q)
      | commit => exact Store.own_commit_self _ _
      | rollback => exact Store.own_rollback_self _ _
    · have hold : a.shared.pg.own j = [] := h j fun q' hq' => hj q' (by
        simpa [Function.update_of_ne hji] using hq')
      cases hst with
      | call hc he => exact ((exec_scoped he hc).2 j hji).trans hold
      | commitFails => exact hold
      | commit => exact (Store.own_commit_ne _ _ hji).trans hold
      | rollback => exact (Store.own_rollback_ne _ _ hji).trans hold

variable {w : World} {ls : List (Async.Label Q Outcome EnvEvent)} {l : Async.Label Q Outcome EnvEvent}
  {sys sys' : Async.System Call (fun c => Except Exc (Reply c)) World Q (Except Exc α)}

/-- What `get_db` answers is what its code has returned. -/
theorem getDb_took {x : SessionM α} {rs : List ((c : Call) × Except Exc (Reply c))} {a : α}
    (h : (getDb x).run.Took rs (.done (.ok a))) : ∃ rs₁ σ, rs₁ <+: rs ∧ (x.run {}).run.Took rs₁ (.done (.ok (a, σ))) := by
  -- the handler raises again
  obtain ⟨rs₁, rs₂, r, rfl, h₁, hr⟩ := Coro.Took.of_bind h
  cases r with
  | error e =>
    obtain ⟨_, _, r, -, -, hraise⟩ := Coro.Took.of_bind hr
    cases r <;> cases hraise
  | ok a' =>
    obtain rfl : a' = a := by cases hr; rfl
    obtain ⟨rs₃, rs₄, r, rfl, h₂, hr⟩ := Coro.Took.of_bind h₁
    cases r with
    | error e => cases hr
    | ok p =>
      obtain rfl : p.1 = a' := by cases hr; rfl
      obtain ⟨rs₅, rs₆, r, rfl, h₃, hr⟩ := Coro.Took.of_bind h₂
      cases r with
      | error e => cases hr
      | ok p' =>
        -- the commit comes after what the code returned
        obtain ⟨_, _, r, -, -, hreturn⟩ := Coro.Took.of_bind hr
        cases r with
        | error e => cases hreturn
        | ok u =>
          have hp : p'.1 = p.1 := by cases hreturn; rfl
          refine ⟨rs₅, p'.2, ⟨rs₆ ++ rs₄ ++ rs₂, by simp⟩, ?_⟩
          rw [← hp]
          exact h₃

/-- **A session is all or nothing, whatever its endpoint does**: in any run of any such requests, one that is
over has no uncommitted changes, one that is answered with a value has it from its code, which returned it
after the replies that it got, and the committed database changes only when a request is answered so, by all
the changes of that request. -/
theorem getDb_atomic (hbody : ∀ q, Scoped (body q)) (hw : w.pg.pending = [])
    (h : (sessions server body).steps ⟨w, []⟩ ls = some sys) :
    (∀ i r, sys.answer i = some r → sys.shared.pg.own i = []) ∧
    (∀ i q a, sys.request i = some q → sys.answer i = some (.ok a) →
      ∃ rs σ, rs <+: (sessions server body).replies i ⟨w, []⟩ ls ∧
        ((body q).run {}).run.Took rs (.done (.ok (a, σ)))) ∧
    ∀ l sys', (sessions server body).step sys l = some sys' →
      sys'.shared.db = sys.shared.db ∨ (∃ e, l = .env e) ∨
        ∃ i a, l = .run .ok i ∧ sys.awaiting i = some .commit ∧ sys'.answer i = some (.ok a) ∧
          sys'.shared.db = Store.applyAll Db.schema (sys.shared.pg.own i) sys.shared.db := by
  have hsim (i : Nat) (q : Q) : Sim (transactions server Q α) (exec server) q i (getDb (body q)).run .working
      fun r g => g.Ends r := getDb_transaction (hbody q)
  obtain ⟨a, hv, hclosed⟩ := Run.invariant (I := Closed) hsim (fun _ _ _ _ _ _ hI hs => hI.step hs)
    (Trace.of_steps h).run (Refines.initial w) fun i _ => by simp [Store.own, hw]
  refine ⟨fun i r hans => ?_, fun i q a hreq hans => ?_, fun l sys' hstep => ?_⟩
  · obtain ⟨t, ht, hr⟩ := Option.bind_eq_some_iff.1 hans
    obtain ⟨g, hg, hends⟩ := hv.ends ht hr
    rw [← hv.shared]
    refine hclosed i fun q hq => ?_
    rw [hg] at hq
    cases hq
    cases r <;> cases hends
  · obtain ⟨⟨q', co⟩, ht, hr⟩ := Option.bind_eq_some_iff.1 hans
    obtain rfl : q' = q := by simpa [Async.System.request, ht] using hreq
    have htook := Semantics.took h ht
    cases co with
    | await c k => cases hr
    | done r =>
      obtain rfl : r = .ok a := Option.some.inj hr
      exact getDb_took htook
  · obtain ⟨a', hst, hv'⟩ := hv.step hsim hstep
    generalize hcall : sys.callOf l = call at hst
    rw [← hv.shared, ← hv'.shared]
    cases hst with
    | env he => exact .inr (.inl ⟨_, rfl⟩)
    | spawn hi => exact .inl rfl
    | run hi hwait hs =>
      rename_i o i q g g' c w'
      cases hs with
      | call hc he => exact .inl (exec_scoped he hc).1
      | commitFails => exact .inl rfl
      | rollback => exact .inl rfl
      | commit =>
        obtain ⟨t, ht, -, hwaits, hends⟩ := hv'.waits (i := i) (q := q) (g := .committed) (by simp)
        cases hco : t.co with
        | await c k => cases hwaits c (by rw [hco]; rfl)
        | done r =>
          cases r with
          | error e => cases hends (.error e) (by rw [hco]; rfl)
          | ok x => exact .inr (.inr ⟨i, x, rfl, hcall, by simp [Async.System.answer, ht, hco], rfl⟩)

end

/-- Route 1 is created, and Ann books seat 1. -/
theorem getDb_atomic_seatBooked : ∃ sys,
    (sessions plainServer (endpoint plainServer)).steps ⟨someStart.shared, []⟩ seatBooked = some sys ∧
      (sys.answer 1).isSome = true ∧ sys.shared.pg.own 1 = [] := by
  obtain ⟨sys, hsys, hans⟩ := (Option.any_eq_true _ _).1 (show
    ((sessions plainServer (endpoint plainServer)).steps ⟨someStart.shared, []⟩ seatBooked).any
      (fun sys => (sys.answer 1).isSome) = true by decide +kernel)
  obtain ⟨r, hr⟩ := Option.isSome_iff_exists.1 hans
  exact ⟨sys, hsys, hans, (getDb_atomic (endpoint_scoped plainServer) rfl hsys).1 1 r hr⟩

end BusBookings
