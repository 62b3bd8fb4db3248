import BusBookings.Proof.Runs

/-!
# A request that runs alone

While only one request takes its calls, `Active` holds in every stage it reaches; `Active.steps` is
the rule for its calls, of which any may fail. In a quiescent system no other transaction is open, so
it is never blocked (`Solo`); `alone_spec` is the rule for such a run when no call fails.
-/

namespace BusBookings

open Async ReadCommitted

/-- The answer of request `q` and the world it leaves, when it runs alone and no call fails. -/
def alone (server : Server) (sys : System) (q : Request) : Option (Response × World) :=
  (handler server q).run (exec server .ok sys.tasks.length) sys.shared

/-- Request `i` is in stage `g`, the others are in the stages `ph`. -/
structure Active (server : Server) (ph : Nat → Option (Request × Stage)) (i : Nat) (q : Request)
    (g : Stage) (w : World) : Prop where
  inv : Inv server ⟨w, Function.update ph i (some (q, g))⟩

/-- And no other transaction is open. -/
structure Solo (server : Server) (ph : Nat → Option (Request × Stage)) (i : Nat) (q : Request)
    (g : Stage) (w : World) : Prop extends Active server ph i q g w where
  others : ∀ j, j ≠ i → w.pg.own j = []

section

variable {server : Server} {ph : Nat → Option (Request × Stage)} {i : Nat} {q : Request}
  {g g' : Stage} {w w' : World} {o : Outcome} {c : Call}

theorem Step.own_ne (h : Step server q i o c g w g' w') (hl : g ≠ .lost) {j : Nat} (hj : j ≠ i) :
    w'.pg.own j = w.pg.own j := by
  cases h with
  | write hw hch =>
    obtain ⟨hb, -, rfl⟩ := change_ok hch
    simp [Store.own_write_ne _ _ hj]
  | writeFails hw hch =>
    obtain ⟨-, -, rfl⟩ := change_error hch
    rw [World.pg_bump]
  | commit => exact Store.own_commit_ne _ _ hj
  | rollback => exact Store.own_rollback_ne _ _ hj
  | lost => exact absurd rfl hl
  | _ => rfl

namespace Active

theorem facts (h : Active server ph i q g w) : g.Facts server w.db q :=
  h.inv.facts i q g (by simp)

theorem ne_lost (h : Active server ph i q g w) : g ≠ .lost := h.inv.ne_lost (i := i) (q := q) (by simp)

theorem view (h : Active server ph i q g w) (hne : ∀ e, g ≠ .failing e) :
    w.view i = Store.applyAll Db.schema g.writes w.db :=
  h.inv.view (q := q) (by simp) hne

theorem vacant (h : Active server ph i q g w) (hne : ∀ e, g ≠ .failing e) (ch : Change)
    (hch : ch ∈ g.writes) (hins : ch.inserts = true) {k : LockKey} (hk : k ∈ Db.locks ch) :
    ¬ w.db.Occupied k :=
  h.inv.vacant (i := i) (q := q) (g := g) (by simp) hne ch hch hins hk

theorem step (h : Active server ph i q g w) (hw : Waits q g c) (hs : Step server q i o c g w g' w') :
    Active server ph i q g' w' := by
  have := h.inv.step (Protocol.Step.run (P := protocol server) (by simp) hw hs)
  exact ⟨by simpa using this⟩

/-- Only an `INSERT` breaks a constraint. -/
theorem insert_of_error (h : Active server ph i q g w) {ch : Change} {e : Exc}
    (hw : Writes server w q c ch g g') (hch : (w.bump c).change i ch = some (.error e, w')) :
    ch.inserts = true ∧ (Store.applyAll Db.schema g.writes w.db).violation ch = some e :=
  h.inv.insert_of_error (q := q) (by simp) hw hch

end Active

namespace Solo

theorem step (h : Solo server ph i q g w) (hw : Waits q g c) (hs : Step server q i o c g w g' w') :
    Solo server ph i q g' w' :=
  ⟨h.toActive.step hw hs, fun j hj => (hs.own_ne h.ne_lost hj).trans (h.others j hj)⟩

theorem unblocked (h : Solo server ph i q g w) (ch : Change) : w.pg.blocked i ch = false := by
  rw [Store.blocked_eq_false]
  intro p hp hne k hk
  have : p.2 ∈ w.pg.own p.1 := Store.mem_own.2 hp
  rw [h.others p.1 hne] at this
  cases this

end Solo

theorem change_some (h : ∀ ch, w.pg.blocked i ch = false) (ch : Change) :
    ∃ p, w.change i ch = some p := by
  unfold World.change
  rw [dif_pos (h ch)]
  split
  · exact ⟨_, rfl⟩
  · exact ⟨_, rfl⟩

theorem insert_some (h : ∀ ch, w.pg.blocked i ch = false) (ch : Change) (id : Int) :
    ∃ p, w.insert i ch id = some p := by
  obtain ⟨p, hp⟩ := change_some h ch
  exact ⟨_, Option.map_eq_some_iff.2 ⟨p, hp, rfl⟩⟩

/-- Only a lock makes a call wait. -/
theorem exec_some (h : ∀ ch, w.pg.blocked i ch = false) : ∃ p, exec server .ok i c w = some p := by
  cases c with
  | insertUser row => exact insert_some (w := w.bump (.insertUser row)) h _ _
  | insertRoute row => exact insert_some (w := w.bump (.insertRoute row)) h _ _
  | insertBooking row => exact insert_some (w := w.bump (.insertBooking row)) h _ _
  | insertSeats routeId ns => exact change_some (w := w.bump (.insertSeats routeId ns)) h _
  | updateSeat id flag => exact change_some h _
  | updateBooking id status => exact change_some h _
  | _ => exact ⟨_, rfl⟩

/-- The rule for a request that runs alone: what its steps keep holds at its end. -/
theorem alone_spec {I : Stage → World → Prop} (h : Solo server ph i q .start w) (hI : I .start w)
    (hstep : ∀ c g w g' w', Solo server ph i q g w → Solo server ph i q g' w' → I g w → Waits q g c →
      Step server q i .ok c g w g' w' → I g' w') :
    ∃ resp w', (handler server q).run (exec server .ok i) w = some (resp, w') ∧
      I (.ended resp) w' := by
  obtain ⟨resp, w', g', hrun, hend, hsolo, hI'⟩ :=
    Sim.run_alone (P := protocol server) (q := q) (I := fun g w => Solo server ph i q g w ∧ I g w)
      (handler_sim i q) ⟨h, hI⟩ (fun g c w h _ => exec_some h.1.unblocked)
      fun g c w g' w' h hw hs => ⟨h.1.step hw hs, hstep c g w g' w' h.1 (h.1.step hw hs) h.2 hw hs⟩
  rcases hend with rfl | rfl
  · exact ⟨resp, w', hrun, hI'⟩
  · exact absurd rfl hsolo.ne_lost

end

/-! ## Quiescent systems -/

section

variable {server : Server} {sys : System}

/-- In a quiescent system no request has uncommitted changes. -/
theorem own_of_quiescent {a : Abs World Request Stage} (ha : View server sys a) (h : Inv server a)
    (hq : sys.Quiescent) (j : Nat) : sys.shared.pg.own j = [] := by
  rw [← ha.shared]
  cases hj : a.phase j with
  | none => exact h.idle j hj
  | some p =>
    obtain ⟨q, g⟩ := p
    obtain ⟨resp, rfl⟩ := ended_of_quiescent ha h hq hj
    exact h.own j _ _ hj (by simp)

/-- The system with a new request. -/
def arrive (server : Server) (sys : System) (q : Request) : System :=
  { sys with tasks := sys.tasks ++ [⟨q, handler server q⟩] }

theorem Reachable.active (h : Reachable server sys) (q : Request) :
    ∃ ph, Active server ph sys.tasks.length q .start sys.shared ∧ View server (arrive server sys q)
      ⟨sys.shared, Function.update ph sys.tasks.length (some (q, .start))⟩ := by
  obtain ⟨a, ha, hi⟩ := h.inv
  have hn : a.phase sys.tasks.length = none := ha.fresh _ (by simp)
  have hinv := hi.step (Protocol.Step.spawn (P := protocol server) (q := q) hn)
  have hview := ha.spawn fun i => handler_sim i q
  rw [ha.shared] at hinv hview
  exact ⟨a.phase, ⟨hinv⟩, hview⟩

/-- A new request in a quiescent system runs alone. -/
theorem Reachable.solo (h : Reachable server sys) (hq : sys.Quiescent) (q : Request) :
    ∃ ph, Solo server ph sys.tasks.length q .start sys.shared := by
  obtain ⟨a, ha, hi⟩ := h.inv
  have hown := own_of_quiescent ha hi hq
  obtain ⟨ph, hactive, -⟩ := h.active q
  exact ⟨ph, hactive, fun j _ => hown j⟩

end

/-! ## One request, its calls one by one -/

section

variable {server : Server} {ph : Nat → Option (Request × Stage)} {i : Nat} {q : Request}

/-- The calls of request `i` alone, ending as `os` says. -/
def callsOf (i : Nat) (os : List Outcome) : List Label := os.map (.run · i)

/-- One call of the request. -/
theorem Active.call {sys sys' : System} {g : Stage} {o : Outcome}
    (hv : View server sys ⟨sys.shared, Function.update ph i (some (q, g))⟩)
    (hactive : Active server ph i q g sys.shared)
    (hs : (semantics server).step sys (.run o i) = some sys') :
    ∃ c g', Waits q g c ∧ Step server q i o c g sys.shared g' sys'.shared ∧
      View server sys' ⟨sys'.shared, Function.update ph i (some (q, g'))⟩ ∧
      Active server ph i q g' sys'.shared := by
  obtain ⟨a', hst, hv'⟩ := hv.step handler_sim hs
  have hshared := hv'.shared
  generalize sys.callOf (.run o i) = call at hst
  cases hst with
  | run hi hw hstep =>
    simp only [Function.update_self, Option.some.injEq, Prod.mk.injEq] at hi
    obtain ⟨rfl, rfl⟩ := hi
    obtain rfl := hshared
    exact ⟨_, _, hw, hstep, by simpa using hv', hactive.step hw hstep⟩

/-- The rule for the calls of one request, of which any may fail: `K` holds of every outcome and the
world before it, and a step keeps `J`. -/
theorem Active.steps {J : Stage → World → Prop} {K : Outcome → World → Prop}
    (hstep : ∀ o c g w g' w', Active server ph i q g w → J g w → K o w → Waits q g c →
      Step server q i o c g w g' w' → J g' w') {os : List Outcome} {sys sys' : System} {g : Stage}
    (hv : View server sys ⟨sys.shared, Function.update ph i (some (q, g))⟩)
    (hactive : Active server ph i q g sys.shared) (hJ : J g sys.shared)
    (hK : ∀ os₁ o os₂ sys₁, os = os₁ ++ o :: os₂ →
      (semantics server).steps sys (callsOf i os₁) = some sys₁ → K o sys₁.shared)
    (hs : (semantics server).steps sys (callsOf i os) = some sys') :
    ∃ g', View server sys' ⟨sys'.shared, Function.update ph i (some (q, g'))⟩ ∧
      Active server ph i q g' sys'.shared ∧ J g' sys'.shared := by
  induction os generalizing sys g with
  | nil =>
    cases hs
    exact ⟨g, hv, hactive, hJ⟩
  | cons o os ih =>
    obtain ⟨sys₁, h₁, hs⟩ := Option.bind_eq_some_iff.1 hs
    obtain ⟨c, g₁, hw, hst, hv₁, hactive₁⟩ := hactive.call hv h₁
    refine ih hv₁ hactive₁ (hstep _ _ _ _ _ _ hactive hJ (hK [] o os sys rfl rfl) hw hst) ?_ hs
    intro os₁ o' os₂ sys₂ he h₂
    exact hK (o :: os₁) o' os₂ sys₂ (by rw [he]; rfl) (Option.bind_eq_some_iff.2 ⟨sys₁, h₁, h₂⟩)

end

end BusBookings
