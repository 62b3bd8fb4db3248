import BusBookings.Proof.Invariant

/-!
# Reachable systems

A system starts with any registered users and nothing else (`Start`); `Reachable` are the systems of
all runs from there: any requests, interleaved at their awaited calls, any call failing at any
moment, cache entries expiring and users changed in between.
-/

namespace BusBookings

open Async ReadCommitted

/-- Users with distinct e-mails, and no other data. -/
def Start (sys : System) : Prop :=
  ∃ (users : Table User User.id) (nextUser : Int), (∀ u ∈ users.rows, u.id < nextUser) ∧
    (users.rows.map (·.email)).Nodup ∧
    sys = ⟨⟨.init ⟨users, .empty, .empty, .empty⟩, nextUser, 1, 1, 1, ∅, []⟩, []⟩

/-- Any run: no condition on its steps. -/
abbrev AnyRun (server : Server) : System → System → Prop := Run (semantics server) fun _ _ => True

def Reachable (server : Server) (sys : System) : Prop := ∃ sys₀, Start sys₀ ∧ AnyRun server sys₀ sys

/-- The protocol's view of a system. -/
abbrev View (server : Server) := Refines (protocol server) (semantics server)

section

variable {server : Server} {sys sys' : System}

theorem inv_start {users : Table User User.id} {nextUser : Int}
    (hu : ∀ u ∈ users.rows, u.id < nextUser) :
    Inv server ⟨⟨.init ⟨users, .empty, .empty, .empty⟩, nextUser, 1, 1, 1, ∅, []⟩, fun _ => none⟩ := by
  refine ⟨⟨?_, ?_, ?_, ?_, ?_, ?_, ?_, ?_⟩, ⟨fun k hk => ?_, ?_, ?_, ?_, ?_⟩, ?_, fun i _ => rfl, ?_⟩
  case refine_9 =>
    cases k with
    | user id =>
      obtain ⟨u, hm, rfl⟩ := hk
      exact hu u hm
    | email e => trivial
    | route id | seat id | booking id | bookingSeat s =>
      obtain ⟨x, hx, -⟩ := hk
      cases hx
    | routeSeat r n => trivial
  case refine_14 | refine_15 => intro i q g hi; cases hi
  all_goals intro x hx; cases hx

/-- The steps of a run keep the invariant. -/
theorem Inv.run {Adm : System → Label → Prop} (hr : Run (semantics server) Adm sys sys')
    {a : Abs World Request Stage} (ha : View server sys a) (h : Inv server a) :
    ∃ a', View server sys' a' ∧ Inv server a' :=
  hr.invariant handler_sim (fun _ _ _ _ _ _ h hs => h.step hs) ha h

/-- **The rule for reachable systems**: what holds at the start and what every step keeps that starts in
the invariant. -/
theorem Reachable.keeps {I : Abs World Request Stage → Prop} (h : Reachable server sys)
    (hstart : ∀ (users : Table User User.id) (nextUser : Int), (users.rows.map (·.email)).Nodup →
      I ⟨⟨.init ⟨users, .empty, .empty, .empty⟩, nextUser, 1, 1, 1, ∅, []⟩, fun _ => none⟩)
    (hstep : ∀ a l call a', Inv server a → I a → (protocol server).Step envStep a l call a' → I a') :
    ∃ a, View server sys a ∧ Inv server a ∧ I a := by
  obtain ⟨sys₀, ⟨users, nextUser, hu, hemails, rfl⟩, hr⟩ := h
  exact Run.invariant (I := fun a => Inv server a ∧ I a) handler_sim
    (fun _ _ _ _ _ _ ⟨hinv, hI⟩ hs => ⟨hinv.step hs, hstep _ _ _ _ hinv hI hs⟩) hr (Refines.initial _)
    ⟨inv_start hu, hstart users nextUser hemails⟩

theorem Reachable.inv (h : Reachable server sys) : ∃ a, View server sys a ∧ Inv server a := by
  obtain ⟨a, hv, hinv, -⟩ := h.keeps (I := fun _ => True) (fun _ _ _ => trivial) fun _ _ _ _ _ _ _ => trivial
  exact ⟨a, hv, hinv⟩

theorem Reachable.consistent (h : Reachable server sys) : sys.shared.db.Consistent := by
  obtain ⟨a, ha, hi⟩ := h.inv
  rw [← ha.shared]
  exact hi.consistent

end

/-- The step is not a failing call. -/
def NoFailure (l : Label) : Prop := ∀ i, l ≠ .run .fail i

instance : DecidablePred NoFailure
  | .run .fail i => isFalse fun h => h i rfl
  | .run .ok _ | .spawn _ | .env _ => isTrue (by simp [NoFailure])

/-! ## Answers -/

theorem not_waits_ended {q : Request} {c : Call} {resp : Response} : ¬ Waits q (.ended resp) c := by
  cases q <;> exact id

section

variable {server : Server} {i : Nat} {q : Request} {g g' : Stage} {w w' : World} {o : Outcome} {c : Call}

/-- Only a commit changes the database. -/
theorem Step.db_eq (h : Step server q i o c g w g' w') (hl : g ≠ .lost)
    (hg : ∀ resp, g' ≠ .ended resp) : w'.db = w.db := by
  cases h with
  | write hw hch =>
    obtain ⟨hb, -, rfl⟩ := change_ok hch
    simp [World.db]
  | writeFails hw hch =>
    obtain ⟨-, -, rfl⟩ := change_error hch
    simp [World.db]
  | commit => exact absurd rfl (hg _)
  | lost => exact absurd rfl hl
  | _ => rfl

theorem Reads.not_ended {v : Db} {resp : Response} (h : Reads server v q c g g') : g' ≠ .ended resp := by
  cases h with
  | again ha hp => cases ha <;> simp
  | route => exact routeCheck_ind (by simp) (by simp) _
  | seat => exact seatCheck_ind (by simp) (by simp) _
  | booking => exact cancelCheck_ind (by simp) (by simp) _
  | admin => exact adminCheck_ind (by simp) (by simp) _
  | email => exact registerCheck_ind (by simp) (by simp) _
  | login => exact loginCheck_ind (by simp) (by simp) _
  | _ => simp

/-- A request ends with its commit or with a rollback. -/
theorem Step.ended {resp : Response} (h : Step server q i o c g w (.ended resp) w') :
    (∃ j, g = .closing j ∧ resp = j.response ∧ w' = w.commit i) ∨
      ∃ e e', g = .failing e ∧ resp = errorResponse e' ∧ w' = w.rollback i := by
  generalize hg' : Stage.ended resp = g' at h
  cases h with
  | read hr => exact absurd hg'.symm hr.not_ended
  | write hw hch => cases hw <;> cases hg'
  | cachedRoutes | cachedSeats =>
    exact absurd hg'.symm (cacheCheck_ind (motive := (· ≠ .ended resp)) (by simp) (by simp) (by simp) _)
  | keys =>
    unfold Stage.afterKeys Stage.afterDelete at hg'
    split at hg' <;> [split at hg'; skip] <;> cases hg'
  | delete => unfold Stage.afterDelete at hg'; split at hg' <;> cases hg'
  | publish => unfold Stage.afterPublish at hg'; split at hg' <;> cases hg'
  | commit => cases hg'; exact .inl ⟨_, rfl, rfl, rfl⟩
  | rollback => cases hg'; exact .inr ⟨_, _, rfl, rfl, rfl⟩
  | _ => cases hg'

theorem Step.of_fail (h : Step server q i .fail c g w g' w') (hl : g ≠ .lost) :
    g' = .failing .infrastructure ∨ (∃ e, g = .failing e) ∧ ∃ resp, g' = .ended resp := by
  cases h with
  | fail => exact .inl rfl
  | rollback => exact .inr ⟨⟨_, rfl⟩, _, rfl⟩
  | lost => exact absurd rfl hl

theorem Step.of_failing {e : Exc} (h : Step server q i o c (.failing e) w g' w')
    (hw : Waits q (.failing e) c) :
    ∃ e', (e' = e ∨ e' = .infrastructure) ∧ g' = .ended (errorResponse e') := by
  obtain rfl := waits_failing hw
  cases h with
  | fail hc => exact absurd rfl hc
  | read hr => exact absurd rfl (hr.not_failing e)
  | write hw => exact absurd rfl (hw.not_failing e)
  | writeFails hw => exact absurd rfl (hw.not_failing e)
  | rollback =>
    cases o with
    | ok => exact ⟨e, .inl rfl, rfl⟩
    | fail => exact ⟨_, .inr rfl, rfl⟩

/-- Steps only add rows, and change only users, flags of seats and the status of bookings. -/
theorem Inv.evolves {a a' : Abs World Request Stage} (h : Inv server a) {l : Label} {call : Option Call}
    (hs : (protocol server).Step envStep a l call a') : a.shared.db.Evolves a'.shared.db := by
  cases hs with
  | env he =>
    rename_i e w'
    cases e with
    | expire key => cases he; exact .refl _
    | setActive userId isActive => cases he; exact a.shared.evolves_updateUser userId _ fun _ => rfl
    | setRole userId role => cases he; exact a.shared.evolves_updateUser userId _ fun _ => rfl
  | spawn hi => exact .refl _
  | run hi hw hst =>
    rename_i o i q g g' c w'
    by_cases hend : ∃ resp, g' = .ended resp
    · obtain ⟨resp, rfl⟩ := hend
      rcases hst.ended with ⟨j, rfl, -, rfl⟩ | ⟨e, e', rfl, -, rfl⟩
      · exact (h.commit hi).2
      · exact .refl _
    · rw [not_exists] at hend
      show a.shared.db.Evolves w'.db
      rw [hst.db_eq (h.ne_lost hi) hend]
      exact .refl _

end

section

variable {server : Server} {sys : System} {a : Abs World Request Stage}

/-- A request has been answered iff its stage is the last one. -/
theorem answer_iff (hv : View server sys a) (h : Inv server a) {i : Nat} {resp : Response} :
    sys.answer i = some resp ↔ ∃ q, a.phase i = some (q, .ended resp) := by
  constructor
  · intro hans
    obtain ⟨t, ht, hr⟩ := Option.bind_eq_some_iff.1 hans
    obtain ⟨g, hg, hends⟩ := hv.ends ht hr
    obtain rfl := hends.resolve_right (h.ne_lost hg)
    exact ⟨t.req, hg⟩
  · intro ⟨q, hi⟩
    obtain ⟨t, ht, -, hwaits, hends⟩ := hv.waits hi
    cases hco : t.co with
    | await c k => exact absurd (hwaits c (by rw [hco]; rfl)) not_waits_ended
    | done r =>
      have hr : Ends (.ended resp) r := hends r (by rw [hco]; rfl)
      obtain rfl : resp = r := by simpa [Ends] using hr
      simp [Async.System.answer, ht, hco]

/-- The stage of a request that has been answered. -/
theorem ended_of_answer (hv : View server sys a) (h : Inv server a) {i : Nat} {q : Request} {resp : Response}
    (hreq : sys.request i = some q) (hans : sys.answer i = some resp) : a.phase i = some (q, .ended resp) := by
  obtain ⟨q', hi⟩ := (answer_iff hv h).1 hans
  obtain rfl : q' = q := Option.some.inj ((hv.request hi).symm.trans hreq)
  exact hi

/-- When no request is in flight, every stage is a last one. -/
theorem ended_of_quiescent (hv : View server sys a) (h : Inv server a) (hq : sys.Quiescent) {i : Nat}
    {q : Request} {g : Stage} (hi : a.phase i = some (q, g)) : ∃ resp, g = .ended resp := by
  obtain ⟨t, ht, -, -, hends⟩ := hv.waits hi
  have hw := hq t (List.mem_of_getElem? ht)
  cases hco : t.co with
  | await c k => rw [hco] at hw; cases hw
  | done r => exact ⟨r, (hends r (by rw [hco]; rfl)).resolve_right (h.ne_lost hi)⟩

end

/-! ## A small installation

An administrator and two users, a server that sorts and hashes in the simplest way, and a payload:
the fixed inputs of the concrete runs. -/

theorem pairwise_insertionSort_rank (rs : List Route) :
    (rs.insertionSort fun r r' => r.departureAt.rank ≤ r'.departureAt.rank).Pairwise
      fun r r' => r.departureAt.rank ≤ r'.departureAt.rank := by
  have : Std.Total fun r r' : Route => r.departureAt.rank ≤ r'.departureAt.rank :=
    ⟨fun _ _ => Nat.le_total _ _⟩
  have : IsTrans Route fun r r' => r.departureAt.rank ≤ r'.departureAt.rank :=
    ⟨fun _ _ _ => Nat.le_trans⟩
  exact List.pairwise_insertionSort _ rs

def plainServer : Server where
  toUtc := id
  fold := Char.toLower
  hashpw salt password := salt ++ password
  checkpw password hashed := hashed.endsWith password
  order _ _ _ rs := rs.insertionSort fun r r' => r.departureAt.rank ≤ r'.departureAt.rank
  order_perm _ _ _ rs := List.perm_insertionSort _ rs
  order_sorted _ _ _ rs := pairwise_insertionSort_rank rs
  newestFirst bs := bs.reverse
  newestFirst_perm bs := bs.reverse_perm

/-- The administrator 1 and the users 2 and 3. -/
def someUsers : Table User User.id :=
  ⟨[⟨1, "root@bus.com", "h1", "root", "R", "R", true, .admin⟩,
    ⟨2, "ann@bus.com", "h2", "ann", "A", "A", true, .user⟩,
    ⟨3, "bob@bus.com", "h3", "bob", "B", "B", true, .user⟩], by decide⟩

/-- The users 2 and 3. -/
def someUser : User := ⟨2, "ann@bus.com", "h2", "ann", "A", "A", true, .user⟩

def otherUser : User := ⟨3, "bob@bus.com", "h3", "bob", "B", "B", true, .user⟩

def someStart : System := ⟨⟨.init ⟨someUsers, .empty, .empty, .empty⟩, 4, 1, 1, 1, ∅, []⟩, []⟩

theorem start_someStart : Start someStart := ⟨someUsers, 4, by decide, by decide, rfl⟩

def somePayload : RouteCreate where
  origin := "Moskva"
  destination := "Kazan"
  departureAt := "01-06-2030"
  arrivalAt := "02-06-2030"
  totalSeats := 2
  price := 150000
  origin_length := by decide
  destination_length := by decide
  totalSeats_bound := by decide
  price_pos := by decide
  dates := by decide

/-- Request `i` takes `n` calls. -/
def calls (i n : Nat) : List Label := List.replicate n (.run .ok i)

/-- Route 1 with its seats 1 and 2 is created, by request 0. -/
def routeCreated : List Label := .spawn (.createRoute 1 somePayload) :: calls 0 6

/-- Ann has booked seat 1. -/
def seatBooked : List Label := routeCreated ++ .spawn (.createBooking 2 1 1) :: calls 1 13

/-- Route 1 and its seat 1, while it is free. -/
def someRoute : Route :=
  ⟨1, "Moskva", "Kazan", { year := 2030, month := 6, day := 1 }, { year := 2030, month := 6, day := 2 },
    2, 150000, true⟩

def someSeat : Seat := ⟨1, 1, 1, false⟩

/-- The steps of a list, from the small installation. -/
def runSome (ls : List Label) : Option System := (semantics plainServer).steps someStart ls

theorem reachable_runSome {ls : List Label} {sys : System} (h : runSome ls = some sys) :
    Reachable plainServer sys := ⟨someStart, start_someStart, Run.of_steps h⟩

/-- What is checked of the last system of a run. -/
theorem exists_runSome (ls : List Label) (P : System → Prop) [DecidablePred P]
    (h : (runSome ls).any (P ·) = true) : ∃ sys, runSome ls = some sys ∧ P sys := by
  obtain ⟨sys, hsys, hP⟩ := (Option.any_eq_true _ _).1 h
  exact ⟨sys, hsys, by simpa using hP⟩

end BusBookings
