import BusBookings.Protocol.Simulation
import BusBookings.Proof.Database

/-!
# The invariant of all runs

* `World.Keyed`: the sequences are ahead of the ids in use, and what an open transaction inserts is
  vacant in the committed database and fits its columns.
* `Stage.Facts`: what a request knows in a stage; committed transactions of others keep it
  (`Facts.mono`).
* `Inv`: a committed database is consistent and every request has exactly the uncommitted changes of
  its stage. Every step of the protocol keeps it (`Inv.step`), so it holds in every run
  (`Reachable.inv`).
-/

namespace BusBookings

open Async ReadCommitted

/-! ## Keys -/

namespace World

/-- An id the sequences have given out. -/
def Below (w : World) : LockKey → Prop
  | .user id => id < w.nextUser
  | .route id => id < w.nextRoute
  | .seat id => id < w.nextSeat
  | .booking id => id < w.nextBooking
  | _ => True

structure Keyed (w : World) : Prop where
  below : ∀ k, w.db.Occupied k → w.Below k
  pendingBelow : ∀ p ∈ w.pg.pending, p.2.inserts = true → ∀ k ∈ Db.locks p.2, w.Below k
  vacant : ∀ p ∈ w.pg.pending, p.2.inserts = true → ∀ k ∈ Db.locks p.2, ¬ w.db.Occupied k
  /-- New rows fit their columns, and so do the committed routes. -/
  fits : ∀ p ∈ w.pg.pending, Db.fits p.2 = true
  routesFit : ∀ r ∈ w.db.routes.rows, Db.fits (.insertRoute r) = true

variable {w : World} {i : Nat}

theorem Below.bump {k : LockKey} (h : w.Below k) (c : Call) : (w.bump c).Below k := by
  cases c <;> cases k <;> simp only [Below, World.bump] at h ⊢ <;> omega

@[simp] theorem pg_bump (w : World) (c : Call) : (w.bump c).pg = w.pg := by cases c <;> rfl

@[simp] theorem redis_bump (w : World) (c : Call) : (w.bump c).redis = w.redis := by cases c <;> rfl

@[simp] theorem published_bump (w : World) (c : Call) : (w.bump c).published = w.published := by
  cases c <;> rfl

namespace Keyed

theorem bump (h : w.Keyed) (c : Call) : (w.bump c).Keyed where
  below k hk := (h.below k (by simpa [db] using hk)).bump c
  pendingBelow p hp hi k hk := (h.pendingBelow p (by simpa using hp) hi k hk).bump c
  vacant p hp hi k hk := by simpa [db] using h.vacant p (by simpa using hp) hi k hk
  fits p hp := h.fits p (by simpa using hp)
  routesFit r hr := h.routesFit r (by simpa [db] using hr)

theorem write (h : w.Keyed) {ch : Change} (hb : w.pg.blocked i ch = false)
    (hfits : Db.fits ch = true)
    (hch : ch.inserts = true → ∀ k ∈ Db.locks ch, w.Below k ∧ ¬ w.db.Occupied k) :
    Keyed { w with pg := w.pg.write i ch hb } where
  below := h.below
  pendingBelow p hp hi k hk := by
    rcases List.mem_append.1 hp with hp | hp
    · exact h.pendingBelow p hp hi k hk
    · rw [List.mem_singleton] at hp
      subst hp
      exact (hch hi k hk).1
  vacant p hp hi k hk := by
    rcases List.mem_append.1 hp with hp | hp
    · exact h.vacant p hp hi k hk
    · rw [List.mem_singleton] at hp
      subst hp
      exact (hch hi k hk).2
  fits p hp := by
    rcases List.mem_append.1 hp with hp | hp
    · exact h.fits p hp
    · rw [List.mem_singleton] at hp
      subst hp
      exact hfits
  routesFit := h.routesFit

theorem rollback (h : w.Keyed) : (w.rollback i).Keyed where
  below := h.below
  pendingBelow p hp := h.pendingBelow p (List.mem_of_mem_filter hp)
  vacant p hp := h.vacant p (List.mem_of_mem_filter hp)
  fits p hp := h.fits p (List.mem_of_mem_filter hp)
  routesFit := h.routesFit

theorem commit (h : w.Keyed) : (w.commit i).Keyed where
  below k hk := by
    rcases Db.Occupied.of_applyAll hk with hk | ⟨ch, hm, hi, hk⟩
    · exact h.below k hk
    · exact h.pendingBelow (i, ch) (Store.mem_own.1 hm) hi k hk
  pendingBelow p hp := h.pendingBelow p (List.mem_of_mem_filter hp)
  vacant p hp hi k hk ho := by
    obtain ⟨hp, hne⟩ := List.mem_filter.1 hp
    rcases Db.Occupied.of_applyAll ho with ho | ⟨ch, hm, -, hk'⟩
    · exact h.vacant p hp hi k hk ho
    · exact w.pg.excl p hp (i, ch) (Store.mem_own.1 hm) (by simpa using hne) k hk hk'
  fits p hp := h.fits p (List.mem_of_mem_filter hp)
  routesFit r hr := by
    rcases Db.mem_routes_applyAll hr with hr | hr
    · exact h.routesFit r hr
    · exact h.fits (i, .insertRoute r) (Store.mem_own.1 hr)

end Keyed

end World

/-! ## What a request knows -/

/-- The booking `b`, not yet confirmed, of a seat of `route`. -/
structure Reserved (db : Db) (u r s : Int) (onRoute : Route) (b : Booking) : Prop where
  route : onRoute ∈ db.routes.rows
  routeId : onRoute.id = r
  seat : ∃ seat ∈ db.seats.rows, seat.id = s ∧ seat.routeId = r
  booking : b = ⟨b.id, u, r, s, .pending, onRoute.price⟩

/-- The booking `b` of user `u`, possibly cancelled since it was read. -/
structure Held (db : Db) (u : Int) (b : Booking) : Prop where
  user : b.userId = u
  status : b.status ≠ .cancelled
  row : b ∈ db.bookings.rows ∨ Db.setStatus .cancelled b ∈ db.bookings.rows

/-- The route a payload describes. -/
def Drafted (server : Server) (p : RouteCreate) (r : Route) : Prop :=
  ∃ dep arr, strptime p.departureAt = some dep ∧ strptime p.arrivalAt = some arr ∧
    r = ⟨r.id, p.origin, p.destination, server.toUtc dep, server.toUtc arr, p.totalSeats, p.price, true⟩

/-- A request without changes. -/
def Request.reads : Request → Bool
  | .login .. | .listRoutes _ | .listSeats _ | .myBookings _ => true
  | _ => false

def Job.Facts (server : Server) (db : Db) (q : Request) : Job → Prop
  | .create b onRoute => ∃ u r s, q = .createBooking u r s ∧ Reserved db u r s onRoute b
  | .cancel b free => ∃ u, q = .cancelBooking u b.id ∧ Held db u b ∧
      (free = false → Db.setStatus .cancelled b ∈ db.bookings.rows)
  | .route r _ => ∃ u p, q = .createRoute u p ∧ Drafted server p r
  | .register u => ∃ p salt, q = .register p salt ∧ u.email = p.email
  | .read _ => q.reads = true

def Stage.Facts (server : Server) (db : Db) (q : Request) : Stage → Prop
  | .routeRead route => ∃ u r s, q = .createBooking u r s ∧ route ∈ db.routes.rows ∧ route.id = r
  | .seatRead route => ∃ u r s, q = .createBooking u r s ∧ route ∈ db.routes.rows ∧ route.id = r ∧
      ∃ seat ∈ db.seats.rows, seat.id = s ∧ seat.routeId = r
  | .inserted route b | .marked route b | .confirmed route b => (Job.create b route).Facts server db q
  | .bookingRead b | .cancelled b | .refreshed b => ∃ u, q = .cancelBooking u b.id ∧ Held db u b
  | .flushing b => (Job.cancel b true).Facts server db q
  | .routeInserted r | .routeRefreshed r => ∃ u p, q = .createRoute u p ∧ Drafted server p r
  | .userInserted u => ∃ p salt, q = .register p salt ∧ u.email = p.email
  | .missed | .counted _ | .storing .. => q.reads = true
  | .invalidating j | .deleting j _ | .invalidated j | .notifying j _ | .closing j =>
    j.Facts server db q
  | .lost => False
  | _ => True

section

variable {server : Server} {db db' : Db} {q : Request}

theorem Reserved.mono (hev : db.Evolves db') {u r s : Int} {route : Route} {b : Booking}
    (h : Reserved db u r s route b) : Reserved db' u r s route b where
  route := hev.routes _ h.route
  routeId := h.routeId
  seat := by
    obtain ⟨seat, hs, h1, h2⟩ := h.seat
    obtain ⟨flag, hf⟩ := hev.seats seat hs
    exact ⟨_, hf, h1, h2⟩
  booking := h.booking

theorem cancelled_mono (hev : db.Evolves db') {b : Booking}
    (h : Db.setStatus .cancelled b ∈ db.bookings.rows) :
    Db.setStatus .cancelled b ∈ db'.bookings.rows := by
  rcases hev.bookings _ h with h | h
  · exact h
  · exact h

theorem Held.mono (hev : db.Evolves db') {u : Int} {b : Booking} (h : Held db u b) :
    Held db' u b where
  user := h.user
  status := h.status
  row := by
    rcases h.row with hb | hb
    · exact hev.bookings b hb
    · exact .inr (cancelled_mono hev hb)

theorem Job.Facts.mono (hev : db.Evolves db') {j : Job} (h : j.Facts server db q) :
    j.Facts server db' q := by
  cases j with
  | create b route =>
    obtain ⟨u, r, s, hq, hres⟩ := h
    exact ⟨u, r, s, hq, hres.mono hev⟩
  | cancel b free =>
    obtain ⟨u, hq, hheld, hfree⟩ := h
    exact ⟨u, hq, hheld.mono hev, fun hf => cancelled_mono hev (hfree hf)⟩
  | route r first => exact h
  | register u => exact h
  | read resp => exact h

/-- The job of a `create_booking`. -/
theorem Job.Facts.isCreate {j : Job} {u r s : Int} (h : j.Facts server db (.createBooking u r s)) :
    ∃ b route, j = .create b route ∧ Reserved db u r s route b := by
  cases j with
  | create b route =>
    obtain ⟨u', r', s', hq, hres⟩ := h
    cases hq
    exact ⟨b, route, rfl, hres⟩
  | cancel b free => obtain ⟨u', hq, -⟩ := h; cases hq
  | route r' first => obtain ⟨u', p, hq, -⟩ := h; cases hq
  | register u' => obtain ⟨p, salt, hq, -⟩ := h; cases hq
  | read resp => cases h

/-- The job of a `cancel_booking`. -/
theorem Job.Facts.isCancel {j : Job} {u id : Int} (h : j.Facts server db (.cancelBooking u id)) :
    ∃ b free, j = .cancel b free ∧ id = b.id ∧ Held db u b := by
  cases j with
  | create b route => obtain ⟨u', r', s', hq, -⟩ := h; cases hq
  | cancel b free =>
    obtain ⟨u', hq, hheld, -⟩ := h
    cases hq
    exact ⟨b, free, rfl, rfl, hheld⟩
  | route r' first => obtain ⟨u', p, hq, -⟩ := h; cases hq
  | register u' => obtain ⟨p, salt, hq, -⟩ := h; cases hq
  | read resp => cases h

/-- The job of a `create_route`. -/
theorem Job.Facts.isRoute {j : Job} {u : Int} {p : RouteCreate}
    (h : j.Facts server db (.createRoute u p)) : ∃ r first, j = .route r first ∧ Drafted server p r := by
  cases j with
  | create b route => obtain ⟨u', r', s', hq, -⟩ := h; cases hq
  | cancel b free => obtain ⟨u', hq, -⟩ := h; cases hq
  | route r first =>
    obtain ⟨u', p', hq, hdraft⟩ := h
    cases hq
    exact ⟨r, first, rfl, hdraft⟩
  | register u' => obtain ⟨p', salt, hq, -⟩ := h; cases hq
  | read resp => cases h

/-- The job of a `register`. -/
theorem Job.Facts.isRegister {j : Job} {p : UserRegister} {salt : String}
    (h : j.Facts server db (.register p salt)) : ∃ u, j = .register u ∧ u.email = p.email := by
  cases j with
  | create b route => obtain ⟨u', r', s', hq, -⟩ := h; cases hq
  | cancel b free => obtain ⟨u', hq, -⟩ := h; cases hq
  | route r' first => obtain ⟨u', p', hq, -⟩ := h; cases hq
  | register u =>
    obtain ⟨p', salt', hq, hu⟩ := h
    cases hq
    exact ⟨u, rfl, hu⟩
  | read resp => cases h

theorem Stage.Facts.mono (hev : db.Evolves db') {g : Stage} (h : g.Facts server db q) :
    g.Facts server db' q := by
  cases g with
  | routeRead route =>
    obtain ⟨u, r, s, hq, hr, hid⟩ := h
    exact ⟨u, r, s, hq, hev.routes _ hr, hid⟩
  | seatRead route =>
    obtain ⟨u, r, s, hq, hr, hid, seat, hs, h1, h2⟩ := h
    obtain ⟨flag, hf⟩ := hev.seats seat hs
    exact ⟨u, r, s, hq, hev.routes _ hr, hid, _, hf, h1, h2⟩
  | inserted route b | marked route b | confirmed route b =>
    exact (show (Job.create b route).Facts server db q from h).mono hev
  | bookingRead b | cancelled b | refreshed b =>
    obtain ⟨u, hq, hheld⟩ := h
    exact ⟨u, hq, hheld.mono hev⟩
  | flushing b => exact (show (Job.cancel b true).Facts server db q from h).mono hev
  | invalidating j | deleting j keys | invalidated j | notifying j email | closing j =>
    exact Job.Facts.mono hev h
  | _ => exact h

end

/-! ## New seats -/

theorem World.newSeats_ids (routeId next : Int) (ns : List Int) :
    (newSeats routeId next ns).map (·.id) = (List.range ns.length).map fun k : Nat => next + (k : Int) := by
  induction ns generalizing next with
  | nil => rfl
  | cons n ns ih =>
    rw [newSeats, List.map_cons, ih, List.length_cons, List.range_succ_eq_map, List.map_cons,
      List.map_map]
    refine List.cons_eq_cons.2 ⟨by simp, List.map_congr_left fun k _ => ?_⟩
    simp only [Function.comp_apply]
    omega

theorem World.newSeats_nodup (routeId next : Int) (ns : List Int) :
    ((newSeats routeId next ns).map (·.id)).Nodup := by
  rw [newSeats_ids]
  exact List.nodup_range.map fun a b (h : next + (a : Int) = next + b) => by omega

theorem World.mem_newSeats {routeId next : Int} {ns : List Int} {s : Seat}
    (h : s ∈ newSeats routeId next ns) :
    s.routeId = routeId ∧ s.isBooked = false ∧ next ≤ s.id ∧ s.id < next + ns.length := by
  induction ns generalizing next with
  | nil => cases h
  | cons n ns ih =>
    rw [List.length_cons]
    rcases List.mem_cons.1 h with rfl | h
    · exact ⟨rfl, rfl, Int.le_refl _, by show next < _; omega⟩
    · obtain ⟨h1, h2, h3, h4⟩ := ih h
      exact ⟨h1, h2, by omega, by omega⟩

theorem World.newSeats_numbers (routeId next : Int) (ns : List Int) :
    (newSeats routeId next ns).map (·.seatNumber) = ns := by
  induction ns generalizing next with
  | nil => rfl
  | cons n ns ih => rw [newSeats, List.map_cons, ih]

/-! ## The invariant -/

structure Inv (server : Server) (a : Abs World Request Stage) : Prop where
  consistent : a.shared.db.Consistent
  keyed : a.shared.Keyed
  own : ∀ i q g, a.phase i = some (q, g) → (∀ e, g ≠ .failing e) → a.shared.pg.own i = g.writes
  idle : ∀ i, a.phase i = none → a.shared.pg.own i = []
  facts : ∀ i q g, a.phase i = some (q, g) → g.Facts server a.shared.db q

section

variable {server : Server} {a : Abs World Request Stage} {i : Nat} {q : Request} {g g' : Stage}

/-- One request moves on: the others keep their changes and what they know. -/
theorem Inv.advance (h : Inv server a) {w' : World}
    (hc : w'.db.Consistent) (hk : w'.Keyed)
    (hown : (∀ e, g' ≠ .failing e) → w'.pg.own i = g'.writes)
    (hothers : ∀ j, j ≠ i → w'.pg.own j = a.shared.pg.own j)
    (hev : a.shared.db.Evolves w'.db) (hf : g'.Facts server w'.db q) :
    Inv server ⟨w', Function.update a.phase i (some (q, g'))⟩ where
  consistent := hc
  keyed := hk
  own j q' g₁ hj hne := by
    by_cases hji : j = i
    · subst hji
      simp only [Function.update_self, Option.some.injEq, Prod.mk.injEq] at hj
      obtain ⟨-, rfl⟩ := hj
      exact hown hne
    · simp only [Function.update_of_ne hji] at hj
      exact (hothers j hji).trans (h.own j q' g₁ hj hne)
  idle j hj := by
    by_cases hji : j = i
    · subst hji; simp at hj
    · simp only [Function.update_of_ne hji] at hj
      exact (hothers j hji).trans (h.idle j hj)
  facts j q' g₁ hj := by
    by_cases hji : j = i
    · subst hji
      simp only [Function.update_self, Option.some.injEq, Prod.mk.injEq] at hj
      obtain ⟨rfl, rfl⟩ := hj
      exact hf
    · simp only [Function.update_of_ne hji] at hj
      exact (h.facts j q' g₁ hj).mono hev

/-- A step that leaves the database as it is. -/
theorem Inv.quiet (h : Inv server a) (hi : a.phase i = some (q, g)) (hne : ∀ e, g ≠ .failing e)
    {w' : World} (hpg : w'.pg = a.shared.pg) (hk : w'.Keyed)
    (hw : (∀ e, g' ≠ .failing e) → g'.writes = g.writes) (hf : g'.Facts server a.shared.db q) :
    Inv server ⟨w', Function.update a.phase i (some (q, g'))⟩ := by
  have hdb : w'.db = a.shared.db := congrArg Store.committed hpg
  refine h.advance (hdb ▸ h.consistent) hk (fun he => ?_) (fun j _ => by rw [hpg])
    (hdb ▸ .refl _) (hdb ▸ hf)
  rw [hpg, h.own i q g hi hne, hw he]

/-- No request gets lost. -/
theorem Inv.ne_lost (h : Inv server a) (hi : a.phase i = some (q, g)) : g ≠ .lost := fun he => by
  have := h.facts i q g hi
  rw [he] at this
  exact this

/-- The own uncommitted changes of a request, as it sees them. -/
theorem Inv.view (h : Inv server a) (hi : a.phase i = some (q, g)) (hne : ∀ e, g ≠ .failing e) :
    a.shared.view i = Store.applyAll Db.schema g.writes a.shared.db := by
  show Store.applyAll _ (a.shared.pg.own i) _ = _
  rw [h.own i q g hi hne]

/-- The keys of a row a request inserts are vacant. -/
theorem Inv.vacant (h : Inv server a) (hi : a.phase i = some (q, g)) (hne : ∀ e, g ≠ .failing e)
    (ch : Change) (hch : ch ∈ g.writes) (hins : ch.inserts = true) {k : LockKey}
    (hk : k ∈ Db.locks ch) : ¬ a.shared.db.Occupied k :=
  h.keyed.vacant (i, ch) (Store.mem_own.1 (h.own i q g hi hne ▸ hch)) hins k hk

/-! ## Rows a request finds again -/

theorem find?_insert_self {ρ : Type} {key : ρ → Int} {t : Table ρ key} {r : ρ}
    (h : ∀ x ∈ t.rows, key x ≠ key r) : (t.insert r).find? (key r) = some r :=
  Table.find?_eq_some.2 ⟨(Table.mem_insert h).2 (.inr rfl), rfl⟩

theorem find?_setStatus {db : Db} {b : Booking} {status : BookingStatus} (hb : b ∈ db.bookings.rows) :
    (db.updateBooking b.id status).bookings.find? b.id = some (Db.setStatus status b) :=
  Table.find?_eq_some.2 ⟨Db.mem_updateBooking.2 ⟨b, hb, if_pos rfl⟩, rfl⟩

theorem Held.find? {db : Db} {u : Int} {b : Booking} (h : Held db u b) :
    db.bookings.find? b.id = some b ∨ db.bookings.find? b.id = some (Db.setStatus .cancelled b) :=
  h.row.imp (fun hb => Table.find?_eq_some.2 ⟨hb, rfl⟩) fun hb => Table.find?_eq_some.2 ⟨hb, rfl⟩

theorem Held.seat {db : Db} (hc : db.Consistent) {u : Int} {b : Booking} (h : Held db u b) :
    ∃ seat ∈ db.seats.rows, seat.id = b.seatId ∧ seat.routeId = b.routeId := by
  rcases h.row with hb | hb
  · exact hc.bookingSeat b hb
  · have := hc.bookingSeat _ hb
    exact this

theorem Held.find?_cancelled {db : Db} {u : Int} {b : Booking} (h : Held db u b) :
    (db.updateBooking b.id .cancelled).bookings.find? b.id = some (Db.setStatus .cancelled b) := by
  rcases h.row with hb | hb
  · exact find?_setStatus hb
  · exact find?_setStatus (b := Db.setStatus .cancelled b) hb

/-- **A request finds its rows again**: no request gets lost. -/
theorem Inv.again (h : Inv server a) (hi : a.phase i = some (q, g)) {c : Call} {p : Prop}
    (ha : Again (a.shared.view i) q c g p g') : ∃ p' g'', Again (a.shared.view i) q c g p' g'' ∧ p' := by
  have hview := h.view hi
  cases ha with
  | ownBooking hid =>
    rename_i b
    have hv := h.vacant hi (by simp) (.insertBooking b) (by simp [Stage.writes]) rfl
      (k := .booking b.id) (by simp [Db.locks])
    refine ⟨_, _, .ownBooking hid, ?_⟩
    rw [hview (by simp), hid]
    exact find?_insert_self fun x hx he => hv ⟨x, hx, he⟩
  | ownSeat =>
    obtain ⟨u, r, s, hq, hres⟩ := h.facts i _ _ hi
    cases hq
    obtain ⟨seat, hs, hid, -⟩ := hres.seat
    refine ⟨_, _, .ownSeat, ?_⟩
    rw [hview (by simp), ← hid]
    exact Option.isSome_iff_exists.2 ⟨seat, Table.find?_mem (t := a.shared.db.seats) hs⟩
  | created hid =>
    rename_i b
    have hv := h.vacant hi (by simp) (.insertBooking b) (by simp [Stage.writes]) rfl
      (k := .booking b.id) (by simp [Db.locks])
    obtain ⟨-, -, -, hrows⟩ := Db.applyAll_create hv
    refine ⟨_, _, .created hid, ?_⟩
    rw [hview (by simp), hid]
    exact Table.find?_eq_some.2 ⟨by simp only [Stage.writes]; rw [hrows]; simp, rfl⟩
  | booking =>
    obtain ⟨u, hq, hheld⟩ := h.facts i _ _ hi
    cases hq
    refine ⟨_, _, .booking, ?_⟩
    rw [hview (by simp)]
    rcases hheld.find? with hb | hb
    · exact Option.isSome_iff_exists.2 ⟨_, hb⟩
    · exact Option.isSome_iff_exists.2 ⟨_, hb⟩
  | refreshed =>
    obtain ⟨u, hq, hheld⟩ := h.facts i _ _ hi
    cases hq
    refine ⟨_, _, .refreshed, ?_⟩
    rw [hview (by simp)]
    exact hheld.find?_cancelled
  | bookedSeat hs =>
    rename_i b free
    obtain ⟨u, hq, hheld⟩ := h.facts i _ _ hi
    cases hq
    obtain ⟨seat, hseat, hid, -⟩ := hheld.seat h.consistent
    refine ⟨_, _, Again.bookedSeat hs, (?_ : _ = some seat.isBooked)⟩
    rw [hview (by simp), hs, ← hid]
    show (a.shared.db.seats.find? seat.id).map _ = _
    rw [Table.find?_mem hseat]
    rfl
  | newRoute hid =>
    rename_i r
    have hv := h.vacant hi (by simp) (.insertRoute r) (by simp [Stage.writes]) rfl
      (k := .route r.id) (by simp [Db.locks])
    refine ⟨_, _, .newRoute hid, ?_⟩
    rw [hview (by simp), hid]
    exact find?_insert_self fun x hx he => hv ⟨x, hx, he⟩
  | newUser hid =>
    rename_i u
    have hv := h.vacant hi (by simp) (.insertUser u) (by simp [Stage.writes]) rfl
      (k := .user u.id) (by simp [Db.locks])
    refine ⟨_, _, .newUser hid, ?_⟩
    rw [hview (by simp), hid]
    exact find?_insert_self fun x hx he => hv ⟨x, hx, he⟩

/-! ## Queries -/

/-- A query leaves the uncommitted changes as they are. -/
theorem Reads.writes_eq {v : Db} {c : Call} (h : Reads server v q c g g') (hl : g' ≠ .lost) :
    g'.writes = g.writes := by
  cases h with
  | again ha hp => cases ha <;> rfl
  | lost => exact absurd rfl hl
  | route => exact routeCheck_ind (fun _ => rfl) (fun _ => rfl) _
  | seat => exact seatCheck_ind (fun _ => rfl) rfl _
  | booking => exact cancelCheck_ind (fun _ => rfl) (fun _ => rfl) _
  | admin => exact adminCheck_ind (fun _ => rfl) rfl _
  | email => exact registerCheck_ind (fun _ => rfl) rfl _
  | login => exact loginCheck_ind (fun _ => rfl) (fun _ => rfl) _
  | _ => rfl

/-- What a request knows after a query. -/
theorem Inv.read (h : Inv server a) (hi : a.phase i = some (q, g)) {c : Call}
    (hr : Reads server (a.shared.view i) q c g g') : g'.Facts server a.shared.db q := by
  have hview := h.view hi
  have hfacts := h.facts i q g hi
  cases hr with
  | lost hno hex =>
    obtain ⟨p, g', ha⟩ := hex
    obtain ⟨p', g'', ha', hp'⟩ := h.again hi ha
    exact absurd hp' (hno _ _ ha')
  | again ha hp =>
    cases ha with
    | bookedSeat hs =>
      rename_i b free
      obtain ⟨u, hq, hheld⟩ := hfacts
      refine ⟨u, hq, hheld, fun hf => ?_⟩
      subst hf hs
      rw [hview (by simp)] at hp
      obtain ⟨seat, hseat, hbooked⟩ := Option.map_eq_some_iff.1 hp
      obtain ⟨hmem, hid⟩ := Table.find?_eq_some.1 hseat
      apply hheld.row.resolve_left
      intro hb
      -- an uncancelled booking is confirmed, so its seat is booked
      have hc : b.status = .confirmed := by
        cases hst : b.status with
        | pending => exact absurd hst (h.consistent.settled b hb)
        | confirmed => rfl
        | cancelled => exact absurd hst hheld.status
      have := (h.consistent.flag seat hmem).2 ⟨b, hb, hid.symm, hc⟩
      rw [hbooked] at this
      cases this
    | _ => exact hfacts
  | route =>
    rw [hview (by simp)]
    unfold routeCheck
    split
    · trivial
    · rename_i route hroute
      split
      · obtain ⟨hmem, hid⟩ := Table.find?_eq_some.1 hroute
        exact ⟨_, _, _, rfl, hmem, hid⟩
      · trivial
  | seat =>
    rw [hview (by simp)]
    obtain ⟨u, r, s, hq, hroute, hid⟩ := hfacts
    cases hq
    unfold seatCheck
    split
    · trivial
    · rename_i seat hseat
      obtain ⟨hmem, hsid⟩ := Table.find?_eq_some.1 hseat
      split
      · trivial
      · rename_i hr
        split
        · trivial
        · exact ⟨_, _, _, rfl, hroute, hid, seat, hmem, hsid, not_not.1 hr⟩
  | booking =>
    rw [hview (by simp)]
    unfold cancelCheck
    split
    · trivial
    · rename_i b hb
      obtain ⟨hmem, hid⟩ := Table.find?_eq_some.1 hb
      split
      · trivial
      · rename_i hu
        split
        · trivial
        · rename_i hst
          exact ⟨_, by rw [hid], ⟨not_not.1 hu, hst, .inl hmem⟩⟩
  | admin => exact adminCheck_ind (fun _ => trivial) trivial _
  | email => exact registerCheck_ind (fun _ => trivial) trivial _
  | login => exact loginCheck_ind (fun _ => trivial) (fun _ => show Request.reads _ = true from rfl) _
  | creator | owner => exact hfacts
  | _ => rfl

/-! ## Changes -/

theorem waits_failing {e : Exc} {c : Call} (h : Waits q (.failing e) c) : c = .rollback := by
  cases q <;> exact h

theorem Reads.not_failing {v : Db} {c : Call} (h : Reads server v q c g g') (e : Exc) :
    g ≠ .failing e := by
  cases h with
  | again ha hp => cases ha <;> simp
  | lost hno hex =>
    obtain ⟨p, g', ha⟩ := hex
    cases ha <;> simp
  | _ => simp

theorem Writes.not_failing {w : World} {c : Call} {ch : Change} (h : Writes server w q c ch g g')
    (e : Exc) : g ≠ .failing e := by
  cases h <;> simp

/-- What a request inserts has vacant keys, and its ids come from the sequences. -/
theorem Inv.fresh (h : Inv server a) (hi : a.phase i = some (q, g)) {c : Call} {ch : Change}
    (hw : Writes server a.shared q c ch g g') (hv : (a.shared.view i).violation ch = none)
    (hins : ch.inserts = true) :
    ∀ k ∈ Db.locks ch, (a.shared.bump c).Below k ∧ ¬ a.shared.db.Occupied k := by
  have hview := h.view hi
  have hbelow (k : LockKey) (hk : ¬ a.shared.Below k) : ¬ a.shared.db.Occupied k :=
    fun ho => hk (h.keyed.below k ho)
  cases hw with
  | mark | confirm | cancel | free => cases hins
  | insertBooking hrow hb =>
    rename_i b
    rw [hview (by simp)] at hv
    have hs := Db.not_occupied_bookingSeat (Db.violation_eq_none.1 hv).2.1
    intro k hk
    simp only [Db.locks, List.mem_cons, List.not_mem_nil, or_false] at hk
    subst hb
    rcases hk with rfl | rfl
    · exact ⟨by simp only [World.Below, World.bump]; omega, hbelow _ (by simp [World.Below])⟩
    · exact ⟨trivial, hs⟩
  | insertRoute hd ha hrow hr =>
    intro k hk
    simp only [Db.locks, List.mem_cons, List.not_mem_nil, or_false] at hk
    subst hr hk
    exact ⟨by simp only [World.Below, World.bump]; omega, hbelow _ (by simp [World.Below])⟩
  | insertUser hrow hu =>
    rename_i u
    rw [hview (by simp)] at hv
    have hs := Db.not_occupied_email (Db.violation_eq_none.1 hv).2.1
    intro k hk
    simp only [Db.locks, List.mem_cons, List.not_mem_nil, or_false] at hk
    subst hu
    rcases hk with rfl | rfl
    · exact ⟨by simp only [World.Below, World.bump]; omega, hbelow _ (by simp [World.Below])⟩
    · exact ⟨trivial, hs⟩
  | insertSeats hid hns hss =>
    rename_i r ns ss
    rw [hview (by simp)] at hv
    intro k hk
    obtain ⟨s, hs, rfl | rfl⟩ := Db.mem_locks_insertSeats.1 hk
    · subst hss
      obtain ⟨-, -, h1, h2⟩ := World.mem_newSeats hs
      refine ⟨by simp only [World.Below, World.bump]; omega, hbelow _ ?_⟩
      simp only [World.Below]
      omega
    · exact ⟨trivial, Db.not_occupied_routeSeat (Db.violation_eq_none.1 hv).2.1 hs⟩

/-- **An `UPDATE` always finds its row.** -/
theorem Inv.update_ok (h : Inv server a) (hi : a.phase i = some (q, g)) {w : World} {c : Call}
    {ch : Change} (hw : Writes server w q c ch g g') (hins : ch.inserts = false) :
    (a.shared.view i).violation ch = none := by
  have hview := h.view hi hw.not_failing
  have hfacts := h.facts i q g hi
  rw [hview, Db.violation_eq_none]
  have hseat {seat : Seat} {id : Int} (hs : seat ∈ a.shared.db.seats.rows) (hid : seat.id = id) :
      (a.shared.db.seats.find? id).isNone = false := by
    rw [← hid, Table.find?_mem hs]
    rfl
  cases hw with
  | insertBooking | insertRoute | insertSeats | insertUser => cases hins
  | mark =>
    obtain ⟨u, r, s, hq, hres⟩ := hfacts
    cases hq
    obtain ⟨seat, hs, hid, -⟩ := hres.seat
    exact ⟨rfl, rfl, hseat hs hid⟩
  | confirm hid =>
    rename_i b
    have hv := h.vacant hi (by simp) (.insertBooking b) (by simp [Stage.writes]) rfl
      (k := .booking b.id) (by simp [Db.locks])
    have hrow : (a.shared.db.bookings.insert b).find? b.id = some b :=
      find?_insert_self fun x hx he => hv ⟨x, hx, he⟩
    refine ⟨rfl, rfl, ?_⟩
    show ((a.shared.db.bookings.insert b).find? _).isNone = false
    rw [hid, hrow]
    rfl
  | cancel hid =>
    obtain ⟨u, -, hheld⟩ := hfacts
    refine ⟨rfl, rfl, ?_⟩
    show (a.shared.db.bookings.find? _).isNone = false
    rcases hheld.find? with hb | hb <;> rw [hid, hb] <;> rfl
  | free hs =>
    obtain ⟨u, -, hheld, -⟩ := hfacts
    obtain ⟨seat, hseat', hid, -⟩ := hheld.seat h.consistent
    exact ⟨rfl, rfl, hseat hseat' (hid.trans hs.symm)⟩

/-- A change is added to the uncommitted changes of the stage. -/
theorem Writes.writes_eq {w : World} {db : Db} {c : Call} {ch : Change}
    (h : Writes server w q c ch g g') (hf : g.Facts server db q) :
    g'.writes = g.writes ++ [ch] := by
  cases h with
  | mark =>
    obtain ⟨u, r, s, hq, hres⟩ := hf
    cases hq
    have hs := congrArg Booking.seatId hres.booking
    simp only at hs
    simp [Stage.writes, hs]
  | confirm hid => simp [Stage.writes, hid]
  | cancel hid => simp [Stage.writes, hid]
  | free hs => simp [Stage.writes, hs]
  | insertSeats hid hns hss => simp [Stage.writes, Job.writes, hss, hns]
  | _ => rfl

/-- What a request knows after a change. -/
theorem Writes.facts {w : World} {db : Db} {c : Call} {ch : Change}
    (h : Writes server w q c ch g g') (hf : g.Facts server db q) : g'.Facts server db q := by
  cases h with
  | insertBooking hrow hb =>
    obtain ⟨u, r, s, hq, hroute, hid, hseat⟩ := hf
    cases hq
    subst hb
    exact ⟨_, _, _, rfl, hroute, hid, hseat, rfl⟩
  | insertRoute hd ha hrow hr =>
    subst hr
    exact ⟨_, _, rfl, _, _, hd, ha, rfl⟩
  | insertUser hrow hu =>
    subst hu
    exact ⟨_, _, rfl, rfl⟩
  | _ => exact hf

/-- Only an `INSERT` breaks a constraint. -/
theorem Inv.insert_of_error (h : Inv server a) (hi : a.phase i = some (q, g)) {c : Call} {ch : Change}
    {e : Exc} {w' : World} (hw : Writes server a.shared q c ch g g')
    (hch : (a.shared.bump c).change i ch = some (.error e, w')) :
    ch.inserts = true ∧ (Store.applyAll Db.schema g.writes a.shared.db).violation ch = some e := by
  obtain ⟨-, hv, -⟩ := change_error hch
  rw [show (a.shared.bump c).view i = a.shared.view i by simp [World.view]] at hv
  cases hins : ch.inserts with
  | true => exact ⟨rfl, h.view hi hw.not_failing ▸ hv⟩
  | false =>
    rw [h.update_ok hi hw hins] at hv
    cases hv

/-! ## Commit -/

/-- **A commit keeps the database consistent** and only lets it evolve. -/
theorem Inv.commit (h : Inv server a) {j : Job} (hi : a.phase i = some (q, .closing j)) :
    (a.shared.commit i).db.Consistent ∧ a.shared.db.Evolves (a.shared.commit i).db := by
  have hview : (a.shared.commit i).db = Store.applyAll Db.schema (Stage.closing j).writes a.shared.db :=
    h.view hi (by simp)
  have hvac (ch : Change) (hch : ch ∈ (Stage.closing j).writes) (hins : ch.inserts = true)
      {k : LockKey} (hk : k ∈ Db.locks ch) : ¬ a.shared.db.Occupied k :=
    h.vacant hi (by simp) ch hch hins hk
  have hfacts := h.facts i _ _ hi
  rw [hview]
  cases j with
  | create b route =>
    obtain ⟨u, r, s, -, hres⟩ := hfacts
    have hid := hvac (.insertBooking b) (by simp [Stage.writes, Job.writes]) rfl
      (k := .booking b.id) (by simp [Db.locks])
    have hfree := hvac (.insertBooking b) (by simp [Stage.writes, Job.writes]) rfl
      (k := .bookingSeat b.seatId) (by simp [Db.locks])
    obtain ⟨seat, hseat, hsid, hsr⟩ := hres.seat
    have hb := hres.booking
    refine ⟨h.consistent.create route seat hid hfree hres.route ?_ ?_ hseat ?_ ?_,
      Db.evolves_create hid⟩
    · rw [hres.routeId, hb]
    · rw [hb]
    · rw [hsid, hb]
    · rw [hsr, hb]
  | cancel b free =>
    obtain ⟨u, -, hheld, hfree⟩ := hfacts
    have hrow : ∃ b₀ ∈ a.shared.db.bookings.rows, b₀.id = b.id ∧ b₀.seatId = b.seatId := by
      rcases hheld.row with hb | hb
      · exact ⟨_, hb, rfl, rfl⟩
      · exact ⟨_, hb, rfl, rfl⟩
    obtain ⟨b₀, hb₀, hid, hseat⟩ := hrow
    cases free with
    | true =>
      refine ⟨?_, (Db.evolves_cancel _ b.id).trans (Db.evolves_updateSeat _ b.seatId false)⟩
      have := h.consistent.cancel hb₀
      rw [hid, hseat] at this
      exact this
    | false =>
      have hc := hfree rfl
      have hsame : a.shared.db.updateBooking b.id .cancelled = a.shared.db := by
        apply Db.updateBooking_cancelled
        intro x hx he
        rw [Table.eq_of_key hx hc he]
        rfl
      refine ⟨?_, Db.evolves_cancel _ b.id⟩
      show (a.shared.db.updateBooking b.id .cancelled).Consistent
      rw [hsame]
      exact h.consistent
  | route r first =>
    have hrid := hvac (.insertRoute r) (by simp [Stage.writes, Job.writes]) rfl
      (k := .route r.id) (by simp [Db.locks])
    obtain ⟨u, p, -, dep, arr, -, -, hr⟩ := hfacts
    have hcap : 0 < r.totalSeats := by
      rw [hr]
      exact p.totalSeats_bound.1
    refine ⟨h.consistent.route hrid hcap (World.newSeats_nodup _ _ _) (fun s hs => ?_)
      (fun s hs => (World.mem_newSeats hs).1) (fun s hs => (World.mem_newSeats hs).2.1)
      (World.newSeats_numbers _ _ _),
      (Db.evolves_insert _ (.insertRoute r) rfl).trans
        (Db.evolves_insert _ (.insertSeats _) rfl)⟩
    exact hvac (.insertSeats _) (by simp [Stage.writes, Job.writes]) rfl
      (Db.mem_locks_insertSeats.2 ⟨s, hs, .inl rfl⟩)
  | register u =>
    exact ⟨⟨h.consistent.seatRoute, h.consistent.capacity, h.consistent.seating, h.consistent.settled,
      h.consistent.bookingSeat, h.consistent.bookingPrice, h.consistent.oneBooking,
      h.consistent.flag⟩, Db.evolves_insert _ (.insertUser u) rfl⟩
  | read resp => exact ⟨h.consistent, .refl _⟩

/-- What the commit of a new booking changes. -/
theorem Inv.commit_create (h : Inv server a) {b : Booking} {route : Route}
    (hi : a.phase i = some (q, .closing (.create b route))) :
    (a.shared.commit i).db.users = a.shared.db.users ∧ (a.shared.commit i).db.routes = a.shared.db.routes ∧
      (a.shared.commit i).db.seats = (a.shared.db.updateSeat b.seatId true).seats ∧
      (a.shared.commit i).db.bookings.rows = a.shared.db.bookings.rows ++ [Db.setStatus .confirmed b] := by
  have hview : (a.shared.commit i).db = _ := h.view hi (by simp)
  have hid : ¬ a.shared.db.Occupied (.booking b.id) :=
    h.vacant hi (by simp) (.insertBooking b) (by simp [Stage.writes, Job.writes]) rfl (by simp [Db.locks])
  rw [hview]
  exact Db.applyAll_create hid

/-- What the commit of a cancellation changes. -/
theorem Inv.commit_cancel (h : Inv server a) {b : Booking} {free : Bool}
    (hi : a.phase i = some (q, .closing (.cancel b free))) :
    (a.shared.commit i).db.users = a.shared.db.users ∧ (a.shared.commit i).db.routes = a.shared.db.routes ∧
      (a.shared.commit i).db.seats =
        (if free then a.shared.db.updateSeat b.seatId false else a.shared.db).seats ∧
      (a.shared.commit i).db.bookings = (a.shared.db.updateBooking b.id .cancelled).bookings := by
  have hview : (a.shared.commit i).db = _ := h.view hi (by simp)
  rw [hview]
  cases free with
  | true => exact ⟨rfl, rfl, rfl, rfl⟩
  | false => exact ⟨rfl, rfl, rfl, rfl⟩

/-! ## Steps and runs -/

/-- A change leaves the committed database and the other requests' changes. -/
theorem Inv.write (h : Inv server a) (hi : a.phase i = some (q, g)) {c : Call} {ch : Change}
    {w' : World} (hne : ∀ e, g ≠ .failing e) (hw : Writes server a.shared q c ch g g')
    (hch : (a.shared.bump c).change i ch = some (.ok (), w')) :
    Inv server ⟨w', Function.update a.phase i (some (q, g'))⟩ := by
  obtain ⟨hb, hv, rfl⟩ := change_ok hch
  have hf := h.facts i q g hi
  have hb' : a.shared.pg.blocked i ch = false := by simpa using hb
  have hv' : (a.shared.view i).violation ch = none := by simpa [World.view] using hv
  refine h.advance (by simpa [World.db] using h.consistent) ?_ (fun _ => ?_) (fun j hj => ?_)
    (by simpa [World.db] using Db.Evolves.refl _) (by simpa [World.db] using hw.facts hf)
  · apply (h.keyed.bump c).write hb (Db.violation_eq_none.1 hv').1
    intro hins k hk
    simpa [World.db] using h.fresh hi hw hv' hins k hk
  · rw [hw.writes_eq hf, ← h.own i q g hi hne]
    simp
  · simp [Store.own_write_ne _ _ hj]

theorem World.Keyed.congr {w w' : World} (h : w.Keyed) (hpg : w'.pg = w.pg)
    (hb : ∀ k, w.Below k → w'.Below k) : w'.Keyed where
  below k hk := hb k (h.below k (by simpa [World.db, hpg] using hk))
  pendingBelow p hp hi k hk := hb k (h.pendingBelow p (hpg ▸ hp) hi k hk)
  vacant p hp hi k hk := by simpa [World.db, hpg] using h.vacant p (hpg ▸ hp) hi k hk
  fits p hp := h.fits p (hpg ▸ hp)
  routesFit r hr := h.routesFit r (by simpa [World.db, hpg] using hr)

theorem writes_afterDelete (j : Job) : (Stage.afterDelete j).writes = j.writes := by
  cases j <;> rfl

theorem facts_afterDelete {db : Db} {j : Job} (h : j.Facts server db q) :
    (Stage.afterDelete j).Facts server db q := by
  cases j <;> exact h

theorem writes_afterPublish (j : Job) : (Stage.afterPublish j).writes = j.writes := by
  cases j with
  | cancel b free => cases free <;> rfl
  | _ => rfl

theorem facts_afterPublish {db : Db} {j : Job} (h : j.Facts server db q) :
    (Stage.afterPublish j).Facts server db q := by
  cases j with
  | cancel b free => cases free <;> exact h
  | _ => exact h

theorem World.evolves_updateUser (w : World) (id : Int) {f : User → User} (hid : ∀ u, (f u).id = u.id)
    (hemail : ∀ u, (f u).email = u.email) : w.db.Evolves (w.updateUser id f hid).db :=
  ⟨fun u hu => ⟨_, (Table.mem_update hid).2 ⟨u, hu, rfl⟩, by split <;> simp [hid],
    by split <;> simp [hemail]⟩, fun _ hr => hr, fun s hs => ⟨s.isBooked, hs⟩, fun _ => .inl⟩

/-- A direct change of a user's row. -/
theorem Inv.updateUser (h : Inv server a) {id : Int} {f : User → User}
    (hid : ∀ u, (f u).id = u.id) (hemail : ∀ u, (f u).email = u.email) :
    Inv server ⟨a.shared.updateUser id f hid, a.phase⟩ := by
  have hmem {u : User} (hu : u ∈ (a.shared.updateUser id f hid).db.users.rows) :
      ∃ u' ∈ a.shared.db.users.rows, u'.id = u.id ∧ u'.email = u.email := by
    obtain ⟨u', hu', rfl⟩ := (Table.mem_update hid).1 hu
    exact ⟨u', hu', by split <;> simp [hid], by split <;> simp [hemail]⟩
  have hocc {k : LockKey} (hk : (a.shared.updateUser id f hid).db.Occupied k) :
      a.shared.db.Occupied k := by
    cases k with
    | user id' =>
      obtain ⟨u, hu, rfl⟩ := hk
      obtain ⟨u', hu', h1, -⟩ := hmem hu
      exact ⟨u', hu', h1⟩
    | email e =>
      obtain ⟨u, hu, rfl⟩ := hk
      obtain ⟨u', hu', -, h2⟩ := hmem hu
      exact ⟨u', hu', h2⟩
    | _ => exact hk
  have hev := a.shared.evolves_updateUser id hid hemail
  exact ⟨⟨h.consistent.seatRoute, h.consistent.capacity, h.consistent.seating, h.consistent.settled,
      h.consistent.bookingSeat, h.consistent.bookingPrice, h.consistent.oneBooking,
      h.consistent.flag⟩,
    ⟨fun k hk => h.keyed.below k (hocc hk), h.keyed.pendingBelow,
      fun p hp hi k hk ho => h.keyed.vacant p hp hi k hk (hocc ho), h.keyed.fits,
      h.keyed.routesFit⟩,
    h.own, h.idle, fun i q g hi => (h.facts i q g hi).mono hev⟩

theorem Inv.env (h : Inv server a) {w' : World} {e : EnvEvent} (he : envStep e a.shared = some w') :
    Inv server ⟨w', a.phase⟩ := by
  cases e with
  | expire key =>
    cases he
    exact ⟨h.consistent, h.keyed.congr rfl fun _ hk => hk, h.own, h.idle, h.facts⟩
  | setActive userId isActive =>
    cases he
    exact h.updateUser (f := fun u => { u with isActive }) (fun _ => rfl) fun _ => rfl
  | setRole userId role =>
    cases he
    exact h.updateUser (f := fun u => { u with role }) (fun _ => rfl) fun _ => rfl

/-- **Every step keeps the invariant.** -/
theorem Inv.step (h : Inv server a) {l : Label} {c : Option Call} {a' : Abs World Request Stage}
    (hs : (protocol server).Step envStep a l c a') : Inv server a' := by
  cases hs with
  | env he => exact h.env he
  | spawn hi =>
    refine h.advance h.consistent h.keyed (fun _ => h.idle _ hi) (fun _ _ => rfl) (.refl _) ?_
    exact trivial
  | run hi hw hst =>
    rename_i o i q g g' c w'
    have hf := h.facts i q g hi
    cases hst with
    | fail hc hg =>
      refine h.quiet hi (fun e he => hc ?_) rfl h.keyed (fun he => absurd rfl (he _)) trivial
      subst he
      exact waits_failing hw
    | read hr =>
      have hf' := h.read hi hr
      refine h.quiet hi hr.not_failing rfl h.keyed (fun _ => hr.writes_eq fun hl => ?_) hf'
      subst hl
      exact hf'
    | write hwr hch => exact h.write hi hwr.not_failing hwr hch
    | writeFails hwr hch =>
      obtain ⟨-, -, rfl⟩ := change_error hch
      exact h.quiet hi hwr.not_failing (World.pg_bump _ _) (h.keyed.bump _)
        (fun he => absurd rfl (he _)) trivial
    | cachedRoutes hq hk | cachedSeats hq hk =>
      have hreads : q.reads = true := by rw [hq]; rfl
      exact h.quiet hi (by simp) rfl h.keyed
        (fun _ => cacheCheck_ind (fun _ => rfl) rfl (fun _ => rfl) _)
        (cacheCheck_ind (fun _ => trivial) hreads (fun _ => hreads) _)
    | store => exact h.quiet hi (by simp) rfl (h.keyed.congr rfl fun _ hk => hk) (fun _ => rfl) hf
    | keys hp =>
      refine h.quiet hi (by simp) rfl h.keyed (fun _ => ?_) ?_
      · unfold Stage.afterKeys
        split
        · exact writes_afterDelete _
        · rfl
      · unfold Stage.afterKeys
        split
        · exact facts_afterDelete hf
        · exact hf
    | delete =>
      exact h.quiet hi (by simp) rfl (h.keyed.congr rfl fun _ hk => hk)
        (fun _ => writes_afterDelete _) (facts_afterDelete hf)
    | publish he hq =>
      exact h.quiet hi (by simp) rfl (h.keyed.congr rfl fun _ hk => hk)
        (fun _ => writes_afterPublish _) (facts_afterPublish hf)
    | commit =>
      obtain ⟨hc, hev⟩ := h.commit hi
      exact h.advance hc h.keyed.commit (fun _ => Store.own_commit_self _ _)
        (fun j hj => Store.own_commit_ne _ _ hj) hev trivial
    | rollback =>
      exact h.advance h.consistent h.keyed.rollback (fun _ => Store.own_rollback_self _ _)
        (fun j hj => Store.own_rollback_ne _ _ hj) (.refl _) trivial
    | lost => exact hf.elim

end

end BusBookings
