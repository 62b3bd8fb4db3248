import BusBookings.Proof.Alone

/-!
# Booking a free seat

`create_booking` checks the flag `is_booked`, the schema the uniqueness of `bookings.seat_id`. A
cancelled booking frees the flag and keeps its row, so a seat that was booked before passes the check
and breaks the constraint: a booking of a free seat succeeds exactly when no booking row refers to
the seat (`createBooking_succeeds_iff`).
-/

namespace BusBookings

open Async ReadCommitted

/-- A user, an active route and a free seat of it. -/
structure Bookable (db : Db) (user : User) (route : Route) (seat : Seat) : Prop where
  userRow : user ∈ db.users.rows
  routeRow : route ∈ db.routes.rows
  active : route.isActive = true
  seatRow : seat ∈ db.seats.rows
  onRoute : seat.routeId = route.id
  free : seat.isBooked = false

/-- `create_booking` has succeeded: its booking and the booked seat are committed. -/
structure Booked (user : User) (seat : Seat) (b : Booking) (db : Db) : Prop where
  byUser : b.userId = user.id
  ofSeat : b.seatId = seat.id
  confirmed : b.status = .confirmed
  row : b ∈ db.bookings.rows
  flag : ∃ s ∈ db.seats.rows, s.id = seat.id ∧ s.isBooked = true

section

variable {server : Server} {ph : Nat → Option (Request × Stage)} {i : Nat} {db₀ : Db} {user : User}
  {route : Route} {seat : Seat} {w w' : World} {g g' : Stage} {c : Call}

theorem Bookable.routeCheck (h : Bookable db₀ user route seat) :
    routeCheck (db₀.routes.find? route.id) = .routeRead route := by
  rw [Table.find?_mem h.routeRow]
  simp [BusBookings.routeCheck, h.active]

theorem Bookable.seatCheck (h : Bookable db₀ user route seat) (rt : Route) :
    seatCheck route.id rt (db₀.seats.find? seat.id) = .seatRead rt := by
  rw [Table.find?_mem h.seatRow]
  simp [BusBookings.seatCheck, h.onRoute, h.free]

/-- The only constraint the new booking can break is the uniqueness of its seat. -/
theorem Bookable.violation (h : Bookable db₀ user route seat) {b : Booking}
    (hb : b = ⟨b.id, user.id, route.id, seat.id, .pending, route.price⟩)
    (hfits : Db.fits (.insertRoute route) = true) :
    db₀.violation (.insertBooking b) =
      if db₀.bookings.rows.any (·.seatId = seat.id) then some .integrity else none := by
  have hprice : Db.fits (.insertBooking b) = true := by
    rw [hb]
    simp only [Db.fits, Bool.and_eq_true] at hfits ⊢
    exact hfits.2
  have hconf : db₀.conflicts (.insertBooking b) = db₀.bookings.rows.any (·.seatId = seat.id) := by
    rw [hb]
    simp [Db.conflicts, Table.find?_mem h.userRow, Table.find?_mem h.routeRow, Table.find?_mem h.seatRow]
  unfold Db.violation
  rw [hprice, hconf]
  cases db₀.bookings.rows.any (·.seatId = seat.id) <;> rfl

/-- The stages of a booking that succeeds. -/
def Succeeding (db₀ : Db) (user : User) (seat : Seat) : Stage → World → Prop
  | .ended resp, w => ∃ b, resp = .created b ∧ Booked user seat b w.db
  | .start, w | .routeRead _, w | .seatRead _, w | .inserted .., w | .marked .., w
  | .confirmed .., w | .invalidating _, w | .deleting .., w | .invalidated _, w | .notifying .., w
  | .closing _, w => w.db = db₀
  | _, _ => False

/-- The stages of a booking that breaks the constraint. -/
def Conflicting (db₀ : Db) : Stage → World → Prop
  | .ended resp, w => resp = errorResponse .integrity ∧ w.db = db₀
  | .failing e, w => e = .integrity ∧ w.db = db₀
  | .start, w | .routeRead _, w | .seatRead _, w => w.db = db₀
  | _, _ => False

theorem succeeding_step (hbook : Bookable db₀ user route seat)
    (hnew : ∀ b ∈ db₀.bookings.rows, b.seatId ≠ seat.id)
    (h : Solo server ph i (.createBooking user.id route.id seat.id) g w)
    (h' : Solo server ph i (.createBooking user.id route.id seat.id) g' w')
    (hI : Succeeding db₀ user seat g w) (hw : Waits (.createBooking user.id route.id seat.id) g c)
    (hs : Step server (.createBooking user.id route.id seat.id) i .ok c g w g' w') :
    Succeeding db₀ user seat g' w' := by
  have hfacts := h.facts
  cases hs with
  | read hr =>
    have hview := h.view hr.not_failing
    cases hr with
    | again ha hp => cases ha <;> exact hI
    | lost => exact absurd rfl h'.ne_lost
    | route =>
      rw [hview]
      simp only [Stage.writes, Store.applyAll_nil, show w.db = db₀ from hI, hbook.routeCheck]
      exact hI
    | seat =>
      rw [hview]
      simp only [Stage.writes, Store.applyAll_nil, show w.db = db₀ from hI, hbook.seatCheck]
      exact hI
    | creator => exact hI
  | write hwr hch =>
    obtain ⟨-, -, rfl⟩ := change_ok hch
    cases hwr with
    | insertBooking | mark | confirm => simpa [Succeeding, World.db] using hI
    | free => exact hI.elim
  | writeFails hwr hch =>
    exfalso
    obtain ⟨hins, hv⟩ := h.insert_of_error hwr hch
    cases hwr with
    | insertBooking hrow hb =>
      rename_i rt row b
      obtain ⟨u, r, s, hq, hroute, hid, -⟩ := hfacts
      cases hq
      have hdb : w.db = db₀ := hI
      have hrt : rt = route := Table.eq_of_key (hdb ▸ hroute) hbook.routeRow hid
      subst hrt
      have hany : db₀.bookings.rows.any (·.seatId = seat.id) = false := by
        rw [List.any_eq_false]
        exact fun x hx => by simpa using hnew x hx
      simp only [Stage.writes, Store.applyAll_nil, hdb, hbook.violation (b := b) (by rw [hb])
        (h.inv.keyed.routesFit rt hroute), hany] at hv
      cases hv
    | mark | confirm | free => cases hins
  | keys hp =>
    obtain ⟨b, rt, rfl, -⟩ := Job.Facts.isCreate hfacts
    unfold Stage.afterKeys
    split <;> exact hI
  | delete =>
    obtain ⟨b, rt, rfl, -⟩ := Job.Facts.isCreate hfacts
    exact hI
  | publish he hq =>
    obtain ⟨b, rt, rfl, -⟩ := Job.Facts.isCreate hfacts
    exact hI
  | commit =>
    obtain ⟨b, rt, rfl, hres⟩ := Job.Facts.isCreate hfacts
    have hdb : w.db = db₀ := hI
    have hb := hres.booking
    have hid : ¬ w.db.Occupied (.booking b.id) :=
      h.vacant (by simp) (.insertBooking b) (by simp [Stage.writes, Job.writes]) rfl
        (by simp [Db.locks])
    obtain ⟨-, -, hseats, hrows⟩ := Db.applyAll_create hid
    have hcommit : (w.commit i).db = Store.applyAll Db.schema (Stage.closing (.create b rt)).writes w.db :=
      h.view (by simp)
    refine ⟨_, rfl, by rw [hb]; rfl, by rw [hb]; rfl, rfl, ?_, Db.setBooked true seat, ?_, rfl, rfl⟩
    · rw [hcommit]
      simp only [Stage.writes, Job.writes]
      rw [hrows]
      simp
    · rw [hcommit]
      simp only [Stage.writes, Job.writes]
      rw [hseats, show b.seatId = seat.id by rw [hb]]
      exact Db.updateSeat_self (hdb ▸ hbook.seatRow)
  | cachedRoutes hq hk => cases hq
  | cachedSeats hq hk => cases hq
  | store => cases hI
  | rollback => exact hI.elim
  | lost => exact hI.elim

theorem conflicting_step (hbook : Bookable db₀ user route seat)
    (hold : ∃ b ∈ db₀.bookings.rows, b.seatId = seat.id)
    (h : Solo server ph i (.createBooking user.id route.id seat.id) g w)
    (h' : Solo server ph i (.createBooking user.id route.id seat.id) g' w')
    (hI : Conflicting db₀ g w)
    (hs : Step server (.createBooking user.id route.id seat.id) i .ok c g w g' w') :
    Conflicting db₀ g' w' := by
  have hfacts := h.facts
  have hany : db₀.bookings.rows.any (·.seatId = seat.id) = true := by
    obtain ⟨b, hb, he⟩ := hold
    exact List.any_eq_true.2 ⟨b, hb, by simp [he]⟩
  -- the insertion is where the two runs part
  have hviolation {rt : Route} {b : Booking} (hg : g = .seatRead rt)
      (hb : b = ⟨w.nextBooking, user.id, route.id, seat.id, .pending, rt.price⟩) :
      (w.view i).violation (.insertBooking b) = some .integrity := by
    subst hg
    obtain ⟨u, r, s, hq, hroute, hid, -⟩ := hfacts
    cases hq
    have hdb : w.db = db₀ := hI
    have hrt : rt = route := Table.eq_of_key (hdb ▸ hroute) hbook.routeRow hid
    subst hrt
    rw [h.view (by simp)]
    simp only [Stage.writes, Store.applyAll_nil, hdb, hbook.violation (b := b) (by rw [hb])
      (h.inv.keyed.routesFit rt hroute), hany, if_true]
  cases hs with
  | read hr =>
    have hview := h.view hr.not_failing
    cases hr with
    | again ha hp => cases ha <;> exact hI.elim
    | lost => exact absurd rfl h'.ne_lost
    | route =>
      rw [hview]
      simp only [Stage.writes, Store.applyAll_nil, show w.db = db₀ from hI, hbook.routeCheck]
      exact hI
    | seat =>
      rw [hview]
      simp only [Stage.writes, Store.applyAll_nil, show w.db = db₀ from hI, hbook.seatCheck]
      exact hI
    | creator => exact hI.elim
  | write hwr hch =>
    obtain ⟨-, hv, -⟩ := change_ok hch
    rw [show (w.bump c).view i = w.view i by simp [World.view]] at hv
    cases hwr with
    | insertBooking hrow hb =>
      rw [hviolation rfl hb] at hv
      cases hv
    | mark | confirm | free => exact hI.elim
  | writeFails hwr hch =>
    obtain ⟨-, hv, rfl⟩ := change_error hch
    rw [show (w.bump c).view i = w.view i by simp [World.view]] at hv
    cases hwr with
    | insertBooking hrow hb =>
      rw [hviolation rfl hb] at hv
      cases hv
      exact ⟨rfl, hI⟩
    | mark | confirm | free => exact hI.elim
  | rollback =>
    obtain ⟨rfl, hdb⟩ := hI
    exact ⟨rfl, hdb⟩
  | cachedRoutes hq hk => cases hq
  | cachedSeats hq hk => cases hq
  | _ => exact hI.elim

end

section

variable {server : Server} {sys : System} {user : User} {route : Route} {seat : Seat}

/-- A seat without a booking row is booked. -/
theorem createBooking_succeeds (h : Reachable server sys) (hq : sys.Quiescent)
    (hbook : Bookable sys.shared.db user route seat)
    (hnew : ∀ b ∈ sys.shared.db.bookings.rows, b.seatId ≠ seat.id) :
    ∃ b w, alone server sys (.createBooking user.id route.id seat.id) = some (.created b, w) ∧
      Booked user seat b w.db := by
  obtain ⟨ph, hsolo⟩ := h.solo hq (.createBooking user.id route.id seat.id)
  obtain ⟨resp, w, hrun, b, rfl, hb⟩ := alone_spec (I := Succeeding sys.shared.db user seat) hsolo rfl
    fun _ _ _ _ _ h h' hI hw hs => succeeding_step hbook hnew h h' hI hw hs
  exact ⟨b, w, hrun, hb⟩

/-- A seat with a booking row, cancelled or not, is answered 500 and nothing is committed. -/
theorem createBooking_conflicts (h : Reachable server sys) (hq : sys.Quiescent)
    (hbook : Bookable sys.shared.db user route seat)
    (hold : ∃ b ∈ sys.shared.db.bookings.rows, b.seatId = seat.id) :
    ∃ w, alone server sys (.createBooking user.id route.id seat.id) =
      some (errorResponse .integrity, w) ∧ w.db = sys.shared.db := by
  obtain ⟨ph, hsolo⟩ := h.solo hq (.createBooking user.id route.id seat.id)
  obtain ⟨resp, w, hrun, rfl, hdb⟩ := alone_spec (I := Conflicting sys.shared.db) hsolo rfl
    fun _ _ _ _ _ h h' hI _ hs => conflicting_step hbook hold h h' hI hs
  exact ⟨w, hrun, hdb⟩

/-- **A booking of a free seat succeeds exactly when no booking row refers to the seat.** -/
theorem createBooking_succeeds_iff (h : Reachable server sys) (hq : sys.Quiescent)
    (hbook : Bookable sys.shared.db user route seat) :
    (∃ b w, alone server sys (.createBooking user.id route.id seat.id) = some (.created b, w) ∧
      Booked user seat b w.db) ↔ ∀ b ∈ sys.shared.db.bookings.rows, b.seatId ≠ seat.id := by
  refine ⟨fun ⟨b, w, hrun, _⟩ b' hb' he => ?_, createBooking_succeeds h hq hbook⟩
  obtain ⟨w', hrun', -⟩ := createBooking_conflicts h hq hbook ⟨b', hb', he⟩
  rw [hrun] at hrun'
  cases hrun'

end

/-! ## A seat that is booked again -/

instance (db : Db) (user : User) (route : Route) (seat : Seat) : Decidable (Bookable db user route seat) :=
  decidable_of_iff (user ∈ db.users.rows ∧ route ∈ db.routes.rows ∧ route.isActive = true ∧
    seat ∈ db.seats.rows ∧ seat.routeId = route.id ∧ seat.isBooked = false)
    ⟨fun ⟨h1, h2, h3, h4, h5, h6⟩ => ⟨h1, h2, h3, h4, h5, h6⟩,
      fun ⟨h1, h2, h3, h4, h5, h6⟩ => ⟨h1, h2, h3, h4, h5, h6⟩⟩

theorem createBooking_succeeds_iff_first : ∃ sys, runSome routeCreated = some sys ∧
    ((∃ b w, alone plainServer sys (.createBooking someUser.id someRoute.id someSeat.id) =
        some (.created b, w) ∧ Booked someUser someSeat b w.db) ↔
      ∀ b ∈ sys.shared.db.bookings.rows, b.seatId ≠ someSeat.id) := by
  obtain ⟨sys, hsys, hq, hbook⟩ := exists_runSome routeCreated
    (fun sys => sys.Quiescent ∧ Bookable sys.shared.db someUser someRoute someSeat)
    (by decide +kernel)
  exact ⟨sys, hsys, createBooking_succeeds_iff (reachable_runSome hsys) hq hbook⟩

/-- Ann books seat 1 and cancels her booking. -/
def bookedAndCancelled : List Label := routeCreated ++
  .spawn (.createBooking 2 1 1) :: calls 1 13 ++ .spawn (.cancelBooking 2 1) :: calls 2 10

/-- The seat Ann has given back is free, and nobody can book it. -/
theorem createBooking_fails_after_cancel : ∃ sys, runSome bookedAndCancelled = some sys ∧
    Reachable plainServer sys ∧ sys.Quiescent ∧ Bookable sys.shared.db someUser someRoute someSeat ∧
    (alone plainServer sys (.createBooking 2 1 1)).map (·.1) = some (errorResponse .integrity) ∧
    ¬ ∃ b w, alone plainServer sys (.createBooking 2 1 1) = some (.created b, w) := by
  obtain ⟨sys, hsys, hq, hbook, hrun⟩ := exists_runSome bookedAndCancelled
    (fun sys => sys.Quiescent ∧ Bookable sys.shared.db someUser someRoute someSeat ∧
      (alone plainServer sys (.createBooking 2 1 1)).map (·.1) = some (errorResponse .integrity))
    (by decide +kernel)
  refine ⟨sys, hsys, reachable_runSome hsys, hq, hbook, hrun, ?_⟩
  intro ⟨b, w, hb⟩
  rw [hb] at hrun
  cases hrun

end BusBookings
