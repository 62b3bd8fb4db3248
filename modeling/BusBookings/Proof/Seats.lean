import BusBookings.Proof.Runs

/-!
# The seat flag and the booking status agree

In every run, whatever the order of the calls and wherever requests fail, a committed seat is booked
exactly when one confirmed booking refers to it (`booked_iff_confirmed`), and the confirmed bookings
of a route are as many as its booked seats.
-/

namespace BusBookings

open Async

namespace Db

variable {db : Db}

/-- The confirmed bookings of a route. -/
def confirmedOf (db : Db) (routeId : Int) : List Booking :=
  db.bookings.rows.filter fun b => b.routeId = routeId ∧ b.status = .confirmed

/-- The booked seats of a route. -/
def bookedOf (db : Db) (routeId : Int) : List Seat :=
  db.seats.rows.filter fun s => s.routeId = routeId ∧ s.isBooked = true

theorem mem_confirmedOf {routeId : Int} {b : Booking} :
    b ∈ db.confirmedOf routeId ↔ b ∈ db.bookings.rows ∧ b.routeId = routeId ∧ b.status = .confirmed := by
  simp [confirmedOf]

theorem mem_bookedOf {routeId : Int} {s : Seat} :
    s ∈ db.bookedOf routeId ↔ s ∈ db.seats.rows ∧ s.routeId = routeId ∧ s.isBooked = true := by
  simp [bookedOf]

namespace Consistent

/-- Of a booked seat there is exactly one confirmed booking. -/
theorem flag_unique (h : Consistent db) {s : Seat} (hs : s ∈ db.seats.rows) : s.isBooked = true ↔
    ∃! b, b ∈ db.bookings.rows ∧ b.seatId = s.id ∧ b.status = .confirmed := by
  rw [h.flag s hs]
  constructor
  · intro ⟨b, hb, hbs, hc⟩
    exact ⟨b, ⟨hb, hbs, hc⟩, fun b' hb' => h.oneBooking b' hb'.1 b hb (hb'.2.1.trans hbs.symm)⟩
  · intro ⟨b, ⟨hb, hbs, hc⟩, _⟩
    exact ⟨b, hb, hbs, hc⟩

/-- The seats of the confirmed bookings of a route are its booked seats. -/
theorem seats_perm (h : Consistent db) (routeId : Int) :
    ((db.confirmedOf routeId).map (·.seatId)).Perm ((db.bookedOf routeId).map (·.id)) := by
  have hb : ((db.confirmedOf routeId).map (·.seatId)).Nodup := by
    refine List.Nodup.map_on (fun b hb b' hb' he => ?_) ?_
    · exact h.oneBooking b (mem_confirmedOf.1 hb).1 b' (mem_confirmedOf.1 hb').1 he
    · exact (List.Nodup.of_map _ db.bookings.nodup).filter _
  have hs : ((db.bookedOf routeId).map (·.id)).Nodup :=
    (db.seats.nodup.sublist ((List.filter_sublist (l := db.seats.rows)).map Seat.id))
  apply (List.perm_ext_iff_of_nodup hb hs).2
  intro id
  simp only [List.mem_map, mem_confirmedOf, mem_bookedOf]
  constructor
  · rintro ⟨b, ⟨hb, hr, hc⟩, rfl⟩
    obtain ⟨s, hs, hid, hsr⟩ := h.bookingSeat b hb
    exact ⟨s, ⟨hs, hsr.trans hr, (h.flag s hs).2 ⟨b, hb, hid.symm, hc⟩⟩, hid⟩
  · rintro ⟨s, ⟨hs, hr, hf⟩, rfl⟩
    obtain ⟨b, hb, hbs, hc⟩ := (h.flag s hs).1 hf
    obtain ⟨s', hs', hid, hsr⟩ := h.bookingSeat b hb
    have : s' = s := Table.eq_of_key hs' hs (hid.trans hbs)
    exact ⟨b, ⟨hb, by rw [← hsr, this, hr], hc⟩, hbs⟩

theorem length_bookedOf_le (h : Consistent db) {r : Route} (hr : r ∈ db.routes.rows) :
    ((db.bookedOf r.id).length : Int) ≤ r.totalSeats := by
  have hle : (db.bookedOf r.id).length ≤ (db.seats.rows.filter (·.routeId = r.id)).length := by
    unfold bookedOf
    rw [← List.countP_eq_length_filter, ← List.countP_eq_length_filter]
    apply List.countP_mono_left
    intro s _ hs
    simp only [decide_eq_true_eq] at hs ⊢
    exact hs.1
  have hlen : (db.seats.rows.filter (·.routeId = r.id)).length = r.totalSeats.toNat := by
    have := congrArg List.length (h.seating r hr)
    simpa [RouteRepository.seatNumbers] using this
  have := h.capacity r hr
  omega

end Consistent

end Db

/-- **In every run the committed seat flags and bookings agree**: a seat is booked iff exactly one
confirmed booking refers to it, no booking is pending, a booking has its seat's route and its
route's price, and a route's confirmed bookings are as many as its booked seats, at most
`total_seats`. -/
theorem booked_iff_confirmed {server : Server} {sys : System} (h : Reachable server sys) :
    (∀ s ∈ sys.shared.db.seats.rows, s.isBooked = true ↔
      ∃! b, b ∈ sys.shared.db.bookings.rows ∧ b.seatId = s.id ∧ b.status = .confirmed) ∧
    (∀ b ∈ sys.shared.db.bookings.rows, b.status ≠ .pending ∧
      (∃ s ∈ sys.shared.db.seats.rows, s.id = b.seatId ∧ s.routeId = b.routeId) ∧
      ∃ r ∈ sys.shared.db.routes.rows, r.id = b.routeId ∧ r.price = b.totalPrice) ∧
    ∀ r ∈ sys.shared.db.routes.rows,
      (sys.shared.db.confirmedOf r.id).length = (sys.shared.db.bookedOf r.id).length ∧
        ((sys.shared.db.confirmedOf r.id).length : Int) ≤ r.totalSeats := by
  have hc := h.consistent
  refine ⟨fun s hs => hc.flag_unique hs, fun b hb => ?_, fun r hr => ?_⟩
  · exact ⟨hc.settled b hb, hc.bookingSeat b hb, hc.bookingPrice b hb⟩
  · have hlen : (sys.shared.db.confirmedOf r.id).length = (sys.shared.db.bookedOf r.id).length := by
      simpa using (hc.seats_perm r.id).length_eq
    exact ⟨hlen, hlen ▸ hc.length_bookedOf_le hr⟩

/-- Two overlapping bookings of seat 1 and a booking of seat 2 that is cancelled twice at once. -/
def overlapping : List Label := routeCreated ++
  [.spawn (.createBooking 2 1 1), .spawn (.createBooking 3 1 1)] ++ calls 1 2 ++ calls 2 2 ++
  calls 1 11 ++ calls 2 2 ++ .spawn (.createBooking 2 1 2) :: calls 3 13 ++
  [.spawn (.cancelBooking 2 3), .spawn (.cancelBooking 2 3)] ++ calls 4 2 ++ calls 5 2 ++ calls 4 8 ++
  calls 5 7

theorem booked_iff_confirmed_overlapping : ∃ sys, runSome overlapping = some sys ∧
    ∀ s ∈ sys.shared.db.seats.rows, s.isBooked = true ↔
      ∃! b, b ∈ sys.shared.db.bookings.rows ∧ b.seatId = s.id ∧ b.status = .confirmed := by
  have hsome : (runSome overlapping).isSome = true := by decide +kernel
  obtain ⟨sys, hsys⟩ := Option.isSome_iff_exists.1 hsome
  exact ⟨sys, hsys, (booked_iff_confirmed (reachable_runSome hsys)).1⟩

end BusBookings
