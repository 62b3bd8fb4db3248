import BusBookings.App.World
import BusBookings.App.Repositories

/-!
# What a committed database holds

* `Db.Occupied`: the lock keys in use. A transaction that inserts only vacant keys adds its rows
  (`rows_create`, `rows_route`, `rows_register`).
* `Db.Evolves`: no row disappears and only a seat's flag, a booking's status (to cancelled) and a
  user's rights change.
* `Db.Consistent`: the two copies of a booking's state agree, and the keys between the tables.
-/

namespace BusBookings

open ReadCommitted

/-- A change that adds rows. -/
def Change.inserts : Change → Bool
  | .updateSeat .. | .updateBooking .. => false
  | _ => true

namespace Db

theorem mem_updateSeat {db : Db} {id : Int} {flag : Bool} {s : Seat} :
    s ∈ (db.updateSeat id flag).seats.rows ↔
      ∃ s' ∈ db.seats.rows, (if s'.id = id then setBooked flag s' else s') = s :=
  Table.mem_update (f := setBooked flag) fun _ => rfl

theorem mem_updateBooking {db : Db} {id : Int} {status : BookingStatus} {b : Booking} :
    b ∈ (db.updateBooking id status).bookings.rows ↔
      ∃ b' ∈ db.bookings.rows, (if b'.id = id then setStatus status b' else b') = b :=
  Table.mem_update (f := setStatus status) fun _ => rfl

/-! ## Occupied keys -/

/-- The row or the unique value `k` exists. -/
def Occupied (db : Db) : LockKey → Prop
  | .user id => ∃ u ∈ db.users.rows, u.id = id
  | .route id => ∃ r ∈ db.routes.rows, r.id = id
  | .seat id => ∃ s ∈ db.seats.rows, s.id = id
  | .booking id => ∃ b ∈ db.bookings.rows, b.id = id
  | .email email => ∃ u ∈ db.users.rows, u.email = email
  | .bookingSeat seatId => ∃ b ∈ db.bookings.rows, b.seatId = seatId
  | .routeSeat routeId n => ∃ s ∈ db.seats.rows, s.routeId = routeId ∧ s.seatNumber = n

instance (db : Db) : DecidablePred db.Occupied
  | .user id => inferInstanceAs (Decidable (∃ u ∈ db.users.rows, u.id = id))
  | .route id => inferInstanceAs (Decidable (∃ r ∈ db.routes.rows, r.id = id))
  | .seat id => inferInstanceAs (Decidable (∃ s ∈ db.seats.rows, s.id = id))
  | .booking id => inferInstanceAs (Decidable (∃ b ∈ db.bookings.rows, b.id = id))
  | .email email => inferInstanceAs (Decidable (∃ u ∈ db.users.rows, u.email = email))
  | .bookingSeat seatId => inferInstanceAs (Decidable (∃ b ∈ db.bookings.rows, b.seatId = seatId))
  | .routeSeat routeId n =>
    inferInstanceAs (Decidable (∃ s ∈ db.seats.rows, s.routeId = routeId ∧ s.seatNumber = n))

theorem mem_locks_insertSeats {ss : List Seat} {k : LockKey} :
    k ∈ locks (.insertSeats ss) ↔ ∃ s ∈ ss, k = .seat s.id ∨ k = .routeSeat s.routeId s.seatNumber := by
  simp [locks]

theorem Occupied.of_apply {db : Db} {ch : Change} {k : LockKey} (h : (apply ch db).Occupied k) :
    db.Occupied k ∨ ch.inserts = true ∧ k ∈ locks ch := by
  cases ch with
  | insertUser u =>
    cases k with
    | user id | email email =>
      obtain ⟨x, hx, rfl⟩ := h
      rcases Table.mem_of_mem_insert hx with hx | rfl
      · exact .inl ⟨x, hx, rfl⟩
      · exact .inr ⟨rfl, by simp [locks]⟩
    | _ => exact .inl h
  | insertRoute r =>
    cases k with
    | route id =>
      obtain ⟨x, hx, rfl⟩ := h
      rcases Table.mem_of_mem_insert hx with hx | rfl
      · exact .inl ⟨x, hx, rfl⟩
      · exact .inr ⟨rfl, by simp [locks]⟩
    | _ => exact .inl h
  | insertSeats ss =>
    cases k with
    | seat id =>
      obtain ⟨x, hx, rfl⟩ := h
      rcases Table.mem_of_mem_insertAll hx with hx | hx
      · exact .inl ⟨x, hx, rfl⟩
      · exact .inr ⟨rfl, mem_locks_insertSeats.2 ⟨x, hx, .inl rfl⟩⟩
    | routeSeat r n =>
      obtain ⟨x, hx, rfl, rfl⟩ := h
      rcases Table.mem_of_mem_insertAll hx with hx | hx
      · exact .inl ⟨x, hx, rfl, rfl⟩
      · exact .inr ⟨rfl, mem_locks_insertSeats.2 ⟨x, hx, .inr rfl⟩⟩
    | _ => exact .inl h
  | insertBooking b =>
    cases k with
    | booking id | bookingSeat s =>
      obtain ⟨x, hx, rfl⟩ := h
      rcases Table.mem_of_mem_insert hx with hx | rfl
      · exact .inl ⟨x, hx, rfl⟩
      · exact .inr ⟨rfl, by simp [locks]⟩
    | _ => exact .inl h
  | updateSeat seatId flag =>
    cases k with
    | seat id =>
      obtain ⟨x, hx, rfl⟩ := h
      obtain ⟨y, hy, rfl⟩ := mem_updateSeat.1 hx
      exact .inl ⟨y, hy, by split <;> rfl⟩
    | routeSeat r n =>
      obtain ⟨x, hx, rfl, rfl⟩ := h
      obtain ⟨y, hy, rfl⟩ := mem_updateSeat.1 hx
      exact .inl ⟨y, hy, by split <;> rfl, by split <;> rfl⟩
    | _ => exact .inl h
  | updateBooking bookingId status =>
    cases k with
    | booking id | bookingSeat s =>
      obtain ⟨x, hx, rfl⟩ := h
      obtain ⟨y, hy, rfl⟩ := mem_updateBooking.1 hx
      exact .inl ⟨y, hy, by split <;> rfl⟩
    | _ => exact .inl h

theorem Occupied.of_applyAll {ws : List Change} {db : Db} {k : LockKey}
    (h : (Store.applyAll schema ws db).Occupied k) :
    db.Occupied k ∨ ∃ ch ∈ ws, ch.inserts = true ∧ k ∈ locks ch := by
  induction ws generalizing db with
  | nil => exact .inl h
  | cons ch ws ih =>
    rcases ih h with h | ⟨ch', hm, hi, hk⟩
    · rcases h.of_apply with h | ⟨hi, hk⟩
      · exact .inl h
      · exact .inr ⟨ch, by simp, hi, hk⟩
    · exact .inr ⟨ch', List.mem_cons_of_mem _ hm, hi, hk⟩

theorem mem_routes_applyAll {ws : List Change} {db : Db} {r : Route}
    (h : r ∈ (Store.applyAll schema ws db).routes.rows) :
    r ∈ db.routes.rows ∨ .insertRoute r ∈ ws := by
  induction ws generalizing db with
  | nil => exact .inl h
  | cons ch ws ih =>
    rcases ih h with h | h
    · cases ch with
      | insertRoute r' =>
        rcases Table.mem_of_mem_insert h with h | rfl
        · exact .inl h
        · exact .inr (by simp)
      | _ => exact .inl h
    · exact .inr (List.mem_cons_of_mem _ h)

/-- A row that no change locks stays as it is. -/
theorem mem_bookings_applyAll {ws : List Change} {db : Db} {b : Booking}
    (hlocks : ∀ ch ∈ ws, .booking b.id ∉ locks ch) (h : b ∈ (Store.applyAll schema ws db).bookings.rows) :
    b ∈ db.bookings.rows := by
  induction ws generalizing db with
  | nil => exact h
  | cons ch ws ih =>
    have hch := hlocks ch (by simp)
    have hb := ih (fun ch' hm => hlocks ch' (List.mem_cons_of_mem _ hm)) h
    cases ch with
    | insertBooking b' =>
      rcases Table.mem_of_mem_insert hb with hb | rfl
      · exact hb
      · exact absurd (by simp [locks]) hch
    | updateBooking id status =>
      obtain ⟨b₀, hb₀, he⟩ := mem_updateBooking.1 hb
      split at he
      · rename_i hid
        subst he
        exact absurd (by simp [locks, setStatus, hid]) hch
      · exact he ▸ hb₀
    | _ => exact hb

/-! ## Violations -/

theorem violation_eq_none {db : Db} {ch : Change} :
    db.violation ch = none ↔ fits ch = true ∧ db.conflicts ch = false ∧ db.misses ch = false := by
  unfold violation
  cases fits ch <;> cases db.conflicts ch <;> cases db.misses ch <;> simp

theorem not_occupied_bookingSeat {db : Db} {b : Booking} (h : db.conflicts (.insertBooking b) = false) :
    ¬ db.Occupied (.bookingSeat b.seatId) := by
  intro ⟨x, hx, he⟩
  have : db.bookings.rows.any (·.seatId = b.seatId) = true :=
    List.any_eq_true.2 ⟨x, hx, by simp [he]⟩
  simp [conflicts, this] at h

theorem not_occupied_email {db : Db} {u : User} (h : db.conflicts (.insertUser u) = false) :
    ¬ db.Occupied (.email u.email) := by
  intro ⟨x, hx, he⟩
  have : db.users.rows.any (·.email = u.email) = true :=
    List.any_eq_true.2 ⟨x, hx, by simp [he]⟩
  simp [conflicts, this] at h

theorem not_occupied_routeSeat {db : Db} {ss : List Seat} (h : db.conflicts (.insertSeats ss) = false)
    {s : Seat} (hs : s ∈ ss) : ¬ db.Occupied (.routeSeat s.routeId s.seatNumber) := by
  intro ⟨x, hx, h1, h2⟩
  have : ss.any (fun s => (db.routes.find? s.routeId).isNone ||
      db.seats.rows.any fun s' => s'.routeId = s.routeId && s'.seatNumber = s.seatNumber) = true := by
    refine List.any_eq_true.2 ⟨s, hs, ?_⟩
    rw [Bool.or_eq_true]
    exact .inr (List.any_eq_true.2 ⟨x, hx, by simp [h1, h2]⟩)
  simp only [conflicts, this, Bool.true_or] at h
  cases h

/-! ## What a transaction commits -/

section

variable {db : Db}

/-- `db` with the booking `b` made for its seat. -/
theorem applyAll_create {b : Booking} (hid : ¬ db.Occupied (.booking b.id)) :
    let db' := Store.applyAll schema
      [.insertBooking b, .updateSeat b.seatId true, .updateBooking b.id .confirmed] db
    db'.users = db.users ∧ db'.routes = db.routes ∧ db'.seats = (db.updateSeat b.seatId true).seats ∧
      db'.bookings.rows = db.bookings.rows ++ [setStatus .confirmed b] := by
  refine ⟨rfl, rfl, rfl, ?_⟩
  have hid' : ∀ x ∈ db.bookings.rows, x.id ≠ b.id := fun x hx he => hid ⟨x, hx, he⟩
  show ((db.bookings.insert b).rows.map _) = _
  rw [Table.rows_insert hid', List.map_append, List.map_singleton, if_pos rfl]
  congr 1
  exact List.map_congr_left (fun x hx => if_neg (hid' x hx)) |>.trans (List.map_id _)

theorem applyAll_insertRoute {r : Route} (hid : ¬ db.Occupied (.route r.id)) :
    (apply (.insertRoute r) db).routes.rows = db.routes.rows ++ [r] :=
  Table.rows_insert fun x hx he => hid ⟨x, hx, he⟩

theorem applyAll_insertSeats {ss : List Seat} (hn : (ss.map (·.id)).Nodup)
    (hid : ∀ s ∈ ss, ¬ db.Occupied (.seat s.id)) :
    (apply (.insertSeats ss) db).seats.rows = db.seats.rows ++ ss :=
  Table.rows_insertAll hn fun s hs x hx he => hid s hs ⟨x, hx, he⟩

theorem applyAll_insertUser {u : User} (hid : ¬ db.Occupied (.user u.id)) :
    (apply (.insertUser u) db).users.rows = db.users.rows ++ [u] :=
  Table.rows_insert fun x hx he => hid ⟨x, hx, he⟩

end

/-! ## Evolution -/

@[simp] theorem setStatus_setStatus (st st' : BookingStatus) (b : Booking) :
    setStatus st (setStatus st' b) = setStatus st b := rfl

structure Evolves (db db' : Db) : Prop where
  users : ∀ u ∈ db.users.rows, ∃ u' ∈ db'.users.rows, u'.id = u.id ∧ u'.email = u.email
  routes : ∀ r ∈ db.routes.rows, r ∈ db'.routes.rows
  seats : ∀ s ∈ db.seats.rows, ∃ flag, setBooked flag s ∈ db'.seats.rows
  bookings : ∀ b ∈ db.bookings.rows,
    b ∈ db'.bookings.rows ∨ setStatus .cancelled b ∈ db'.bookings.rows

theorem Evolves.refl (db : Db) : Evolves db db :=
  ⟨fun u hu => ⟨u, hu, rfl, rfl⟩, fun _ => id, fun s hs => ⟨s.isBooked, hs⟩, fun _ => .inl⟩

theorem Evolves.trans {db₁ db₂ db₃ : Db} (h : Evolves db₁ db₂) (h' : Evolves db₂ db₃) :
    Evolves db₁ db₃ where
  users u hu := by
    obtain ⟨u', hu', hid, he⟩ := h.users u hu
    obtain ⟨u'', hu'', hid', he'⟩ := h'.users u' hu'
    exact ⟨u'', hu'', hid'.trans hid, he'.trans he⟩
  routes r hr := h'.routes r (h.routes r hr)
  seats s hs := by
    obtain ⟨flag, hf⟩ := h.seats s hs
    obtain ⟨flag', hf'⟩ := h'.seats _ hf
    exact ⟨flag', hf'⟩
  bookings b hb := by
    rcases h.bookings b hb with hb | hb
    · exact h'.bookings b hb
    · rcases h'.bookings _ hb with hb | hb
      · exact .inr hb
      · exact .inr hb

theorem evolves_insert (db : Db) (ch : Change) (h : ch.inserts = true) : Evolves db (apply ch db) := by
  cases ch with
  | insertUser u =>
    exact ⟨fun x hx => ⟨x, Table.mem_insert_of_mem hx, rfl, rfl⟩, fun _ => id,
      fun s hs => ⟨s.isBooked, hs⟩, fun _ => .inl⟩
  | insertRoute r =>
    exact ⟨fun x hx => ⟨x, hx, rfl, rfl⟩, fun _ => Table.mem_insert_of_mem,
      fun s hs => ⟨s.isBooked, hs⟩, fun _ => .inl⟩
  | insertSeats ss =>
    exact ⟨fun x hx => ⟨x, hx, rfl, rfl⟩, fun _ => id,
      fun s hs => ⟨s.isBooked, Table.mem_insertAll_of_mem hs⟩, fun _ => .inl⟩
  | insertBooking b =>
    exact ⟨fun x hx => ⟨x, hx, rfl, rfl⟩, fun _ => id, fun s hs => ⟨s.isBooked, hs⟩,
      fun _ hb => .inl (Table.mem_insert_of_mem hb)⟩
  | updateSeat seatId flag => cases h
  | updateBooking bookingId status => cases h

theorem evolves_updateSeat (db : Db) (id : Int) (flag : Bool) : Evolves db (db.updateSeat id flag) where
  users u hu := ⟨u, hu, rfl, rfl⟩
  routes _ hr := hr
  seats s hs := by
    by_cases h : s.id = id
    · exact ⟨flag, mem_updateSeat.2 ⟨s, hs, if_pos h⟩⟩
    · exact ⟨s.isBooked, mem_updateSeat.2 ⟨s, hs, if_neg h⟩⟩
  bookings _ hb := .inl hb

theorem evolves_cancel (db : Db) (id : Int) : Evolves db (db.updateBooking id .cancelled) where
  users u hu := ⟨u, hu, rfl, rfl⟩
  routes _ hr := hr
  seats s hs := ⟨s.isBooked, hs⟩
  bookings b hb := by
    by_cases h : b.id = id
    · exact .inr (mem_updateBooking.2 ⟨b, hb, if_pos h⟩)
    · exact .inl (mem_updateBooking.2 ⟨b, hb, if_neg h⟩)

theorem evolves_create {db : Db} {b : Booking} (hid : ¬ db.Occupied (.booking b.id)) :
    Evolves db (Store.applyAll schema
      [.insertBooking b, .updateSeat b.seatId true, .updateBooking b.id .confirmed] db) := by
  obtain ⟨husers, hroutes, hseats, hrows⟩ := applyAll_create hid
  have h := evolves_updateSeat db b.seatId true
  refine ⟨fun u hu => ⟨u, husers ▸ hu, rfl, rfl⟩, fun r hr => hroutes ▸ hr, fun s hs => ?_,
    fun x hx => .inl ?_⟩
  · rw [hseats]
    exact h.seats s hs
  · rw [hrows]
    exact List.mem_append_left _ hx

/-! ## Consistency -/

/-- The bookings that hold a seat. -/
def Confirmed (db : Db) (seatId : Int) : Prop :=
  ∃ b ∈ db.bookings.rows, b.seatId = seatId ∧ b.status = .confirmed

structure Consistent (db : Db) : Prop where
  /-- Every seat is a seat of a route. -/
  seatRoute : ∀ s ∈ db.seats.rows, ∃ r ∈ db.routes.rows, r.id = s.routeId
  capacity : ∀ r ∈ db.routes.rows, 0 < r.totalSeats
  /-- A route has its seats, numbered from 1. -/
  seating : ∀ r ∈ db.routes.rows, (db.seats.rows.filter (·.routeId = r.id)).map (·.seatNumber) =
    RouteRepository.seatNumbers r.totalSeats
  settled : ∀ b ∈ db.bookings.rows, b.status ≠ .pending
  bookingSeat : ∀ b ∈ db.bookings.rows, ∃ s ∈ db.seats.rows, s.id = b.seatId ∧ s.routeId = b.routeId
  bookingPrice : ∀ b ∈ db.bookings.rows, ∃ r ∈ db.routes.rows, r.id = b.routeId ∧ r.price = b.totalPrice
  /-- `bookings.seat_id` is unique. -/
  oneBooking : ∀ b ∈ db.bookings.rows, ∀ b' ∈ db.bookings.rows, b.seatId = b'.seatId → b = b'
  flag : ∀ s ∈ db.seats.rows, s.isBooked = true ↔ db.Confirmed s.id

/-- Setting a seat's flag leaves the seats of a route and their numbers as they are. -/
theorem seating_updateSeat (db : Db) (id routeId : Int) (flag : Bool) :
    ((db.updateSeat id flag).seats.rows.filter (·.routeId = routeId)).map (·.seatNumber) =
      (db.seats.rows.filter (·.routeId = routeId)).map (·.seatNumber) := by
  let f : Seat → Seat := fun s => if s.id = id then setBooked flag s else s
  have hr (s : Seat) : (f s).routeId = s.routeId := by simp only [f]; split <;> rfl
  have hn (s : Seat) : (f s).seatNumber = s.seatNumber := by simp only [f]; split <;> rfl
  show ((db.seats.rows.map f).filter _).map _ = _
  rw [List.filter_map, List.map_map]
  simp only [Function.comp_def, hr, hn]

theorem updateSeat_self {db : Db} {s : Seat} {flag : Bool} (hs : s ∈ db.seats.rows) :
    setBooked flag s ∈ (db.updateSeat s.id flag).seats.rows :=
  mem_updateSeat.2 ⟨s, hs, if_pos rfl⟩

/-- Freeing a free seat changes nothing. -/
theorem updateSeat_free {db : Db} {id : Int} (h : ∀ s ∈ db.seats.rows, s.id = id → s.isBooked = false) :
    db.updateSeat id false = db := by
  have : db.seats.update id (setBooked false) (fun _ => rfl) = db.seats := by
    refine Table.ext (List.map_congr_left (fun s hs => ?_) |>.trans (List.map_id _))
    split
    · rename_i hid
      have := h s hs hid
      cases s
      cases this
      rfl
    · rfl
  unfold updateSeat
  rw [this]

/-- Cancelling a cancelled booking changes nothing. -/
theorem updateBooking_cancelled {db : Db} {id : Int}
    (h : ∀ b ∈ db.bookings.rows, b.id = id → b.status = .cancelled) :
    db.updateBooking id .cancelled = db := by
  have : db.bookings.update id (setStatus .cancelled) (fun _ => rfl) = db.bookings := by
    refine Table.ext (List.map_congr_left (fun b hb => ?_) |>.trans (List.map_id _))
    split
    · rename_i hid
      have := h b hb hid
      cases b
      cases this
      rfl
    · rfl
  unfold updateBooking
  rw [this]

namespace Consistent

variable {db : Db}

/-- A booking of a seat that has none. -/
theorem create (h : Consistent db) {b : Booking} (route : Route) (seat : Seat)
    (hid : ¬ db.Occupied (.booking b.id)) (hfree : ¬ db.Occupied (.bookingSeat b.seatId))
    (hr : route ∈ db.routes.rows) (hrid : route.id = b.routeId) (hprice : route.price = b.totalPrice)
    (hs : seat ∈ db.seats.rows) (hsid : seat.id = b.seatId) (hsr : seat.routeId = b.routeId) :
    Consistent (Store.applyAll schema
      [.insertBooking b, .updateSeat b.seatId true, .updateBooking b.id .confirmed] db) := by
  obtain ⟨-, hroutes, hseats, hrows⟩ := applyAll_create hid
  have hmem (x : Booking) : x ∈ db.bookings.rows ++ [setStatus .confirmed b] ↔
      x ∈ db.bookings.rows ∨ x = setStatus .confirmed b := by simp
  have hfree' (x : Booking) (hx : x ∈ db.bookings.rows) : x.seatId ≠ b.seatId :=
    fun he => hfree ⟨x, hx, he⟩
  refine ⟨?_, hroutes ▸ h.capacity, ?_, ?_, ?_, ?_, ?_, ?_⟩
  · intro s hs'
    rw [hseats] at hs'
    obtain ⟨s₀, hs₀, rfl⟩ := mem_updateSeat.1 hs'
    obtain ⟨r, hr, hrs⟩ := h.seatRoute s₀ hs₀
    exact ⟨r, hroutes ▸ hr, hrs.trans (by split <;> rfl)⟩
  · intro r hr'
    rw [hseats, seating_updateSeat]
    exact h.seating r (hroutes ▸ hr')
  · intro x hx
    rw [hrows, hmem] at hx
    rcases hx with hx | rfl
    · exact h.settled x hx
    · simp [setStatus]
  · intro x hx
    rw [hrows, hmem] at hx
    have key : ∃ s ∈ db.seats.rows, s.id = x.seatId ∧ s.routeId = x.routeId := by
      rcases hx with hx | rfl
      · exact h.bookingSeat x hx
      · exact ⟨seat, hs, hsid, hsr⟩
    obtain ⟨s, hs, h1, h2⟩ := key
    rw [hseats]
    exact ⟨_, mem_updateSeat.2 ⟨s, hs, rfl⟩, by split <;> exact h1, by split <;> exact h2⟩
  · intro x hx
    rw [hrows, hmem] at hx
    rw [hroutes]
    rcases hx with hx | rfl
    · exact h.bookingPrice x hx
    · exact ⟨route, hr, hrid, hprice⟩
  · intro x hx y hy hxy
    rw [hrows, hmem] at hx hy
    rcases hx with hx | rfl <;> rcases hy with hy | rfl
    · exact h.oneBooking x hx y hy hxy
    · exact absurd hxy (hfree' x hx)
    · exact absurd hxy.symm (hfree' y hy)
    · rfl
  · intro s hs'
    rw [hseats] at hs'
    obtain ⟨s₀, hs₀, rfl⟩ := mem_updateSeat.1 hs'
    have hiff : (Store.applyAll schema
        [.insertBooking b, .updateSeat b.seatId true, .updateBooking b.id .confirmed] db).Confirmed s₀.id ↔
        db.Confirmed s₀.id ∨ s₀.id = b.seatId := by
      unfold Confirmed
      rw [hrows]
      constructor
      · intro ⟨x, hx, hxs, hxc⟩
        rcases (hmem x).1 hx with hx | rfl
        · exact .inl ⟨x, hx, hxs, hxc⟩
        · exact .inr hxs.symm
      · rintro (⟨x, hx, hxs, hxc⟩ | he)
        · exact ⟨x, (hmem x).2 (.inl hx), hxs, hxc⟩
        · exact ⟨_, (hmem _).2 (.inr rfl), he.symm, rfl⟩
    split
    · rename_i he
      exact ⟨fun _ => hiff.2 (.inr he), fun _ => rfl⟩
    · rename_i hne
      rw [hiff, h.flag s₀ hs₀]
      exact ⟨.inl, fun hc => hc.resolve_right hne⟩

/-- The cancellation of a booking, which frees its seat. -/
theorem cancel (h : Consistent db) {b : Booking} (hb : b ∈ db.bookings.rows) :
    Consistent ((db.updateBooking b.id .cancelled).updateSeat b.seatId false) := by
  -- rows keep everything but the status and the flag
  have hbook {x : Booking} (hx : x ∈ (db.updateBooking b.id .cancelled).bookings.rows) :
      ∃ y ∈ db.bookings.rows, y.seatId = x.seatId ∧ y.routeId = x.routeId ∧ y.totalPrice = x.totalPrice ∧
        y.id = x.id ∧ (if y.id = b.id then x = setStatus .cancelled y else x = y) := by
    obtain ⟨y, hy, rfl⟩ := mem_updateBooking.1 hx
    refine ⟨y, hy, ?_⟩
    split <;> exact ⟨rfl, rfl, rfl, rfl, rfl⟩
  refine ⟨?_, h.capacity, ?_, ?_, ?_, ?_, ?_, ?_⟩
  · intro s hs
    obtain ⟨s₀, hs₀, rfl⟩ := mem_updateSeat.1 hs
    obtain ⟨r, hr, hrs⟩ := h.seatRoute s₀ hs₀
    exact ⟨r, hr, hrs.trans (by split <;> rfl)⟩
  · intro r hr
    rw [seating_updateSeat]
    exact h.seating r hr
  · intro x hx
    obtain ⟨y, hy, -, -, -, -, hxy⟩ := hbook hx
    split at hxy
    · simp [hxy, setStatus]
    · exact hxy ▸ h.settled y hy
  · intro x hx
    obtain ⟨y, hy, hys, hyr, -⟩ := hbook hx
    obtain ⟨s, hs, h1, h2⟩ := h.bookingSeat y hy
    refine ⟨_, mem_updateSeat.2 ⟨s, hs, rfl⟩, ?_, ?_⟩
    · rw [← hys, ← h1]; split <;> rfl
    · rw [← hyr, ← h2]; split <;> rfl
  · intro x hx
    obtain ⟨y, hy, -, hyr, hyp, -⟩ := hbook hx
    rw [← hyr, ← hyp]
    exact h.bookingPrice y hy
  · intro x hx x' hx' hxx
    obtain ⟨y, hy, hys, -, -, -, hxy⟩ := hbook hx
    obtain ⟨y', hy', hys', -, -, -, hxy'⟩ := hbook hx'
    have := h.oneBooking y hy y' hy' (by rw [hys, hys', hxx])
    subst this
    split at hxy <;> simp_all
  · intro s hs
    obtain ⟨s₀, hs₀, rfl⟩ := mem_updateSeat.1 hs
    have hiff : ((db.updateBooking b.id .cancelled).updateSeat b.seatId false).Confirmed s₀.id ↔
        db.Confirmed s₀.id ∧ s₀.id ≠ b.seatId := by
      constructor
      · intro ⟨x, hx, hxs, hxc⟩
        obtain ⟨y, hy, hys, -, -, -, hxy⟩ := hbook hx
        split at hxy
        · simp [hxy, setStatus] at hxc
        · rename_i hne
          subst hxy
          refine ⟨⟨x, hy, hxs, hxc⟩, fun he => hne ?_⟩
          rw [h.oneBooking x hy b hb (hxs.trans he)]
      · intro ⟨⟨x, hx, hxs, hxc⟩, hne⟩
        refine ⟨x, mem_updateBooking.2 ⟨x, hx, if_neg fun he => hne ?_⟩, hxs, hxc⟩
        rw [← hxs, Table.eq_of_key hx hb he]
    split
    · rename_i he
      refine ⟨fun hf => by simp [setBooked] at hf, fun hc => ?_⟩
      exact absurd he (hiff.1 hc).2
    · rename_i hne
      rw [hiff, h.flag s₀ hs₀]
      exact ⟨fun hc => ⟨hc, hne⟩, fun hc => hc.1⟩

/-- A new route with its seats. -/
theorem route (h : Consistent db) {r : Route} {ss : List Seat} (hrid : ¬ db.Occupied (.route r.id))
    (hcap : 0 < r.totalSeats)
    (hn : (ss.map (·.id)).Nodup) (hsid : ∀ s ∈ ss, ¬ db.Occupied (.seat s.id))
    (hr : ∀ s ∈ ss, s.routeId = r.id) (hf : ∀ s ∈ ss, s.isBooked = false)
    (hnum : ss.map (·.seatNumber) = RouteRepository.seatNumbers r.totalSeats) :
    Consistent (Store.applyAll schema [.insertRoute r, .insertSeats ss] db) := by
  have hroutes : (Store.applyAll schema [.insertRoute r, .insertSeats ss] db).routes.rows =
      db.routes.rows ++ [r] := applyAll_insertRoute hrid
  have hseats : (Store.applyAll schema [.insertRoute r, .insertSeats ss] db).seats.rows =
      db.seats.rows ++ ss := applyAll_insertSeats hn hsid
  have hne (s : Seat) (hs : s ∈ db.seats.rows) : s.routeId ≠ r.id := fun he => by
    obtain ⟨r', hr', hid⟩ := h.seatRoute s hs
    exact hrid ⟨r', hr', hid.trans he⟩
  refine ⟨?_, ?_, ?_, h.settled, ?_, ?_, h.oneBooking, ?_⟩
  · intro s hs
    rw [hseats, List.mem_append] at hs
    rw [hroutes]
    rcases hs with hs | hs
    · obtain ⟨r', hr', hid⟩ := h.seatRoute s hs
      exact ⟨r', by simp [hr'], hid⟩
    · exact ⟨r, by simp, (hr s hs).symm⟩
  · intro r' hr'
    rw [hroutes, List.mem_append, List.mem_singleton] at hr'
    rcases hr' with hr' | rfl
    · exact h.capacity r' hr'
    · exact hcap
  · intro r' hr'
    rw [hroutes, List.mem_append, List.mem_singleton] at hr'
    rw [hseats, List.filter_append, List.map_append]
    rcases hr' with hr' | rfl
    · have : ss.filter (·.routeId = r'.id) = [] := by
        apply List.filter_eq_nil_iff.2
        intro s hs
        simp only [decide_eq_true_eq, hr s hs]
        exact fun he => hrid ⟨r', hr', he.symm⟩
      simp [this, h.seating r' hr']
    · have h1 : db.seats.rows.filter (·.routeId = r'.id) = [] :=
        List.filter_eq_nil_iff.2 fun s hs => by simp [hne s hs]
      have h2 : ss.filter (·.routeId = r'.id) = ss :=
        List.filter_eq_self.2 fun s hs => by simp [hr s hs]
      rw [h1, h2, ← hnum]
      rfl
  · intro b hb
    obtain ⟨s, hs, h1, h2⟩ := h.bookingSeat b hb
    exact ⟨s, by rw [hseats]; simp [hs], h1, h2⟩
  · intro b hb
    obtain ⟨r', hr', h1, h2⟩ := h.bookingPrice b hb
    exact ⟨r', by rw [hroutes]; simp [hr'], h1, h2⟩
  · intro s hs
    rw [hseats, List.mem_append] at hs
    rcases hs with hs | hs
    · exact h.flag s hs
    · refine ⟨fun he => by simp [hf s hs] at he, ?_⟩
      intro ⟨b, hb, hbs, _⟩
      obtain ⟨s', hs', hid, -⟩ := h.bookingSeat b hb
      exact absurd ⟨s', hs', hid.trans hbs⟩ (hsid s (by assumption))

end Consistent

end Db

end BusBookings
