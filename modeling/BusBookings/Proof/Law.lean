import BusBookings.Proof.Runs
import BusBookings.Proof.Tokens

/-!
# What a step may change

`Lawful` compares the committed databases before and after a step: nothing disappears, a booking
only goes from confirmed to cancelled, and both its creation and its cancellation are steps of
requests whose tokens are its user's (`step_lawful`). The requests come as HTTP requests, with
tokens and bodies (`Arrives`).
-/

namespace BusBookings

open Async ReadCommitted

/-! ## The database -/

/-- `db'` differs from `db` at most in the booking `b` and in the flag of its seat. -/
structure Touches (b : Booking) (db db' : Db) : Prop where
  users : db'.users = db.users
  routes : db'.routes = db.routes
  bookings : ∀ x, x.id ≠ b.id → (x ∈ db'.bookings.rows ↔ x ∈ db.bookings.rows)
  seats : ∀ s, s.id ≠ b.seatId → (s ∈ db'.seats.rows ↔ s ∈ db.seats.rows)
  flags : db'.seats.rows.map (Db.setBooked false) = db.seats.rows.map (Db.setBooked false)

theorem mem_updateSeat_ne {db : Db} {id : Int} {flag : Bool} {s : Seat} (h : s.id ≠ id) :
    s ∈ (db.updateSeat id flag).seats.rows ↔ s ∈ db.seats.rows := by
  rw [Db.mem_updateSeat]
  constructor
  · intro ⟨s', hs', he⟩
    split at he
    · rename_i hid
      subst he
      exact absurd hid h
    · exact he ▸ hs'
  · intro hs
    exact ⟨s, hs, if_neg h⟩

theorem mem_updateBooking_ne {db : Db} {id : Int} {status : BookingStatus} {b : Booking} (h : b.id ≠ id) :
    b ∈ (db.updateBooking id status).bookings.rows ↔ b ∈ db.bookings.rows := by
  rw [Db.mem_updateBooking]
  constructor
  · intro ⟨b', hb', he⟩
    split at he
    · rename_i hid
      subst he
      exact absurd hid h
    · exact he ▸ hb'
  · intro hb
    exact ⟨b, hb, if_neg h⟩

theorem flags_updateSeat (db : Db) (id : Int) (flag : Bool) :
    (db.updateSeat id flag).seats.rows.map (Db.setBooked false) =
      db.seats.rows.map (Db.setBooked false) := by
  unfold Db.updateSeat Table.update
  rw [List.map_map]
  apply List.map_congr_left
  intro s _
  simp only [Function.comp_apply]
  split
  · rfl
  · rfl

/-! ## The arrivals -/

section

variable {Token : Type} (jwt : Jwt Token) (pydantic : Pydantic) (log : Nat → Option (Http Token × Int))

/-- What arrives: number `i` is the HTTP request of `log i`, at its moment. -/
def Arrives (sys : System) (l : Label) : Prop :=
  ∀ q, l = .spawn q → ∃ h t, log sys.tasks.length = some (h, t) ∧ h.request jwt pydantic t = some q

instance (sys : System) : DecidablePred (Arrives jwt pydantic log sys)
  | .spawn q => decidable_of_iff (∃ p ∈ log sys.tasks.length, p.1.request jwt pydantic p.2 = some q) (by
      simp [Arrives, Prod.exists])
  | .run _ _ | .env _ => isTrue fun _ h => by cases h

/-- A step of a cancellation of `b` with a token of its user. -/
def Cancelling (l : Label) (b : Booking) : Prop :=
  ∃ o i auth t, l = .run o i ∧ log i = some (.cancelBooking auth b.id, t) ∧ bearer jwt t auth = .ok b.userId

/-- A step of a creation with a token of the user of `b`, for the seat of `b`. -/
def Creating (l : Label) (b : Booking) : Prop :=
  ∃ o i auth body t, l = .run o i ∧ log i = some (.createBooking auth body, t) ∧
    bearer jwt t auth = .ok b.userId ∧ BookingCreate.ofJson? pydantic body = some ⟨b.routeId, b.seatId⟩

/-- A request to make or to cancel a booking. -/
def Http.books : Http Token → Bool
  | .createBooking .. | .cancelBooking .. => true
  | _ => false

/-- What step `l` may change. -/
structure Lawful (l : Label) (db db' : Db) : Prop where
  routes : ∀ r ∈ db.routes.rows, r ∈ db'.routes.rows
  seats : ∀ s ∈ db.seats.rows, ∃ flag, Db.setBooked flag s ∈ db'.seats.rows
  bookings : ∀ b ∈ db.bookings.rows, b ∈ db'.bookings.rows ∨
    b.status = .confirmed ∧ Db.setStatus .cancelled b ∈ db'.bookings.rows ∧ Cancelling jwt log l b
  created : ∀ b ∈ db'.bookings.rows, (∀ b₀ ∈ db.bookings.rows, b₀.id ≠ b.id) → Creating jwt pydantic log l b
  frame : ∀ o i h t, l = .run o i → log i = some (h, t) → h.books = true →
    db' = db ∨ ∃ b ∈ db'.bookings.rows, Touches b db db'

variable {jwt pydantic log} {server : Server} {sys₀ sys sys' : System} {l : Label}
  {a : Abs World Request Stage} {i : Nat} {q : Request} {db db' : Db}

/-- Every request is that of its arrival. -/
theorem logged (hr : Run (semantics server) (Arrives jwt pydantic log) sys₀ sys) (h₀ : sys₀.requests = [])
    (hi : sys.requests[i]? = some q) : ∃ h t, log i = some (h, t) ∧ h.request jwt pydantic t = some q := by
  suffices hall : ∀ i q, sys.requests[i]? = some q →
      ∃ h t, log i = some (h, t) ∧ h.request jwt pydantic t = some q from hall i q hi
  refine hr.preserves (I := fun sys => ∀ i q, sys.requests[i]? = some q →
    ∃ h t, log i = some (h, t) ∧ h.request jwt pydantic t = some q)
    (fun sys₁ sys₂ l ih hp hs i q hi => ?_) ?_
  · rw [step_requests hs] at hi
    by_cases hlt : i < sys₁.requests.length
    · rw [List.getElem?_append_left hlt] at hi
      exact ih i q hi
    · rw [List.getElem?_append_right (by omega)] at hi
      cases l with
      | spawn q' =>
        obtain ⟨hk, he⟩ := List.getElem?_eq_some_iff.1 hi
        simp only [List.length_singleton] at hk
        have hn : i = sys₁.tasks.length := by
          have : sys₁.requests.length = sys₁.tasks.length := by simp [System.requests]
          omega
        simp only [List.getElem_singleton] at he
        subst hn he
        exact hp q' rfl
      | _ => simp at hi
  · intro i q hi
    rw [h₀] at hi
    cases hi

theorem toOption_eq_some {α : Type} {x : Except Exc α} {v : α} (h : x.toOption = some v) : x = .ok v := by
  cases x with
  | error e => cases h
  | ok w => exact congrArg _ (Option.some.inj h)

/-- What `create_booking` makes of its token and its body. -/
theorem Http.request_of_createBooking {auth : Option Token} {body : Json} {t : Int}
    (hq : (Http.createBooking auth body).request jwt pydantic t = some q) :
    ∃ u payload, bearer jwt t auth = .ok u ∧ BookingCreate.ofJson? pydantic body = some payload ∧
      q = .createBooking u payload.routeId payload.seatId := by
  simp only [Http.request, createBookingCall_bookingSeat] at hq
  obtain ⟨u, hu, hq⟩ := Option.bind_eq_some_iff.1 hq
  obtain ⟨payload, hp, hq⟩ := Option.bind_eq_some_iff.1 hq
  cases hq
  exact ⟨u, payload, toOption_eq_some hu, hp, rfl⟩

/-- A creation is that of the user of its token. -/
theorem Http.request_createBooking {h : Http Token} {t u r s : Int}
    (hq : h.request jwt pydantic t = some (.createBooking u r s)) : ∃ auth body,
      h = .createBooking auth body ∧ bearer jwt t auth = .ok u ∧
        BookingCreate.ofJson? pydantic body = some ⟨r, s⟩ := by
  cases h with
  | createBooking auth body =>
    obtain ⟨userId, payload, hu, hp, he⟩ := Http.request_of_createBooking hq
    cases he
    exact ⟨auth, body, rfl, hu, hp⟩
  | login | listRoutes | listSeats => cases hq
  | _ =>
    obtain ⟨_, -, hq⟩ := Option.bind_eq_some_iff.1 hq
    cases hq

/-- A cancellation is that of the user of its token. -/
theorem Http.request_cancelBooking {h : Http Token} {t u id : Int}
    (hq : h.request jwt pydantic t = some (.cancelBooking u id)) :
    ∃ auth, h = .cancelBooking auth id ∧ bearer jwt t auth = .ok u := by
  cases h with
  | cancelBooking auth bookingId =>
    obtain ⟨userId, hu, hq⟩ := Option.bind_eq_some_iff.1 hq
    cases hq
    exact ⟨auth, rfl, toOption_eq_some hu⟩
  | createBooking auth body =>
    obtain ⟨userId, payload, -, -, he⟩ := Http.request_of_createBooking hq
    cases he
  | login | listRoutes | listSeats => cases hq
  | _ =>
    obtain ⟨_, -, hq⟩ := Option.bind_eq_some_iff.1 hq
    cases hq

theorem Http.books_of_request {h : Http Token} {t : Int} (hq : h.request jwt pydantic t = some q)
    (hbooks : h.books = true) : (∃ u r s, q = .createBooking u r s) ∨ ∃ u id, q = .cancelBooking u id := by
  cases h with
  | createBooking auth body =>
    obtain ⟨userId, payload, -, -, rfl⟩ := Http.request_of_createBooking hq
    exact .inl ⟨_, _, _, rfl⟩
  | cancelBooking auth bookingId =>
    obtain ⟨userId, -, hq⟩ := Option.bind_eq_some_iff.1 hq
    cases hq
    exact .inr ⟨_, _, rfl⟩
  | _ => cases hbooks

/-! ## Steps -/

/-- A step that leaves the bookings alone. -/
theorem lawful_of_bookings (hev : db.Evolves db') (hb : db'.bookings = db.bookings)
    (hframe : ∀ o i h t, l = .run o i → log i = some (h, t) → h.books = true → db' = db) :
    Lawful jwt pydantic log l db db' where
  routes := hev.routes
  seats := hev.seats
  bookings _ hm := .inl (hb ▸ hm)
  created _ hm hnew := absurd rfl (hnew _ (hb ▸ hm))
  frame o i h t hl hi hb := .inl (hframe o i h t hl hi hb)

theorem Lawful.refl (db : Db) : Lawful jwt pydantic log l db db :=
  lawful_of_bookings (.refl db) rfl fun _ _ _ _ _ _ _ => rfl

/-- The commit of a new booking. -/
theorem Inv.lawful_create (hinv : Inv server a) {b : Booking} {route : Route} {o : Outcome}
    (hi : a.phase i = some (q, .closing (.create b route)))
    (hlog : ∃ h t, log i = some (h, t) ∧ h.request jwt pydantic t = some q) :
    Lawful jwt pydantic log (.run o i) a.shared.db (a.shared.commit i).db := by
  obtain ⟨husers, hroutes, hseats, hrows⟩ := hinv.commit_create hi
  have hev := (hinv.commit hi).2
  obtain ⟨u, r, s, rfl, hres⟩ := hinv.facts i _ _ hi
  have hb : Db.setStatus .confirmed b = ⟨b.id, u, r, s, .confirmed, route.price⟩ := by
    rw [hres.booking]
    rfl
  refine ⟨hev.routes, hev.seats, fun x hx => .inl ?_, fun x hx hnew => ?_, fun o' i' h t _ _ _ => .inr ?_⟩
  · rw [hrows]
    exact List.mem_append_left _ hx
  · rw [hrows, List.mem_append, List.mem_singleton] at hx
    rcases hx with hx | rfl
    · exact absurd rfl (hnew x hx)
    · obtain ⟨h, t, hlog, hq⟩ := hlog
      obtain ⟨auth, body, rfl, hu, hbody⟩ := Http.request_createBooking hq
      refine ⟨o, i, auth, body, t, rfl, hlog, ?_, ?_⟩
      · rw [hb]
        exact hu
      · rw [hb]
        exact hbody
  · refine ⟨Db.setStatus .confirmed b, ?_, husers, hroutes, fun x hx => ?_, fun x hx => ?_, ?_⟩
    · rw [hrows]
      exact List.mem_append_right _ (List.mem_singleton_self _)
    · rw [hrows, List.mem_append, List.mem_singleton]
      exact or_iff_left fun he => hx (he ▸ rfl)
    · rw [hseats]
      exact mem_updateSeat_ne hx
    · rw [hseats]
      exact flags_updateSeat _ _ _

/-- The commit of a cancellation. -/
theorem Inv.lawful_cancel (hinv : Inv server a) {b : Booking} {free : Bool} {o : Outcome}
    (hi : a.phase i = some (q, .closing (.cancel b free)))
    (hlog : ∃ h t, log i = some (h, t) ∧ h.request jwt pydantic t = some q) :
    Lawful jwt pydantic log (.run o i) a.shared.db (a.shared.commit i).db := by
  obtain ⟨husers, hroutes, hseats, hbookings⟩ := hinv.commit_cancel hi
  have hev := (hinv.commit hi).2
  obtain ⟨u, rfl, hheld, -⟩ := hinv.facts i _ _ hi
  obtain ⟨b₀, hb₀, hid, huser, hseat⟩ : ∃ b₀ ∈ a.shared.db.bookings.rows, b₀.id = b.id ∧ b₀.userId = u ∧
      b₀.seatId = b.seatId := by
    rcases hheld.row with hb | hb
    · exact ⟨_, hb, rfl, hheld.user, rfl⟩
    · exact ⟨_, hb, rfl, hheld.user, rfl⟩
  have hmem (x : Booking) : x ∈ (a.shared.commit i).db.bookings.rows ↔
      ∃ y ∈ a.shared.db.bookings.rows, (if y.id = b.id then Db.setStatus .cancelled y else y) = x := by
    rw [hbookings]
    exact Db.mem_updateBooking
  refine ⟨hev.routes, hev.seats, fun x hx => ?_, fun x hx hnew => ?_, fun o' i' h t _ _ _ => .inr ?_⟩
  · by_cases hxid : x.id = b.id
    · obtain rfl := Table.eq_of_key hx hb₀ (hxid.trans hid.symm)
      have hcancelled : Db.setStatus .cancelled x ∈ (a.shared.commit i).db.bookings.rows :=
        (hmem _).2 ⟨x, hx, if_pos hxid⟩
      cases hstatus : x.status with
      | pending => exact absurd hstatus (hinv.consistent.settled x hx)
      | cancelled =>
        refine .inl ?_
        rw [show x = Db.setStatus .cancelled x by rw [Db.setStatus, ← hstatus]]
        exact hcancelled
      | confirmed =>
        obtain ⟨h, t, hlog, hq⟩ := hlog
        obtain ⟨auth, rfl, hu⟩ := Http.request_cancelBooking hq
        refine .inr ⟨rfl, hcancelled, o, i, auth, t, rfl, ?_, ?_⟩
        · rw [hxid]
          exact hlog
        · rw [huser]
          exact hu
    · exact .inl ((hmem x).2 ⟨x, hx, if_neg hxid⟩)
  · obtain ⟨y, hy, he⟩ := (hmem x).1 hx
    refine absurd ?_ (hnew y hy)
    rw [← he]
    split
    · rfl
    · rfl
  · refine ⟨Db.setStatus .cancelled b₀, (hmem _).2 ⟨b₀, hb₀, if_pos hid⟩, husers, hroutes,
      fun x hx => ?_, fun s hs => ?_, ?_⟩
    · rw [hbookings]
      exact mem_updateBooking_ne fun he => hx (he.trans hid.symm)
    · rw [hseats]
      cases free with
      | true => exact mem_updateSeat_ne fun he => hs (he.trans hseat.symm)
      | false => rfl
    · rw [hseats]
      cases free with
      | true => exact flags_updateSeat _ _ _
      | false => rfl

theorem Inv.lawful_step (hinv : Inv server a) {call : Option Call} {a' : Abs World Request Stage}
    (hlog : ∀ i q g, a.phase i = some (q, g) →
      ∃ h t, log i = some (h, t) ∧ h.request jwt pydantic t = some q)
    (hs : (protocol server).Step envStep a l call a') :
    Lawful jwt pydantic log l a.shared.db a'.shared.db := by
  have hev := hinv.evolves hs
  cases hs with
  | env he =>
    rename_i e w'
    refine lawful_of_bookings hev ?_ fun o i h t hl => by cases hl
    cases e <;> cases he <;> rfl
  | spawn hi => exact .refl _
  | run hi hw hst =>
    rename_i o i q g g' c w'
    by_cases hend : ∃ resp, g' = .ended resp
    · obtain ⟨resp, rfl⟩ := hend
      rcases hst.ended with ⟨j, rfl, -, rfl⟩ | ⟨e, e', -, -, rfl⟩
      · have hlog := hlog i _ _ hi
        have hfacts : j.Facts server a.shared.db q := hinv.facts i _ _ hi
        cases j with
        | create b route => exact hinv.lawful_create hi hlog
        | cancel b free => exact hinv.lawful_cancel hi hlog
        | route | register | read =>
          have hview : (a.shared.commit i).db = _ := hinv.view hi (by simp)
          apply lawful_of_bookings hev (hview ▸ rfl)
          intro o' i' h t hl hlog' hbooks
          cases hl
          obtain ⟨h', t', hlog, hq⟩ := hlog
          rw [hlog] at hlog'
          cases hlog'
          rcases Http.books_of_request hq hbooks with ⟨u, r, s, rfl⟩ | ⟨u, id, rfl⟩
          · obtain ⟨b, route, he, -⟩ := hfacts.isCreate
            cases he
          · obtain ⟨b, free, he, -⟩ := hfacts.isCancel
            cases he
      · exact .refl _
    · show Lawful jwt pydantic log _ a.shared.db w'.db
      rw [hst.db_eq (hinv.ne_lost hi) (not_exists.1 hend)]
      exact .refl _

/-- Whatever requests are interleaved and whatever calls fail, every step is lawful. -/
theorem step_lawful (h₀ : Start sys₀) (hr : Run (semantics server) (Arrives jwt pydantic log) sys₀ sys)
    (hs : (semantics server).step sys l = some sys') :
    Lawful jwt pydantic log l sys.shared.db sys'.shared.db := by
  obtain ⟨users, nextUser, hu, -, rfl⟩ := h₀
  obtain ⟨a, hv, hinv⟩ := Inv.run hr (Refines.initial _) (inv_start hu)
  obtain ⟨a', hst, hv'⟩ := hv.step handler_sim hs
  rw [← hv.shared, ← hv'.shared]
  refine hinv.lawful_step (fun i q g hi => ?_) hst
  obtain ⟨t, ht, rfl, -⟩ := hv.waits hi
  refine logged hr rfl ?_
  simp [System.requests, ht]

end

/-- Validators of the usual values. -/
def plainPydantic : Pydantic where
  int
    | .num n => some n
    | .bool b => some (if b then 1 else 0)
    | _ => none
  emailStr text := if '@' ∈ text.toList then some text else none

/-- The administrator creates a route, and Ann, whose body says she is user 3, books a seat and
cancels the booking. -/
def someArrivals : Nat → Option (Http (Claims × Int) × Int)
  | 0 => some (.createRoute (some (subject "1", 1000000)) somePayload, 0)
  | 1 => some (.createBooking (some (subject "2", 1000000))
      (.obj [("user_id", .num 3), ("route_id", .num 1), ("seat_id", .num 1)]), 0)
  | 2 => some (.cancelBooking (some (subject "2", 1000000)) 1, 0)
  | _ => none

/-- The commit of Ann's cancellation. -/
theorem step_lawful_cancelled : ∃ sys sys', (semantics plainServer).step sys (.run .ok 2) = some sys' ∧
    Lawful plainJwt plainPydantic someArrivals (.run .ok 2) sys.shared.db sys'.shared.db ∧
    sys.shared.db.bookings.rows.map (fun b => (b.userId, b.status)) = [(2, .confirmed)] ∧
    sys'.shared.db.bookings.rows.map (fun b => (b.userId, b.status)) = [(2, .cancelled)] := by
  have hruns : ((semantics plainServer).stepsIf (Arrives plainJwt plainPydantic someArrivals) someStart
      (seatBooked ++ .spawn (.cancelBooking 2 1) :: calls 2 9)).any (fun sys =>
        ((semantics plainServer).step sys (.run .ok 2)).any fun sys' =>
          sys.shared.db.bookings.rows.map (fun b => (b.userId, b.status)) = [(2, .confirmed)] ∧
          sys'.shared.db.bookings.rows.map (fun b => (b.userId, b.status)) = [(2, .cancelled)]) = true := by
    decide +kernel
  obtain ⟨sys, hsys, hruns⟩ := (Option.any_eq_true _ _).1 hruns
  obtain ⟨sys', hs, hP⟩ := (Option.any_eq_true _ _).1 hruns
  exact ⟨sys, sys', hs, step_lawful start_someStart (Run.of_stepsIf hsys) hs, of_decide_eq_true hP⟩

end BusBookings
