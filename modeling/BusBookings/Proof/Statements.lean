import BusBookings.Proof.Addresses
import BusBookings.Proof.Reasons
import BusBookings.Proof.Routes
import BusBookings.Proof.Schema

/-!
# The schema enforces what the application relies on

The model's statements check the constraints of `models/booking.py` (`Db.violation`), PostgreSQL those
of the schema that the migrations have left. Both refuse the same statements
(`Db.Declared.apply_iff`), a statement does the same to the rows (`rows_apply`), and in every run the
committed database is one of the schema (`declared`).
-/

namespace BusBookings

open Async Ddl ReadCommitted

section

variable {schema : Ddl.Db SqlValue} {db : Db} {t : Stamps}

/-! ## Statements -/

/-- New rows have new ids, and their integers fit their columns. -/
def Change.Fresh (db : Db) : Change → Prop
  | .insertUser u => ¬ db.Occupied (.user u.id) ∧ int4 u.id = true
  | .insertRoute r => ¬ db.Occupied (.route r.id) ∧ int4 r.id = true ∧ int4 r.totalSeats = true
  | .insertSeats ss => (ss.map (·.id)).Nodup ∧
      ∀ s ∈ ss, ¬ db.Occupied (.seat s.id) ∧ int4 s.id = true ∧ int4 s.seatNumber = true
  | .insertBooking b => ¬ db.Occupied (.booking b.id) ∧ int4 b.id = true
  | .updateSeat .. | .updateBooking .. => True

theorem Db.find?_isNone {ρ : Type} {key : ρ → Int} {table : Table ρ key} {id : Int} :
    (table.find? id).isNone = false ↔ ∃ r ∈ table.rows, key r = id := by
  rw [Option.isNone_eq_false_iff, Option.isSome_iff_exists]
  simp only [Table.find?_eq_some]

theorem nodup_map_append {α β : Type} {f : α → β} {xs ys : List α} :
    ((xs ++ ys).map f).Nodup ↔
      (xs.map f).Nodup ∧ (ys.map f).Nodup ∧ ∀ x ∈ xs, ∀ y ∈ ys, f x ≠ f y := by
  simp only [List.map_append, List.nodup_append, List.forall_mem_map]

namespace Db.Declared

theorem insertUser (hd : db.Declared) {u : User} (hfresh : (Change.insertUser u).Fresh db) :
    (db.apply (.insertUser u)).Declared ↔
      fits (.insertUser u) = true ∧ db.conflicts (.insertUser u) = false := by
  have hrows : (db.apply (.insertUser u)).users.rows = db.users.rows ++ [u] :=
    Table.rows_insert fun u' hu' he => hfresh.1 ⟨u', hu', he⟩
  have hconf : db.conflicts (.insertUser u) = false ↔ ∀ u' ∈ db.users.rows, u'.email ≠ u.email := by
    simp [conflicts]
  rw [hconf]
  constructor
  · intro hd'
    have hemails := hd'.emails
    rw [hrows, nodup_map_append] at hemails
    exact ⟨(hd'.users u (by simp [hrows])).2, fun u' hu' => hemails.2.2 u' hu' u (by simp)⟩
  · rintro ⟨hfits, hnew⟩
    refine ⟨?_, hd.routes, hd.seats, hd.bookings, ?_, hd.seatNumbers, hd.bookedSeats, hd.seatRoute,
      hd.bookingRoute, hd.bookingSeat, fun b hb => ?_⟩
    · rw [hrows]
      exact List.forall_mem_append.2 ⟨hd.users, List.forall_mem_singleton.2 ⟨hfresh.2, hfits⟩⟩
    · rw [hrows]
      exact nodup_map_append.2 ⟨hd.emails, List.nodup_singleton _, fun u' hu' =>
        List.forall_mem_singleton.2 (hnew u' hu')⟩
    · obtain ⟨u', hu', hid⟩ := hd.bookingUser b hb
      exact ⟨u', Table.mem_insert_of_mem hu', hid⟩

theorem insertRoute (hd : db.Declared) {r : Route} (hfresh : (Change.insertRoute r).Fresh db) :
    (db.apply (.insertRoute r)).Declared ↔
      fits (.insertRoute r) = true ∧ db.conflicts (.insertRoute r) = false := by
  have hrows : (db.apply (.insertRoute r)).routes.rows = db.routes.rows ++ [r] :=
    Table.rows_insert fun r' hr' he => hfresh.1 ⟨r', hr', he⟩
  constructor
  · exact fun hd' => ⟨(hd'.routes r (by simp [hrows])).2, rfl⟩
  · rintro ⟨hfits, -⟩
    refine ⟨hd.users, ?_, hd.seats, hd.bookings, hd.emails, hd.seatNumbers, hd.bookedSeats,
      fun s hs => ?_, fun b hb => ?_, hd.bookingSeat, hd.bookingUser⟩
    · rw [hrows]
      exact List.forall_mem_append.2 ⟨hd.routes, List.forall_mem_singleton.2 ⟨hfresh.2, hfits⟩⟩
    · obtain ⟨r', hr', hid⟩ := hd.seatRoute s hs
      exact ⟨r', Table.mem_insert_of_mem hr', hid⟩
    · obtain ⟨r', hr', hid⟩ := hd.bookingRoute b hb
      exact ⟨r', Table.mem_insert_of_mem hr', hid⟩

theorem insertBooking (hd : db.Declared) {b : Booking}
    (hfresh : (Change.insertBooking b).Fresh db) :
    (db.apply (.insertBooking b)).Declared ↔
      fits (.insertBooking b) = true ∧ db.conflicts (.insertBooking b) = false := by
  have hrows : (db.apply (.insertBooking b)).bookings.rows = db.bookings.rows ++ [b] :=
    Table.rows_insert fun b' hb' he => hfresh.1 ⟨b', hb', he⟩
  have hconf : db.conflicts (.insertBooking b) = false ↔ (∃ u ∈ db.users.rows, u.id = b.userId) ∧
      (∃ r ∈ db.routes.rows, r.id = b.routeId) ∧ (∃ s ∈ db.seats.rows, s.id = b.seatId) ∧
      ∀ b' ∈ db.bookings.rows, b'.seatId ≠ b.seatId := by
    simp only [conflicts, Bool.or_eq_false_iff, find?_isNone, List.any_eq_false, decide_eq_true_eq,
      and_assoc, ne_eq]
  rw [hconf]
  constructor
  · intro hd'
    have hb : b ∈ (db.apply (.insertBooking b)).bookings.rows := by simp [hrows]
    have hbooked := hd'.bookedSeats
    rw [hrows, nodup_map_append] at hbooked
    exact ⟨(hd'.bookings b hb).2, hd'.bookingUser b hb, hd'.bookingRoute b hb, hd'.bookingSeat b hb,
      fun b' hb' => hbooked.2.2 b' hb' b (by simp)⟩
  · rintro ⟨hfits, huser, hroute, hseat, hnew⟩
    -- The booking's references fit their columns because the rows they name do.
    have hids : int4 b.userId = true ∧ int4 b.routeId = true ∧ int4 b.seatId = true := by
      obtain ⟨u, hu, huid⟩ := huser
      obtain ⟨r, hr, hrid⟩ := hroute
      obtain ⟨s, hs, hsid⟩ := hseat
      exact ⟨huid ▸ (hd.users u hu).1, hrid ▸ (hd.routes r hr).1.1, hsid ▸ (hd.seats s hs).1⟩
    refine ⟨hd.users, hd.routes, hd.seats, ?_, hd.emails, hd.seatNumbers, ?_, hd.seatRoute, ?_, ?_,
      ?_⟩
    · rw [hrows]
      exact List.forall_mem_append.2
        ⟨hd.bookings, List.forall_mem_singleton.2 ⟨⟨hfresh.2, hids⟩, hfits⟩⟩
    · rw [hrows]
      exact nodup_map_append.2 ⟨hd.bookedSeats, List.nodup_singleton _, fun b' hb' =>
        List.forall_mem_singleton.2 (hnew b' hb')⟩
    all_goals rw [hrows]
    · exact List.forall_mem_append.2 ⟨hd.bookingRoute, List.forall_mem_singleton.2 hroute⟩
    · exact List.forall_mem_append.2 ⟨hd.bookingSeat, List.forall_mem_singleton.2 hseat⟩
    · exact List.forall_mem_append.2 ⟨hd.bookingUser, List.forall_mem_singleton.2 huser⟩

theorem insertSeats (hd : db.Declared) {ss : List Seat}
    (hfresh : (Change.insertSeats ss).Fresh db) :
    (db.apply (.insertSeats ss)).Declared ↔
      fits (.insertSeats ss) = true ∧ db.conflicts (.insertSeats ss) = false := by
  have hrows : (db.apply (.insertSeats ss)).seats.rows = db.seats.rows ++ ss :=
    Table.rows_insertAll hfresh.1 fun s hs s' hs' he => (hfresh.2 s hs).1 ⟨s', hs', he⟩
  let number (s : Seat) : Int × Int := (s.routeId, s.seatNumber)
  have hconf : db.conflicts (.insertSeats ss) = false ↔
      (∀ s ∈ ss, (∃ r ∈ db.routes.rows, r.id = s.routeId) ∧
        ∀ s' ∈ db.seats.rows, number s' ≠ number s) ∧ (ss.map number).Nodup := by
    simp only [conflicts, Bool.or_eq_false_iff, List.any_eq_false, Bool.or_eq_true, not_or, number,
      Bool.not_eq_true, find?_isNone, ne_eq, Prod.mk.injEq, Bool.and_eq_true, decide_eq_true_eq,
      decide_eq_false_iff_not, not_not]
  rw [hconf]
  constructor
  · intro hd'
    have hnumbers := hd'.seatNumbers
    rw [hrows, nodup_map_append] at hnumbers
    exact ⟨rfl, fun s hs => ⟨hd'.seatRoute s (by simp [hrows, hs]), fun s' hs' =>
      hnumbers.2.2 s' hs' s hs⟩, hnumbers.2.1⟩
  · rintro ⟨-, hnew, hnodup⟩
    refine ⟨hd.users, hd.routes, ?_, hd.bookings, hd.emails, ?_, hd.bookedSeats, ?_,
      hd.bookingRoute, fun b hb => ?_, hd.bookingUser⟩
    · rw [hrows]
      refine List.forall_mem_append.2 ⟨hd.seats, fun s hs => ?_⟩
      obtain ⟨r, hr, hid⟩ := (hnew s hs).1
      exact ⟨(hfresh.2 s hs).2.1, hid ▸ (hd.routes r hr).1.1, (hfresh.2 s hs).2.2⟩
    · rw [hrows]
      exact nodup_map_append.2 ⟨hd.seatNumbers, hnodup, fun s' hs' s hs => (hnew s hs).2 s' hs'⟩
    · rw [hrows]
      exact List.forall_mem_append.2 ⟨hd.seatRoute, fun s hs => (hnew s hs).1⟩
    · obtain ⟨s, hs, hid⟩ := hd.bookingSeat b hb
      exact ⟨s, by simp [hrows, hs], hid⟩

theorem updateSeat (hd : db.Declared) (id : Int) (flag : Bool) :
    (db.updateSeat id flag).Declared := by
  refine ⟨hd.users, hd.routes, fun s hs => ?_, hd.bookings, hd.emails, ?_, hd.bookedSeats,
    fun s hs => ?_, hd.bookingRoute, fun b hb => ?_, hd.bookingUser⟩
  · obtain ⟨s', hs', rfl⟩ := mem_updateSeat.1 hs
    split <;> exact hd.seats s' hs'
  · -- The flag is in no constraint: the pairs of route and number are as they were.
    show ((db.seats.rows.map _).map _).Nodup
    rw [List.map_map]
    convert hd.seatNumbers using 2
    funext s
    simp only [Function.comp_apply]
    split <;> rfl
  · obtain ⟨s', hs', rfl⟩ := mem_updateSeat.1 hs
    split <;> exact hd.seatRoute s' hs'
  · obtain ⟨s, hs, hid⟩ := hd.bookingSeat b hb
    refine ⟨_, mem_updateSeat.2 ⟨s, hs, rfl⟩, ?_⟩
    split <;> exact hid

theorem updateBooking (hd : db.Declared) (id : Int) (status : BookingStatus) :
    (db.updateBooking id status).Declared := by
  refine ⟨hd.users, hd.routes, hd.seats, fun b hb => ?_, hd.emails, hd.seatNumbers, ?_,
    hd.seatRoute, fun b hb => ?_, fun b hb => ?_, fun b hb => ?_⟩
  · obtain ⟨b', hb', rfl⟩ := mem_updateBooking.1 hb
    split <;> exact hd.bookings b' hb'
  · show ((db.bookings.rows.map _).map _).Nodup
    rw [List.map_map]
    convert hd.bookedSeats using 2
    funext b
    simp only [Function.comp_apply]
    split <;> rfl
  all_goals
    obtain ⟨b', hb', rfl⟩ := mem_updateBooking.1 hb
  · split <;> exact hd.bookingRoute b' hb'
  · split <;> exact hd.bookingSeat b' hb'
  · split <;> exact hd.bookingUser b' hb'

/-- **A change keeps the declared constraints** iff the model finds none that it breaks. -/
theorem apply_iff (hd : db.Declared) {ch : Change} (hfresh : ch.Fresh db) :
    (db.apply ch).Declared ↔ fits ch = true ∧ db.conflicts ch = false := by
  cases ch with
  | insertUser u => exact hd.insertUser hfresh
  | insertRoute r => exact hd.insertRoute hfresh
  | insertSeats ss => exact hd.insertSeats hfresh
  | insertBooking b => exact hd.insertBooking hfresh
  | updateSeat id flag => exact iff_of_true (hd.updateSeat id flag) ⟨rfl, rfl⟩
  | updateBooking id status => exact iff_of_true (hd.updateBooking id status) ⟨rfl, rfl⟩

end Db.Declared

/-- The row of a seat after an update. -/
theorem seatRow_setBooked (isBooked : Bool) (s : Seat) : seatRow (Db.setBooked isBooked s) =
    Function.update (seatRow s) "is_booked" (some (.bool isBooked)) := by
  funext c
  by_cases hc : c = "is_booked"
  · subst hc
    rfl
  · rw [Function.update_of_ne hc]
    simp [seatRow, Row.of, Db.setBooked, List.find?_cons, Ne.symm hc]

theorem bookingRow_setStatus (created updated now : DateTime) (status : BookingStatus)
    (b : Booking) : bookingRow created now (Db.setStatus status b) =
      Function.update (Function.update (bookingRow created updated b) "status"
        (some (.label status.label))) "updated_at" (some (.time now)) := by
  funext c
  by_cases hc : c = "updated_at"
  · subst hc
    rfl
  · rw [Function.update_of_ne hc]
    by_cases hc' : c = "status"
    · subst hc'
      rfl
    · rw [Function.update_of_ne hc']
      simp [bookingRow, Row.of, Db.setStatus, List.find?_cons, Ne.symm hc, Ne.symm hc']

section

variable {ch : Change} (hfresh : ch.Fresh db) (now : DateTime)

include hfresh

theorem users_apply : (db.apply ch).users.rows.map (t.after now ch).ofUser =
    ch.sql now "users" (db.users.rows.map t.ofUser) := by
  cases ch with
  | insertUser u =>
    show (db.users.insert u).rows.map _ = db.users.rows.map t.ofUser ++ [userRow now u]
    rw [Table.rows_insert fun u' hu' he => hfresh.1 ⟨u', hu', he⟩, List.map_append]
    congr 1
    -- The new id is new, so that the old rows keep their stamps.
    · refine List.map_congr_left fun u' hu' => ?_
      have hne : u'.id ≠ u.id := fun he => hfresh.1 ⟨u', hu', he⟩
      simp only [Stamps.ofUser, Stamps.after, Function.update_of_ne hne]
    · simp [Stamps.ofUser, Stamps.after]
  | _ => rfl

theorem routes_apply : (db.apply ch).routes.rows.map routeRow =
    ch.sql now "routes" (db.routes.rows.map routeRow) := by
  cases ch with
  | insertRoute r =>
    show (db.routes.insert r).rows.map _ = db.routes.rows.map routeRow ++ [routeRow r]
    rw [Table.rows_insert fun r' hr' he => hfresh.1 ⟨r', hr', he⟩, List.map_append]
    rfl
  | _ => rfl

theorem seats_apply : (db.apply ch).seats.rows.map seatRow =
    ch.sql now "seats" (db.seats.rows.map seatRow) := by
  cases ch with
  | insertSeats ss =>
    show (db.seats.insertAll ss).rows.map _ = db.seats.rows.map seatRow ++ ss.map seatRow
    rw [Table.rows_insertAll hfresh.1 fun s hs s' hs' he => (hfresh.2 s hs).1 ⟨s', hs', he⟩,
      List.map_append]
  | updateSeat id isBooked =>
    show (db.seats.rows.map _).map seatRow = setWhere id _ (db.seats.rows.map seatRow)
    rw [setWhere, List.map_map, List.map_map]
    refine List.map_congr_left fun s _ => ?_
    have hid : seatRow s "id" = some (.int id) ↔ s.id = id := by simp [seatRow, Row.of]
    simp only [Function.comp_apply, hid]
    split
    · exact seatRow_setBooked isBooked s
    · rfl
  | _ => rfl

theorem bookings_apply : (db.apply ch).bookings.rows.map (t.after now ch).ofBooking =
    ch.sql now "bookings" (db.bookings.rows.map t.ofBooking) := by
  cases ch with
  | insertBooking b =>
    show (db.bookings.insert b).rows.map _ =
      db.bookings.rows.map t.ofBooking ++ [bookingRow now now b]
    rw [Table.rows_insert fun b' hb' he => hfresh.1 ⟨b', hb', he⟩, List.map_append]
    congr 1
    · refine List.map_congr_left fun b' hb' => ?_
      have hne : b'.id ≠ b.id := fun he => hfresh.1 ⟨b', hb', he⟩
      simp only [Stamps.ofBooking, Stamps.after, Function.update_of_ne hne]
    · simp [Stamps.ofBooking, Stamps.after]
  | updateBooking id status =>
    show (db.bookings.rows.map _).map _ = setWhere id _ (db.bookings.rows.map t.ofBooking)
    rw [setWhere, List.map_map, List.map_map]
    refine List.map_congr_left fun b _ => ?_
    have hid : t.ofBooking b "id" = some (.int id) ↔ b.id = id := by
      simp [Stamps.ofBooking, bookingRow, Row.of]
    simp only [Function.comp_apply, hid]
    split
    -- `updated_at` has `onupdate`: the updated row takes the statement's time, the others keep theirs.
    · rename_i hb
      rw [Stamps.ofBooking, Stamps.ofBooking, ← bookingRow_setStatus]
      simp [Stamps.after, Db.setStatus, hb]
    · rename_i hb
      simp only [Stamps.ofBooking, Stamps.after, Function.update_of_ne hb]
  | _ => rfl

/-- **A change and its statement** do the same. -/
theorem rows_apply :
    (t.after now ch).rows (db.apply ch) = fun table => ch.sql now table (t.rows db table) := by
  funext table
  simp only [Stamps.rows, users_apply hfresh now, routes_apply hfresh now, seats_apply hfresh now,
    bookings_apply hfresh now]
  split_ifs with h1 h2 h3 h4
  · rw [h1]
  · rw [h2]
  · rw [h3]
  · rw [h4]
  · cases ch <;> simp [Change.sql, h1, h2, h3, h4]

end

/-- Neither a `DataError` nor an `IntegrityError`. -/
theorem not_refused_iff {ch : Change} :
    db.violation ch ≠ some .data ∧ db.violation ch ≠ some .integrity ↔
      Db.fits ch = true ∧ db.conflicts ch = false := by
  unfold Db.violation
  cases Db.fits ch <;> cases db.conflicts ch <;> cases db.misses ch <;> simp

end

/-! ## Runs -/

/-- The ids fit their columns: no sequence has come to its end. -/
def Db.IdsFit (db : Db) : Prop :=
  (∀ u ∈ db.users.rows, int4 u.id = true) ∧ (∀ r ∈ db.routes.rows, int4 r.id = true) ∧
    (∀ s ∈ db.seats.rows, int4 s.id = true) ∧ ∀ b ∈ db.bookings.rows, int4 b.id = true

section

variable {server : Server} {sys₀ sys : System} {a a' : Abs World Request Stage} {l : Label}
  {call : Option Call} {users : List User}

/-- The users fit their columns. -/
def UsersFit (users : List User) : Prop := ∀ u ∈ users, Db.fits (.insertUser u) = true

theorem fits_onUser (l : Label) (u : User) :
    Db.fits (.insertUser (onUser l u)) = Db.fits (.insertUser u) := by
  unfold onUser
  split <;> [split; split; skip] <;> rfl

theorem UsersStep.fits (hs : UsersStep a l users) (hinv : Inv server a)
    (h : UsersFit a.shared.db.users.rows) : UsersFit users := by
  cases hs with
  | direct => exact List.forall_mem_map.2 fun u hu => (fits_onUser l u).trans (h u hu)
  | @register i o q u hl hi hnew =>
    have hown : .insertUser u ∈ a.shared.pg.own i := by
      rw [hinv.own i q _ hi (by simp)]
      simp [Stage.writes, Job.writes]
    exact List.forall_mem_append.2 ⟨h, List.forall_mem_singleton.2
      (hinv.keyed.fits _ (Store.mem_own.1 hown))⟩

theorem usersFit (h₀ : Start sys₀) (h : AnyRun server sys₀ sys)
    (husers : UsersFit sys₀.shared.db.users.rows) : UsersFit sys.shared.db.users.rows := by
  obtain ⟨users, nextUser, hu, -, rfl⟩ := h₀
  obtain ⟨a, hv, -, hfit⟩ := Run.invariant
    (I := fun a => Inv server a ∧ UsersFit a.shared.db.users.rows) handler_sim
    (fun _ _ _ _ _ _ ⟨hinv, hI⟩ hs => ⟨hinv.step hs, (hinv.users_step hs).fits hinv hI⟩)
    h (Refines.initial _) ⟨inv_start hu, husers⟩
  exact hv.shared ▸ hfit

/-- No two seats have one route and one number. -/
theorem Db.Consistent.numbers_nodup {db : Db} (h : db.Consistent) :
    (db.seats.rows.map fun s => (s.routeId, s.seatNumber)).Nodup := by
  refine List.Nodup.map_on (fun s hs s' hs' he => ?_) (List.Nodup.of_map _ db.seats.nodup)
  obtain ⟨hroute, hnumber⟩ := Prod.mk.inj he
  obtain ⟨r, hr, hid⟩ := h.seatRoute s hs
  have hnodup : ((db.seats.rows.filter (·.routeId = r.id)).map (·.seatNumber)).Nodup := by
    rw [h.seating r hr]
    exact seatNumbers_nodup _
  refine List.inj_on_of_nodup_map hnodup ?_ ?_ hnumber
  · exact List.mem_filter.2 ⟨hs, decide_eq_true hid.symm⟩
  · exact List.mem_filter.2 ⟨hs', decide_eq_true (hroute.symm.trans hid.symm)⟩

/-- A seat's number is at most the number of its route's seats. -/
theorem Db.Consistent.seatNumber_le {db : Db} (h : db.Consistent) {s : Seat}
    (hs : s ∈ db.seats.rows) :
    ∃ r ∈ db.routes.rows, 1 ≤ s.seatNumber ∧ s.seatNumber ≤ r.totalSeats := by
  obtain ⟨r, hr, hid⟩ := h.seatRoute s hs
  have hmem : s.seatNumber ∈ (db.seats.rows.filter (·.routeId = r.id)).map (·.seatNumber) :=
    List.mem_map_of_mem (List.mem_filter.2 ⟨hs, decide_eq_true hid.symm⟩)
  rw [h.seating r hr] at hmem
  obtain ⟨k, hk, hnumber⟩ : ∃ k < r.totalSeats.toNat, (k : Int) + 1 = s.seatNumber := by
    simpa [RouteRepository.seatNumbers] using hmem
  exact ⟨r, hr, by omega, by omega⟩

/-- **Every committed database keeps the declared constraints.** -/
theorem declared (h₀ : Start sys₀) (h : AnyRun server sys₀ sys)
    (husers : UsersFit sys₀.shared.db.users.rows) (hids : sys.shared.db.IdsFit) :
    sys.shared.db.Declared := by
  have hreach : Reachable server sys := ⟨sys₀, h₀, h⟩
  have hc := hreach.consistent
  obtain ⟨a, hv, -, hacc⟩ := hreach.accounts
  obtain ⟨a', hv', hinv, hsigned⟩ := hreach.signed
  have hemails : (sys.shared.db.users.rows.map (·.email)).Nodup := hv.shared ▸ hacc.emails
  have hbookers : ∀ b ∈ sys.shared.db.bookings.rows, sys.shared.db.Occupied (.user b.userId) :=
    hv'.shared ▸ hsigned.bookers
  have hroutesFit : ∀ r ∈ sys.shared.db.routes.rows, Db.fits (.insertRoute r) = true :=
    hv'.shared ▸ hinv.keyed.routesFit
  have htotal : ∀ r ∈ sys.shared.db.routes.rows, 0 < r.totalSeats ∧ r.totalSeats ≤ 60 := by
    intro r hr
    obtain ⟨-, -, p, -, dep, arr, -, -, hrow⟩ := hreach.sown r hr
    rw [hrow]
    exact p.totalSeats_bound
  -- What is no id is bounded by the request it came from: a seat's number by its route's seats, these
  -- by `RouteCreate`, and a price by the route's.
  obtain ⟨huserIds, hrouteIds, hseatIds, hbookingIds⟩ := hids
  refine ⟨fun u hu => ⟨huserIds u hu, usersFit h₀ h husers u hu⟩, fun r hr => ?_, fun s hs => ?_,
    fun b hb => ?_, hemails, hc.numbers_nodup, ?_, hc.seatRoute, fun b hb => ?_, fun b hb => ?_,
    hbookers⟩
  · have := htotal r hr
    refine ⟨⟨hrouteIds r hr, ?_⟩, hroutesFit r hr⟩
    simp only [int4, Bool.and_eq_true, decide_eq_true_eq]
    omega
  · obtain ⟨r, hr, hid⟩ := hc.seatRoute s hs
    obtain ⟨r', hr', h1, h2⟩ := hc.seatNumber_le hs
    have := htotal r' hr'
    refine ⟨hseatIds s hs, hid ▸ hrouteIds r hr, ?_⟩
    simp only [int4, Bool.and_eq_true, decide_eq_true_eq]
    omega
  · obtain ⟨r, hr, hid, hprice⟩ := hc.bookingPrice b hb
    obtain ⟨s, hs, hsid, -⟩ := hc.bookingSeat b hb
    obtain ⟨u, hu, huid⟩ := hbookers b hb
    have hfits := hroutesFit r hr
    simp only [Db.fits, Bool.and_eq_true] at hfits
    exact ⟨⟨hbookingIds b hb, huid ▸ huserIds u hu, hid ▸ hrouteIds r hr, hsid ▸ hseatIds s hs⟩,
      by rw [Db.fits, ← hprice]; exact hfits.2⟩
  · exact List.Nodup.map_on (fun b hb b' hb' he => hc.oneBooking b hb b' hb' he)
      (List.Nodup.of_map _ sys.shared.db.bookings.nodup)
  · obtain ⟨r, hr, hid, -⟩ := hc.bookingPrice b hb
    exact ⟨r, hr, hid⟩
  · obtain ⟨s, hs, hid, -⟩ := hc.bookingSeat b hb
    exact ⟨s, hs, hid⟩

/-- **The migrated schema enforces what the application relies on.** A statement leaves the tables of
the migrated database sound iff the model raises neither a `DataError` nor an `IntegrityError`, and it
does to the rows what the model does; and in every run the committed database is one of this
schema. -/
theorem migrated_enforces (eval : String → SqlValue) : ∃ schema,
    run eval (Revision.history (some .addUserstatus)) .empty = some schema ∧
    (∀ (t : Stamps) (db : Db) (ch : Change) (now : DateTime),
      (stored schema t db).Sound SqlValue.HasType → ch.Fresh db →
      ((schema.fill fun table => ch.sql now table (t.rows db table)).Sound SqlValue.HasType ↔
        db.violation ch ≠ some .data ∧ db.violation ch ≠ some .integrity) ∧
      stored schema (t.after now ch) (db.apply ch) =
        schema.fill fun table => ch.sql now table (t.rows db table)) ∧
    ∀ (server : Server) (sys₀ sys : System) (t : Stamps), Start sys₀ → AnyRun server sys₀ sys →
      UsersFit sys₀.shared.db.users.rows → sys.shared.db.IdsFit →
      At eval (some .addUserstatus) (stored schema t sys.shared.db) ∧
        (stored schema t sys.shared.db).Sound SqlValue.HasType := by
  obtain ⟨schema, hrun, hschema⟩ := exists_migrated eval
  refine ⟨schema, hrun, fun t db ch now hsound hfresh => ?_,
    fun server sys₀ sys t h₀ h husers hids => ?_⟩
  · have hrows : stored schema (t.after now ch) (db.apply ch) =
        schema.fill fun table => ch.sql now table (t.rows db table) := by
      rw [stored, rows_apply hfresh]
    have hdeclared : db.Declared := (sound_iff hschema).1 hsound
    rw [← hrows, sound_iff hschema, hdeclared.apply_iff hfresh, not_refused_iff]
    exact ⟨Iff.rfl, rfl⟩
  · exact ⟨⟨schema, hrun, sameSchema_fill schema _⟩,
      (sound_iff hschema).2 (declared h₀ h husers hids)⟩

end

/-- Another booking of seat 1. -/
def otherBooking : Booking := ⟨2, 3, 1, 1, .pending, 150000⟩

/-- The database in which seat 1 is booked is one of the schema, and with another booking of it it
would be none. -/
theorem migrated_enforces_seatBooked : ∃ (schema : Ddl.Db SqlValue) (sys : System) (t : Stamps)
    (now : DateTime),
    run (fun _ => .text "") (Revision.history (some .addUserstatus)) .empty = some schema ∧
    runSome seatBooked = some sys ∧ (stored schema t sys.shared.db).Sound SqlValue.HasType ∧
    ¬ (schema.fill fun table => (Change.insertBooking otherBooking).sql now table
      (t.rows sys.shared.db table)).Sound SqlValue.HasType := by
  obtain ⟨schema, hrun, hstatement, hruns⟩ := migrated_enforces fun _ => .text ""
  obtain ⟨sys, hsys, hids, hvacant, hviol⟩ := exists_runSome seatBooked (fun sys =>
    ((∀ u ∈ sys.shared.db.users.rows, int4 u.id = true) ∧
      (∀ r ∈ sys.shared.db.routes.rows, int4 r.id = true) ∧
      (∀ s ∈ sys.shared.db.seats.rows, int4 s.id = true) ∧
      ∀ b ∈ sys.shared.db.bookings.rows, int4 b.id = true) ∧
    ¬ sys.shared.db.Occupied (.booking 2) ∧
    sys.shared.db.violation (.insertBooking otherBooking) = some .integrity) (by decide +kernel)
  let now : DateTime := { year := 2030, month := 1, day := 1 }
  let t : Stamps := ⟨fun _ => now, fun _ => now, fun _ => now⟩
  have husers : UsersFit someStart.shared.db.users.rows :=
    show ∀ u ∈ someUsers.rows, Db.fits (.insertUser u) = true by decide
  have hsound :=
    (hruns plainServer someStart sys t start_someStart (Run.of_steps hsys) husers hids).2
  have hfresh : (Change.insertBooking otherBooking).Fresh sys.shared.db := ⟨hvacant, rfl⟩
  refine ⟨schema, sys, t, now, hrun, hsys, hsound, fun hbroken => ?_⟩
  exact ((hstatement t sys.shared.db _ now hsound hfresh).1.1 hbroken).2 hviol

end BusBookings
