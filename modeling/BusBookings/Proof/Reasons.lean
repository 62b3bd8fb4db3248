import BusBookings.Proof.Accounts
import BusBookings.Proof.Cache

/-!
# Why a request fails

`Reason db q e`: what is the case in the database when request `q` fails with `e`. A request whose calls
are carried out fails for a reason only: the checks of the endpoints tell the truth (`Inv.reason_read`), and a
statement fails when a row of another request has its unique key, when a user does not exist, or when a
value does not fit its column (`Inv.reason_write`).
-/

namespace BusBookings

open Async ReadCommitted

inductive Reason (server : Server) (db : Db) : Request → Exc → Prop
  | noRoute {u r s : Int} : (∀ route ∈ db.routes.rows, route.id = r → route.isActive = false) →
      Reason server db (.createBooking u r s) (.http 404 "Route not found or is inactive")
  | noSeat {u r s : Int} : (∀ seat ∈ db.seats.rows, seat.id = s → seat.routeId ≠ r) →
      Reason server db (.createBooking u r s) (.http 404 "Seat not found on this route")
  | booked {u r s : Int} {seat : Seat} : seat ∈ db.seats.rows → seat.id = s → seat.isBooked = true →
      Reason server db (.createBooking u r s) (.http 409 "Seat is already booked")
  /-- A booking of the seat, made meanwhile or cancelled before. -/
  | taken {u r s : Int} {b : Booking} : b ∈ db.bookings.rows → b.seatId = s →
      Reason server db (.createBooking u r s) .integrity
  | stranger {u r s : Int} : (∀ user ∈ db.users.rows, user.id ≠ u) →
      Reason server db (.createBooking u r s) .integrity
  | noBooking {u id : Int} : (∀ b ∈ db.bookings.rows, b.id ≠ id) →
      Reason server db (.cancelBooking u id) (.http 404 "Booking not found")
  | foreign {u id : Int} {b : Booking} : b ∈ db.bookings.rows → b.id = id → b.userId ≠ u →
      Reason server db (.cancelBooking u id) (.http 403 "This booking belongs to another user")
  | cancelled {u id : Int} {b : Booking} : b ∈ db.bookings.rows → b.id = id → b.status = .cancelled →
      Reason server db (.cancelBooking u id) (.http 400 "Booking is already cancelled")
  | inactive {u : Int} {p : RouteCreate} : (∀ user ∈ db.users.rows, user.id = u → user.isActive = false) →
      Reason server db (.createRoute u p) (.http 401 "Could not validate credentials")
  | notAdmin {u : Int} {p : RouteCreate} {user : User} : user ∈ db.users.rows → user.id = u →
      user.role ≠ .admin → Reason server db (.createRoute u p) (.http 403 "Admin access required")
  | price {u : Int} {p : RouteCreate} : Db.numericOk p.price = false →
      Reason server db (.createRoute u p) .data
  | wrongLogin {username password : String} :
      (∀ user ∈ db.users.rows, user.email = username →
        server.checkpw password user.hashedPassword = false) →
      Reason server db (.login username password) (.http 401 "Incorrect email or password")
  | inactiveLogin {username password : String} {user : User} : user ∈ db.users.rows →
      user.email = username → server.checkpw password user.hashedPassword = true →
      user.isActive = false → Reason server db (.login username password) (.http 403 "User is inactive")
  | registered {p : UserRegister} {salt : String} {user : User} : user ∈ db.users.rows →
      user.email = p.email →
      Reason server db (.register p salt) (.http 409 "Email already registered")
  /-- The e-mail was registered meanwhile. -/
  | overtaken {p : UserRegister} {salt : String} {user : User} : user ∈ db.users.rows →
      user.email = p.email → Reason server db (.register p salt) .integrity
  | tooLong {p : UserRegister} {salt text : String} :
      text ∈ [p.email, server.hashpw salt p.password, p.username, p.firstName, p.lastName] →
      255 < text.length → Reason server db (.register p salt) .data

section

variable {server : Server} {db : Db} {a : Abs World Request Stage} {i : Nat} {q : Request} {g g' : Stage}
  {w w' : World} {c : Call} {o : Outcome} {e : Exc}

/-! ## The checks -/

theorem routeCheck_reason {u r s : Int} (h : routeCheck (db.routes.find? r) = .failing e) :
    Reason server db (.createBooking u r s) e := by
  have hno : (∀ route, db.routes.find? r = some route → route.isActive = false) →
      Reason server db (.createBooking u r s) (.http 404 "Route not found or is inactive") :=
    fun hf => .noRoute fun route hroute hid => hf route (Table.find?_eq_some.2 ⟨hroute, hid⟩)
  unfold routeCheck at h
  split at h
  · rename_i hfind
    cases h
    exact hno fun route hroute => by rw [hfind] at hroute; cases hroute
  · rename_i route hfind
    split at h
    · cases h
    · rename_i hactive
      cases h
      exact hno fun route' hroute => by
        rw [hfind] at hroute
        cases hroute
        simpa using hactive

theorem seatCheck_reason {u r s : Int} {route : Route}
    (h : seatCheck r route (db.seats.find? s) = .failing e) :
    Reason server db (.createBooking u r s) e := by
  have hno : (∀ seat, db.seats.find? s = some seat → seat.routeId ≠ r) →
      Reason server db (.createBooking u r s) (.http 404 "Seat not found on this route") :=
    fun hf => .noSeat fun seat hseat hid => hf seat (Table.find?_eq_some.2 ⟨hseat, hid⟩)
  unfold seatCheck at h
  split at h
  · rename_i hfind
    cases h
    exact hno fun seat hseat => by rw [hfind] at hseat; cases hseat
  · rename_i seat hfind
    split at h
    · rename_i hroute
      cases h
      exact hno fun seat' hseat => by
        rw [hfind] at hseat
        cases hseat
        exact hroute
    · split at h
      · rename_i hbooked
        cases h
        obtain ⟨hmem, hid⟩ := Table.find?_eq_some.1 hfind
        exact .booked hmem hid hbooked
      · cases h

theorem cancelCheck_reason {u id : Int} (h : cancelCheck u (db.bookings.find? id) = .failing e) :
    Reason server db (.cancelBooking u id) e := by
  unfold cancelCheck at h
  split at h
  · rename_i hfind
    cases h
    exact .noBooking fun b hb hid => by rw [Table.find?_eq_some.2 ⟨hb, hid⟩] at hfind; cases hfind
  · rename_i b hfind
    obtain ⟨hb, hid⟩ := Table.find?_eq_some.1 hfind
    split at h
    · cases h
      exact .foreign hb hid ‹_›
    · split at h
      · cases h
        exact .cancelled hb hid ‹_›
      · cases h

theorem adminCheck_reason {u : Int} {p : RouteCreate} (h : adminCheck (db.users.find? u) = .failing e) :
    Reason server db (.createRoute u p) e := by
  have hno : (∀ user, db.users.find? u = some user → user.isActive = false) →
      Reason server db (.createRoute u p) (.http 401 "Could not validate credentials") :=
    fun hf => .inactive fun user huser hid => hf user (Table.find?_eq_some.2 ⟨huser, hid⟩)
  unfold adminCheck at h
  split at h
  · rename_i hfind
    cases h
    exact hno fun user huser => by rw [hfind] at huser; cases huser
  · rename_i user hfind
    split at h
    · rename_i hinactive
      cases h
      exact hno fun user' huser => by
        rw [hfind] at huser
        cases huser
        simpa using hinactive
    · split at h
      · cases h
        obtain ⟨hmem, hid⟩ := Table.find?_eq_some.1 hfind
        exact .notAdmin hmem hid ‹_›
      · cases h

/-- Users have different e-mails, so the one that is found is the only one. -/
theorem loginCheck_reason {username password : String} (hemails : (db.users.rows.map (·.email)).Nodup)
    (h : loginCheck server password (db.users.rows.find? (·.email = username)) = .failing e) :
    Reason server db (.login username password) e := by
  unfold loginCheck at h
  split at h
  · rename_i hfind
    cases h
    exact .wrongLogin fun user huser hemail => absurd (List.find?_eq_none.1 hfind user huser) (by simp [hemail])
  · rename_i user hfind
    have hmem := List.mem_of_find?_eq_some hfind
    have hemail : user.email = username := by simpa using List.find?_some hfind
    split at h
    · rename_i hwrong
      cases h
      refine .wrongLogin fun user' huser' hemail' => ?_
      rw [List.inj_on_of_nodup_map hemails huser' hmem (hemail'.trans hemail.symm)]
      simpa using hwrong
    · rename_i hright
      split at h
      · rename_i hinactive
        cases h
        exact .inactiveLogin hmem hemail (by simpa using hright) (by simpa using hinactive)
      · cases h

theorem registerCheck_reason {p : UserRegister} {salt : String}
    (h : registerCheck (db.users.rows.find? (·.email = p.email)) = .failing e) :
    Reason server db (.register p salt) e := by
  cases hfind : db.users.rows.find? (·.email = p.email) with
  | none =>
    rw [hfind] at h
    cases h
  | some user =>
    rw [hfind] at h
    cases h
    exact .registered (List.mem_of_find?_eq_some hfind) (by simpa using List.find?_some hfind)

/-! ## Queries and statements -/

theorem Inv.reason_read (hinv : Inv server a) (hemails : (a.shared.db.users.rows.map (·.email)).Nodup)
    (hi : a.phase i = some (q, g)) (hr : Reads server (a.shared.view i) q c g (.failing e)) :
    Reason server a.shared.db q e := by
  generalize hg' : Stage.failing e = g' at hr
  have hview := hinv.view hi hr.not_failing
  cases hr with
  | again ha => cases ha <;> cases hg'
  | route =>
    rw [hview] at hg'
    exact routeCheck_reason hg'.symm
  | seat =>
    rw [hview] at hg'
    exact seatCheck_reason hg'.symm
  | booking =>
    rw [hview] at hg'
    exact cancelCheck_reason hg'.symm
  | admin =>
    rw [hview] at hg'
    exact adminCheck_reason hg'.symm
  | email he =>
    subst he
    rw [hview] at hg'
    exact registerCheck_reason hg'.symm
  | login =>
    rw [hview] at hg'
    exact loginCheck_reason hemails hg'.symm
  | _ => cases hg'

theorem Db.violation_insert {ch : Change} (hins : ch.inserts = true) (h : db.violation ch = some e) :
    (e = .data ∧ Db.fits ch = false) ∨ (e = .integrity ∧ db.conflicts ch = true) := by
  have hmisses : db.misses ch = false := by cases ch <;> first | rfl | cases hins
  unfold violation at h
  rw [hmisses] at h
  split at h
  · rename_i hfits
    cases h
    exact .inl ⟨rfl, by simpa using hfits⟩
  · split at h
    · cases h
      exact .inr ⟨rfl, ‹_›⟩
    · cases h

theorem seatNumbers_nodup (n : Int) : (RouteRepository.seatNumbers n).Nodup := by
  simp only [RouteRepository.seatNumbers, List.pure_def, List.bind_eq_flatMap, ← List.map_eq_flatMap,
    List.map_map]
  exact List.nodup_range.map fun a b (h : (a : Int) + 1 = b + 1) => by omega

/-- The seats of a new route never break a key. -/
theorem Inv.conflicts_insertSeats (hinv : Inv server a) {r : Route} {first : Int}
    (hi : a.phase i = some (q, .routeRefreshed r)) :
    (Db.apply (.insertRoute r) a.shared.db).conflicts
      (.insertSeats (World.newSeats r.id first (RouteRepository.seatNumbers r.totalSeats))) = false := by
  have hid : ¬ a.shared.db.Occupied (.route r.id) :=
    hinv.vacant hi (by simp) (.insertRoute r) (by simp [Stage.writes]) rfl (by simp [Db.locks])
  have hfind : (a.shared.db.routes.insert r).find? r.id = some r :=
    find?_insert_self fun x hx he => hid ⟨x, hx, he⟩
  simp only [Db.conflicts, Bool.or_eq_false_iff, List.any_eq_false, Bool.not_eq_true,
    decide_eq_false_iff_not, not_not]
  refine ⟨fun seat hseat => ?_, ?_⟩
  · obtain ⟨hroute, -⟩ := World.mem_newSeats hseat
    refine ⟨by rw [hroute]; exact congrArg Option.isNone hfind, fun seat' hseat' => ?_⟩
    obtain ⟨r', hr', hrid⟩ := hinv.consistent.seatRoute seat' hseat'
    have hne : seat'.routeId ≠ seat.routeId := fun he => hid ⟨r', hr', hrid.trans (he.trans hroute)⟩
    simp [hne]
  · refine List.Nodup.of_map Prod.snd ?_
    rw [List.map_map]
    show ((World.newSeats _ _ _).map (·.seatNumber)).Nodup
    rw [World.newSeats_numbers]
    exact seatNumbers_nodup _

/-- **A statement fails** because a booking or a user with the same key has been committed, because its
user does not exist, or because a value does not fit. -/
theorem Inv.reason_write (hinv : Inv server a) (hi : a.phase i = some (q, g)) {ch : Change}
    (hw : Writes server a.shared q c ch g g')
    (hch : (a.shared.bump c).change i ch = some (.error e, w')) : Reason server a.shared.db q e := by
  obtain ⟨hins, hviol⟩ := hinv.insert_of_error hi hw hch
  have hcase := Db.violation_insert hins hviol
  have hfacts := hinv.facts i q g hi
  cases hw with
  | mark | confirm | cancel | free => cases hins
  | insertBooking hrow hb =>
    obtain ⟨u, r, s, hq, hroute, hid, seat, hseat, hsid, hsr⟩ := hfacts
    cases hq
    subst hb
    rcases hcase with ⟨rfl, hfits⟩ | ⟨rfl, hconf⟩
    · -- the price is that of a committed route
      have hroutefits := hinv.keyed.routesFit _ hroute
      simp only [Db.fits, Bool.and_eq_true] at hfits hroutefits
      rw [hroutefits.2] at hfits
      cases hfits
    · have hfindRoute := Table.find?_eq_some.2 ⟨hroute, hid⟩
      have hfindSeat := Table.find?_eq_some.2 ⟨hseat, hsid⟩
      replace hconf : a.shared.db.conflicts _ = true := hconf
      simp only [Db.conflicts, hfindRoute, hfindSeat, Option.isNone_some, Bool.or_false,
        Bool.or_eq_true, List.any_eq_true, decide_eq_true_eq] at hconf
      rcases hconf with hnone | ⟨b, hb, hbs⟩
      · refine .stranger fun user huser hid => ?_
        rw [Table.find?_eq_some.2 ⟨huser, hid⟩] at hnone
        cases hnone
      · exact .taken hb hbs
  | insertRoute hdep harr hrow hr =>
    subst hr
    rename_i p dep arr row
    rcases hcase with ⟨rfl, hfits⟩ | ⟨rfl, hconf⟩
    · have horigin := p.origin_length.2
      have hdestination := p.destination_length.2
      refine .price ?_
      simpa [Db.fits, Db.stringOk, horigin, hdestination] using hfits
    · cases hconf
  | insertSeats hid hns hss =>
    subst hid hns hss
    rcases hcase with ⟨rfl, hfits⟩ | ⟨rfl, hconf⟩
    · cases hfits
    · rw [show Store.applyAll Db.schema _ a.shared.db = Db.apply (.insertRoute _) a.shared.db from rfl,
        hinv.conflicts_insertSeats hi] at hconf
      cases hconf
  | insertUser hrow hu =>
    subst hu
    rcases hcase with ⟨rfl, hfits⟩ | ⟨rfl, hconf⟩
    · simp only [Db.fits, Db.stringOk, List.all_eq_false] at hfits
      obtain ⟨text, htext, hlong⟩ := hfits
      exact .tooLong htext (by simpa using hlong)
    · replace hconf : a.shared.db.conflicts _ = true := hconf
      simp only [Db.conflicts, List.any_eq_true, decide_eq_true_eq] at hconf
      obtain ⟨user, huser, hemail⟩ := hconf
      exact .overtaken huser hemail

end

end BusBookings
