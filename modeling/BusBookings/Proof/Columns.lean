import BusBookings.Proof.Logins

/-!
# Payloads and columns

The validators of a payload and the columns of its row bound the same values twice. An `INSERT` of a
new row is never made to wait and breaks no key (`Inv.free_route`, `Inv.free_user`), so it stores
the values of its payload iff they fit the columns: the cities, the password's hash and the e-mail
always do, the price and the names need not (`inserts_store`).
-/

namespace BusBookings

open Async ReadCommitted

/-- The `INSERT` of a route succeeds, and the row fits its columns and reads back as the payload. -/
def RouteStored (p : RouteCreate) (i : Nat) : Option (Except Exc Int × World) → Prop
  | some (.ok id, w) => ∃ r, (w.view i).routes.find? id = some r ∧ Db.fits (.insertRoute r) = true ∧
      r.origin = p.origin ∧ r.destination = p.destination ∧ r.price = p.price
  | _ => False

/-- The same of a user. -/
def UserStored (p : UserRegister) (i : Nat) : Option (Except Exc Int × World) → Prop
  | some (.ok id, w) => ∃ u, (w.view i).users.find? id = some u ∧ Db.fits (.insertUser u) = true ∧
      u.email = p.email ∧ u.username = p.username ∧ u.firstName = p.firstName ∧ u.lastName = p.lastName
  | _ => False

/-- No user has the e-mail, and no open transaction gives it to one. -/
def World.EmailFree (w : World) (email : String) : Prop :=
  (∀ u ∈ w.db.users.rows, u.email ≠ email) ∧ ∀ p ∈ w.pg.pending, .email email ∉ Db.locks p.2

/-- Only an `INSERT` locks the key of a user or a route. -/
theorem Db.inserts_of_mem_locks {ch : Change} {k : LockKey} (hk : k ∈ locks ch)
    (hkind : (∃ id, k = .user id) ∨ ∃ id, k = .route id) : ch.inserts = true := by
  cases ch with
  | updateSeat | updateBooking =>
    simp only [locks, List.mem_singleton] at hk
    rcases hkind with ⟨id, rfl⟩ | ⟨id, rfl⟩ <;> cases hk
  | _ => rfl

/-- An `INSERT` that need not wait fails iff its row violates a constraint. -/
theorem World.insert_cases {w : World} {i : Nat} {ch : Change} (id : Int)
    (hb : w.pg.blocked i ch = false) :
    (∃ e, (w.view i).violation ch = some e ∧ w.insert i ch id = some (.error e, w)) ∨
      ∃ w', (w.view i).violation ch = none ∧ w.insert i ch id = some (.ok id, w') ∧
        w'.view i = Db.apply ch (w.view i) := by
  cases hv : (w.view i).violation ch with
  | some e => exact .inl ⟨e, rfl, by simp [World.insert, World.change, hb, hv, Except.map]⟩
  | none =>
    refine .inr ⟨{ w with pg := w.pg.write i ch hb }, rfl, ?_, Store.view_write_self w.pg i (h := hb)⟩
    simp [World.insert, World.change, hb, hv, Except.map]

section

variable {server : Server} {sys : System} {a : Abs World Request Stage} {i : Nat} {q : Request}
  {g g' : Stage} {w w' : World} {c : Call}

/-- Nobody holds a lock on a row that does not exist yet. -/
theorem Inv.unlocked (hinv : Inv server a) {k : LockKey} (hk : ¬ a.shared.Below k)
    (hkind : (∃ id, k = .user id) ∨ ∃ id, k = .route id) :
    ∀ p ∈ a.shared.pg.pending, k ∉ Db.locks p.2 := fun p hp hkp =>
  hk (hinv.keyed.pendingBelow p hp (Db.inserts_of_mem_locks hkp hkind) k hkp)

/-- The `INSERT` of a route or a user is a change of the protocol. -/
theorem Step.writes (h : Step server q i .ok c g w g' w') (hl : g ≠ .lost)
    (hc : (∃ row, c = .insertRoute row) ∨ ∃ row, c = .insertUser row) :
    ∃ ch g'', Writes server w q c ch g g'' := by
  cases h with
  | write hw | writeFails hw => exact ⟨_, _, hw⟩
  | read hr =>
    rcases hc with ⟨row, rfl⟩ | ⟨row, rfl⟩
    · cases hr with
      | again ha => cases ha
      | lost hno hex => obtain ⟨p, g', ha⟩ := hex; cases ha
    · cases hr with
      | again ha => cases ha
      | lost hno hex => obtain ⟨p, g', ha⟩ := hex; cases ha
  | lost => exact absurd rfl hl
  | _ => rcases hc with ⟨row, hc⟩ | ⟨row, hc⟩ <;> cases hc

/-- The stage of a request that waits for such an `INSERT`, and the row its statement describes. -/
theorem waits_writes (hv : View server sys a) (hinv : Inv server a) (hreq : sys.request i = some q)
    (hwait : sys.awaiting i = some c) (hc : (∃ row, c = .insertRoute row) ∨ ∃ row, c = .insertUser row) :
    ∃ g w ch g', a.phase i = some (q, g) ∧ Writes server w q c ch g g' := by
  have hsome (w : World) (hw : w.pg.pending = []) (ch : Change) (id : Int) :
      ∃ p, w.insert i ch id = some p := by
    have hb : w.pg.blocked i ch = false := by simp [Store.blocked, hw]
    rcases World.insert_cases id hb with ⟨e, -, he⟩ | ⟨w', -, he, -⟩
    · exact ⟨_, he⟩
    · exact ⟨_, he⟩
  -- with no transaction open, nothing makes the statement wait
  have hex : ∃ w p, exec server .ok i c w = some p := by
    refine ⟨{ a.shared with pg := .init a.shared.db }, ?_⟩
    rcases hc with ⟨row, rfl⟩ | ⟨row, rfl⟩
    · exact hsome _ rfl _ _
    · exact hsome _ rfl _ _
  obtain ⟨w, p, he⟩ := hex
  obtain ⟨g, g', hi, hs⟩ := hv.taken (l := .ok) hreq hwait he
  obtain ⟨ch, g'', hw⟩ := hs.writes (hinv.ne_lost hi) hc
  exact ⟨g, w, ch, g'', hi, hw⟩

/-- What is left of an `INSERT` that need not wait and only may break the types of its columns. -/
theorem stored_iff (stored : Option (Except Exc Int × World) → Prop) (c : Call) {ch : Change} {id : Int}
    (hfree : (w.bump c).pg.blocked i ch = false)
    (hkeys : (w.view i).conflicts ch = false ∧ (w.view i).misses ch = false)
    (hfails : ∀ e w', ¬ stored (some (.error e, w')))
    (hok : ∀ w', w'.view i = Db.apply ch (w.view i) → Db.fits ch = true → stored (some (.ok id, w'))) :
    stored ((w.bump c).insert i ch id) ↔ Db.fits ch = true := by
  have hbump : (w.bump c).view i = w.view i := by simp [World.view]
  rcases World.insert_cases id hfree with ⟨e, hviol, he⟩ | ⟨w', hviol, he, hview⟩
  · rw [he]
    apply iff_of_false (hfails e _)
    intro hfits
    rw [hbump, Db.violation_eq_none.2 ⟨hfits, hkeys.1, hkeys.2⟩] at hviol
    cases hviol
  · rw [he]
    rw [hbump] at hviol hview
    have hfits := (Db.violation_eq_none.1 hviol).1
    exact iff_of_true (hok w' hview hfits) hfits

/-! ## Routes -/

/-- The row that an `INSERT INTO routes` makes. -/
def NewRoute.row (server : Server) (w : World) (row : NewRoute) : Route :=
  ⟨w.nextRoute, row.origin, row.destination, server.toUtc row.departureAt, server.toUtc row.arrivalAt,
    row.totalSeats, row.price, true⟩

theorem Inv.free_route (hinv : Inv server a) {r : Route} (hid : r.id = a.shared.nextRoute) :
    a.shared.pg.blocked i (.insertRoute r) = false := by
  apply Store.blocked_eq_false.2
  intro p hp _ k hkp hk
  obtain rfl : k = .route r.id := by simpa [Store.needs, Db.schema, Db.locks, Db.sameKey] using hk
  exact hinv.unlocked (by simp [World.Below, hid]) (.inr ⟨_, rfl⟩) p hp hkp

theorem fits_route {p : RouteCreate} {r : Route} (horigin : r.origin = p.origin)
    (hdest : r.destination = p.destination) (hprice : r.price = p.price) :
    Db.fits (.insertRoute r) = true ↔ p.price < 10000000000 := by
  have hpos : -10000000000 < p.price := lt_trans (by decide) p.price_pos
  simp only [Db.fits, Db.stringOk, Db.numericOk, horigin, hdest, hprice, Bool.and_eq_true,
    decide_eq_true_eq]
  exact ⟨fun h => h.2.2, fun h => ⟨⟨p.origin_length.2, p.destination_length.2⟩, hpos, h⟩⟩

/-- **The `INSERT` of a route** stores the payload iff its price fits the column. -/
theorem stored_route (hv : View server sys a) (hinv : Inv server a) {u : Int} {p : RouteCreate}
    {row : NewRoute} (hreq : sys.request i = some (.createRoute u p))
    (hwait : sys.awaiting i = some (.insertRoute row)) :
    RouteStored p i (exec server .ok i (.insertRoute row) a.shared) ↔ p.price < 10000000000 := by
  obtain ⟨g, w, ch, g', hi, hw⟩ := waits_writes hv hinv hreq hwait (.inl ⟨row, rfl⟩)
  cases hw with
  | insertRoute hdep harr hrow hr =>
    have hview : a.shared.view i = a.shared.db := hinv.view hi (by simp)
    have hfits := fits_route (p := p) (r := row.row server a.shared) (by rw [hrow]; rfl)
      (by rw [hrow]; rfl) (by rw [hrow]; rfl)
    have hfree := hinv.free_route (i := i) (r := row.row server a.shared) rfl
    refine (stored_iff (RouteStored p i) (.insertRoute row) (w := a.shared) hfree ⟨rfl, rfl⟩
      (fun e w' => id) fun w' hw' hfit => ?_).trans hfits
    refine ⟨row.row server a.shared, ?_, hfit, by rw [hrow]; rfl, by rw [hrow]; rfl, by rw [hrow]; rfl⟩
    rw [hw', hview]
    exact find?_insert_self fun r' hr' hid =>
      absurd (hinv.keyed.below (.route r'.id) ⟨r', hr', rfl⟩) (by simp [World.Below, hid, NewRoute.row])

/-! ## Users -/

/-- The row that an `INSERT INTO users` makes. -/
def NewUser.row (w : World) (row : NewUser) : User :=
  ⟨w.nextUser, row.email, row.hashedPassword, row.username, row.firstName, row.lastName, true, .user⟩

theorem Inv.free_user (hinv : Inv server a) {u : User} (hid : u.id = a.shared.nextUser)
    (hemail : a.shared.EmailFree u.email) : a.shared.pg.blocked i (.insertUser u) = false := by
  apply Store.blocked_eq_false.2
  intro p hp _ k hkp hk
  rcases List.mem_append.1 hk with hk | hk
  · obtain rfl | rfl : k = .user u.id ∨ k = .email u.email := by simpa [Db.schema, Db.locks] using hk
    · exact hinv.unlocked (by simp [World.Below, hid]) (.inl ⟨_, rfl⟩) p hp hkp
    · exact hemail.2 p hp hkp
  · obtain ⟨u', hu', -⟩ := List.mem_map.1 (show k ∈ Db.sameKey a.shared.db (.insertUser u) from hk)
    obtain ⟨hmem, he⟩ := List.mem_filter.1 hu'
    exact hemail.1 u' hmem (of_decide_eq_true he)

/-- The names of a payload fit their columns. -/
def UserRegister.Fits (p : UserRegister) : Prop :=
  p.username.length ≤ 255 ∧ p.firstName.length ≤ 255 ∧ p.lastName.length ≤ 255

instance (p : UserRegister) : Decidable p.Fits := inferInstanceAs (Decidable (_ ∧ _ ∧ _))

theorem fits_user {p : UserRegister} {u : User} (hemail : u.email.length ≤ 255)
    (hhash : u.hashedPassword.length ≤ 255) (hname : u.username = p.username)
    (hfirst : u.firstName = p.firstName) (hlast : u.lastName = p.lastName) :
    Db.fits (.insertUser u) = true ↔ p.Fits := by
  simp [Db.fits, Db.stringOk, UserRegister.Fits, hemail, hhash, hname, hfirst, hlast]

/-- **The `INSERT` of a user** with a new e-mail stores the payload iff its names fit the columns. -/
theorem stored_user (hv : View server sys a) (hinv : Inv server a) {p : UserRegister} {salt : String}
    {row : NewUser} (hreq : sys.request i = some (.register p salt))
    (hwait : sys.awaiting i = some (.insertUser row)) (hemail : p.email.length ≤ 255)
    (hhash : (server.hashpw salt p.password).length ≤ 255) (hfree : a.shared.EmailFree p.email) :
    UserStored p i (exec server .ok i (.insertUser row) a.shared) ↔ p.Fits := by
  obtain ⟨g, w, ch, g', hi, hw⟩ := waits_writes hv hinv hreq hwait (.inr ⟨row, rfl⟩)
  cases hw with
  | insertUser hrow hu =>
    have hrowEmail : row.email = p.email := by rw [hrow]
    have hview : a.shared.view i = a.shared.db := hinv.view hi (by simp)
    have hkeys : (a.shared.view i).conflicts (.insertUser (row.row a.shared)) = false := by
      rw [hview]
      exact List.any_eq_false.2 fun u hu => by simpa [NewUser.row, hrowEmail] using hfree.1 u hu
    have hfits := fits_user (p := p) (u := row.row a.shared) (by rwa [NewUser.row, hrowEmail])
      (by rw [hrow]; exact hhash) (by rw [hrow]; rfl) (by rw [hrow]; rfl) (by rw [hrow]; rfl)
    have hunlocked := hinv.free_user (i := i) (u := row.row a.shared) rfl
      (by rwa [NewUser.row, hrowEmail])
    refine (stored_iff (UserStored p i) (.insertUser row) (w := a.shared) hunlocked ⟨hkeys, rfl⟩
      (fun e w' => id) fun w' hw' hfit => ?_).trans hfits
    refine ⟨row.row a.shared, ?_, hfit, hrowEmail, by rw [hrow]; rfl, by rw [hrow]; rfl,
      by rw [hrow]; rfl⟩
    rw [hw', hview]
    exact find?_insert_self fun u' hu' hid =>
      absurd (hinv.keyed.below (.user u'.id) ⟨u', hu', rfl⟩) (by simp [World.Below, hid, NewUser.row])

/-- The e-mail of a payload comes from `EmailStr`. -/
theorem UserRegister.emailStr_of_ofJson {pydantic : Pydantic} {body : Json} {p : UserRegister}
    (h : UserRegister.ofJson? pydantic body = some p) :
    ∃ text, pydantic.emailStr text = some p.email := by
  unfold UserRegister.ofJson? at h
  obtain ⟨text, -, h⟩ := Option.bind_eq_some_iff.1 h
  obtain ⟨email, hemail, h⟩ := Option.bind_eq_some_iff.1 h
  obtain ⟨username, -, h⟩ := Option.bind_eq_some_iff.1 h
  obtain ⟨firstName, -, h⟩ := Option.bind_eq_some_iff.1 h
  obtain ⟨lastName, -, h⟩ := Option.bind_eq_some_iff.1 h
  obtain ⟨password, -, h⟩ := Option.bind_eq_some_iff.1 h
  split at h
  · cases h
    exact ⟨text, hemail⟩
  · cases h

/-- In every run: a route's `INSERT` stores the accepted payload iff the price is below 10^8, and a
user's does iff no name has more than 255 characters. -/
theorem inserts_store {pydantic : Pydantic}
    (hemail : ∀ text email, pydantic.emailStr text = some email → email.length ≤ 254)
    (hhash : ∀ salt password, (server.hashpw salt password).length = 60) (h : Reachable server sys)
    (i : Nat) :
    (∀ u p row, sys.request i = some (.createRoute u p) → sys.awaiting i = some (.insertRoute row) →
      (RouteStored p i (exec server .ok i (.insertRoute row) sys.shared) ↔ p.price < 10000000000)) ∧
    ∀ body p salt row, UserRegister.ofJson? pydantic body = some p →
      sys.request i = some (.register p salt) → sys.awaiting i = some (.insertUser row) →
      sys.shared.EmailFree p.email →
      (UserStored p i (exec server .ok i (.insertUser row) sys.shared) ↔ p.Fits) := by
  obtain ⟨a, hv, hinv⟩ := h.inv
  rw [← hv.shared]
  refine ⟨fun u p row hreq hwait => stored_route hv hinv hreq hwait,
    fun body p salt row hbody hreq hwait hfree => ?_⟩
  obtain ⟨text, htext⟩ := UserRegister.emailStr_of_ofJson hbody
  have hlong := hemail text p.email htext
  exact stored_user hv hinv hreq hwait (by omega) (by rw [hhash]; omega) hfree

end

/-! ## Two inserts at once -/

/-- The row that a call inserts. -/
def Call.newRow : Call → Option (NewRoute ⊕ NewUser)
  | .insertRoute row => some (.inl row)
  | .insertUser row => some (.inr row)
  | _ => none

theorem Call.newRow_route {c : Call} {row : NewRoute} (h : c.newRow = some (.inl row)) :
    c = .insertRoute row := by
  unfold newRow at h
  split at h <;> cases h
  rfl

theorem Call.newRow_user {c : Call} {row : NewUser} (h : c.newRow = some (.inr row)) :
    c = .insertUser row := by
  unfold newRow at h
  split at h <;> cases h
  rfl

/-- A bcrypt hash: the salt with its version and cost, and 31 characters. -/
def saltedServer : Server := { plainServer with
  hashpw := fun salt _ => String.ofList
    ((salt.toList ++ "CzUtq1M4rqLjJzOfb.FbCAmg1Iz.cIy".toList ++ List.replicate 60 '.').take 60) }

theorem length_hashpw_saltedServer (salt password : String) :
    (saltedServer.hashpw salt password).length = 60 := by
  simp only [saltedServer, String.length_ofList, List.length_take, List.length_append,
    List.length_replicate]
  omega

def someSalt : String := "$2b$12$abcdefghijklmnopqrstuu"

/-- `EmailStr` refuses more than 254 characters. -/
def shortPydantic : Pydantic := { mailPydantic with
  emailStr := fun text => (mailPydantic.emailStr text).filter (·.length ≤ 254) }

/-- Requests 0 and 1 wait for the `INSERT`s of the payloads. -/
structure Inserting (p : RouteCreate) (u : UserRegister) (row : NewRoute) (row' : NewUser)
    (sys : System) : Prop where
  reachable : Reachable saltedServer sys
  creates : sys.request 0 = some (.createRoute 1 p)
  insertsRoute : sys.awaiting 0 = some (.insertRoute row)
  registers : sys.request 1 = some (.register u someSalt)
  insertsUser : sys.awaiting 1 = some (.insertUser row')
  free : sys.shared.EmailFree u.email

/-- What is checked of such a run. -/
theorem exists_inserting (p : RouteCreate) (u : UserRegister) (row : NewRoute) (row' : NewUser)
    (h : ((semantics saltedServer).steps someStart (.spawn (.createRoute 1 p) :: calls 0 1 ++
        .spawn (.register u someSalt) :: calls 1 1)).any (fun sys =>
      sys.request 0 = some (.createRoute 1 p) ∧
        (sys.awaiting 0).bind Call.newRow = some (.inl row) ∧
        sys.request 1 = some (.register u someSalt) ∧
        (sys.awaiting 1).bind Call.newRow = some (.inr row') ∧
        (∀ user ∈ sys.shared.db.users.rows, user.email ≠ u.email) ∧
        sys.shared.pg.pending.length = 0) = true) :
    ∃ sys, Inserting p u row row' sys := by
  obtain ⟨sys, hsys, h⟩ := (Option.any_eq_true _ _).1 h
  obtain ⟨hcreates, hroute, hregisters, huser, hfree, hpending⟩ := of_decide_eq_true h
  obtain ⟨c, hc, hrow⟩ := Option.bind_eq_some_iff.1 hroute
  obtain ⟨c', hc', hrow'⟩ := Option.bind_eq_some_iff.1 huser
  rw [Call.newRow_route hrow] at hc
  rw [Call.newRow_user hrow'] at hc'
  exact ⟨sys, ⟨someStart, start_someStart, Run.of_steps hsys⟩, hcreates, hc, hregisters, hc', hfree,
    by simp [List.length_eq_zero_iff.1 hpending]⟩

def cid : UserRegister := someAccount "cid@bus.com" "password123" (by decide)

/-- The rows of the payloads. -/
def newRouteOf (price : Cents) : NewRoute :=
  ⟨"Moskva", "Kazan", { year := 2030, month := 6, day := 1 }, { year := 2030, month := 6, day := 2 }, 2,
    price⟩

def newUserOf (p : UserRegister) : NewUser :=
  ⟨p.email, p.username, p.firstName, p.lastName, saltedServer.hashpw someSalt p.password⟩

/-- Both payloads are stored. -/
theorem inserts_store_both : ∃ sys, Inserting somePayload cid (newRouteOf 150000) (newUserOf cid) sys ∧
    RouteStored somePayload 0
      (exec saltedServer .ok 0 (.insertRoute (newRouteOf 150000)) sys.shared) ∧
    UserStored cid 1 (exec saltedServer .ok 1 (.insertUser (newUserOf cid)) sys.shared) := by
  obtain ⟨sys, h⟩ := exists_inserting somePayload cid (newRouteOf 150000) (newUserOf cid)
    (by decide +kernel)
  have hemail : ∀ text email, shortPydantic.emailStr text = some email → email.length ≤ 254 :=
    fun text email he => of_decide_eq_true (Option.filter_eq_some_iff.1 he).2
  have hbody : UserRegister.ofJson? shortPydantic (someBody "cid@bus.com" "password123") =
      some cid := by decide
  have hstore := inserts_store hemail length_hashpw_saltedServer h.reachable
  exact ⟨sys, h, ((hstore 0).1 _ _ _ h.creates h.insertsRoute).2 (by decide),
    ((hstore 1).2 _ _ _ _ hbody h.registers h.insertsUser h.free).2 (by decide)⟩

/-- A route for 100000000.00. -/
def dearPayload : RouteCreate := { somePayload with price := 10000000000, price_pos := by decide }

/-- Cid with a name of 256 letters. -/
def longCid : UserRegister := { cid with username := String.ofList (List.replicate 256 'c') }

def longBody : Json :=
  .obj [("email", .str "cid@bus.com"), ("username", .str (String.ofList (List.replicate 256 'c'))),
    ("first_name", .str "C"), ("last_name", .str "D"), ("password", .str "password123")]

/-- PostgreSQL refuses both rows. -/
theorem inserts_fail : UserRegister.ofJson? shortPydantic longBody = some longCid ∧
    ∃ sys, Inserting dearPayload longCid (newRouteOf 10000000000) (newUserOf longCid) sys ∧
      ¬ RouteStored dearPayload 0
        (exec saltedServer .ok 0 (.insertRoute (newRouteOf 10000000000)) sys.shared) ∧
      ¬ UserStored longCid 1 (exec saltedServer .ok 1 (.insertUser (newUserOf longCid)) sys.shared) := by
  obtain ⟨sys, h⟩ := exists_inserting dearPayload longCid (newRouteOf 10000000000) (newUserOf longCid)
    (by decide +kernel)
  have hbody : UserRegister.ofJson? shortPydantic longBody = some longCid := by decide +kernel
  obtain ⟨a, hv, hinv⟩ := h.reachable.inv
  have hroute := stored_route hv hinv h.creates h.insertsRoute
  have huser := stored_user hv hinv h.registers h.insertsUser (by decide)
    (by rw [length_hashpw_saltedServer]; decide) (by rw [hv.shared]; exact h.free)
  rw [hv.shared] at hroute huser
  exact ⟨hbody, sys, h, fun hs => absurd (hroute.1 hs) (by decide),
    fun hs => absurd (huser.1 hs) (by decide +kernel)⟩

end BusBookings
