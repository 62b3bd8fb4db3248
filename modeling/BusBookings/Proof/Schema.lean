import BusBookings.App.Tables
import BusBookings.Proof.Migrations

/-!
# What the migrated schema says

`Migrated` is the schema that the scripts of all revisions leave (`exists_migrated`), and `stored`
the database with this schema that holds the rows of the model. It is sound iff the rows keep what
`models/booking.py` declares (`sound_iff`).
-/

namespace BusBookings

open Ddl

/-! ## The schema -/

def routesColumns : List Column :=
  [⟨"id", .integer, false, none⟩, ⟨"origin", .string 100, false, none⟩,
   ⟨"destination", .string 100, false, none⟩, ⟨"departure_at", .timestamptz, false, none⟩,
   ⟨"arrival_at", .timestamptz, false, none⟩, ⟨"total_seats", .integer, false, none⟩,
   ⟨"price", .numeric 10 2, false, none⟩, ⟨"is_active", .boolean, false, none⟩]

def usersColumns : List Column :=
  [⟨"id", .integer, false, none⟩, ⟨"email", .string 255, false, none⟩,
   ⟨"hashed_password", .string 255, false, none⟩, ⟨"is_active", .boolean, false, none⟩,
   ⟨"created_at", .timestamptz, false, some "now()"⟩, ⟨"username", .string 255, false, none⟩,
   ⟨"first_name", .string 255, false, none⟩, ⟨"last_name", .string 255, false, none⟩,
   ⟨"role", .enum "userstatus", false, none⟩]

def seatsColumns : List Column :=
  [⟨"id", .integer, false, none⟩, ⟨"route_id", .integer, false, none⟩,
   ⟨"seat_number", .integer, false, none⟩, ⟨"is_booked", .boolean, false, none⟩]

def bookingsColumns : List Column :=
  [⟨"id", .integer, false, none⟩, ⟨"user_id", .integer, false, none⟩,
   ⟨"route_id", .integer, false, none⟩, ⟨"seat_id", .integer, false, none⟩,
   ⟨"status", .enum "bookingstatus", false, none⟩, ⟨"total_price", .numeric 10 2, false, none⟩,
   ⟨"created_at", .timestamptz, false, some "now()"⟩,
   ⟨"updated_at", .timestamptz, false, some "now()"⟩]

/-- A table without rows. -/
def relation (name : String) (columns : List Column) (constraints : List Constraint) :
    Relation SqlValue := ⟨name, fun c => columns.find? (·.name = c), constraints, []⟩

def bookingsConstraints : List Constraint :=
  [.foreignKey ["route_id"] "routes" ["id"], .foreignKey ["seat_id"] "seats" ["id"],
   .foreignKey ["user_id"] "users" ["id"], .primaryKey ["id"], .unique none ["seat_id"]]

def seatsConstraints : List Constraint :=
  [.foreignKey ["route_id"] "routes" ["id"], .primaryKey ["id"],
   .unique (some "uq_route_seat") ["route_id", "seat_number"]]

/-- What the scripts make of the empty database. -/
structure Migrated (schema : Ddl.Db SqlValue) : Prop where
  tables : schema.tables.rows = [relation "routes" routesColumns [.primaryKey ["id"]],
    relation "users" usersColumns [.primaryKey ["id"]],
    relation "seats" seatsColumns seatsConstraints,
    relation "bookings" bookingsColumns bookingsConstraints]
  indexes : schema.indexes.rows.filter (·.isUnique) = [⟨"ix_users_email", "users", ["email"], true⟩]
  userstatus : schema.types "userstatus" = some ["USER", "ADMIN"]
  bookingstatus : schema.types "bookingstatus" = some ["PENDING", "CONFIRMED", "CANCELLED"]

/-- The columns of the users, as the scripts change them. -/
theorem columns_users : Function.update (Function.update (Function.update (Function.update
    (Function.update (fun c => [
      Column.mk "id" .integer false none, ⟨"email", .string 255, false, none⟩,
      ⟨"hashed_password", .string 255, false, none⟩, ⟨"full_name", .string 255, false, none⟩,
      ⟨"is_active", .boolean, false, none⟩,
      ⟨"created_at", .timestamptz, false, some "now()"⟩].find? (·.name = c))
      "username" (some ⟨"username", .string 255, false, none⟩))
      "first_name" (some ⟨"first_name", .string 255, false, none⟩))
      "last_name" (some ⟨"last_name", .string 255, false, none⟩)) "full_name" none)
      "role" (some ⟨"role", .enum "userstatus", false, none⟩) =
    fun c => usersColumns.find? (·.name = c) := by
  funext c
  by_cases hc : c ∈ "full_name" :: usersColumns.map (·.name)
  · simp only [usersColumns, List.map_cons, List.map_nil, List.mem_cons, List.not_mem_nil,
      or_false] at hc
    rcases hc with rfl | rfl | rfl | rfl | rfl | rfl | rfl | rfl | rfl | rfl <;> rfl
  · simp only [usersColumns, List.map_cons, List.map_nil, List.mem_cons, List.not_mem_nil,
      or_false, not_or, eq_comm (a := c)] at hc
    simp [eq_comm (a := c), usersColumns, hc]

/-- **The scripts succeed** on the empty database. -/
theorem exists_migrated (eval : String → SqlValue) : ∃ schema,
    run eval (Revision.history (some .addUserstatus)) .empty = some schema ∧ Migrated schema := by
  refine ⟨_, rfl, ?_, rfl, rfl, rfl⟩
  simp only [relation, ← columns_users]
  rfl

/-! ## What the schema says -/

/-- The rows fit their columns and keep the declared constraints. -/
structure Db.Declared (db : Db) : Prop where
  users : ∀ u ∈ db.users.rows, int4 u.id = true ∧ fits (.insertUser u) = true
  routes : ∀ r ∈ db.routes.rows, (int4 r.id = true ∧ int4 r.totalSeats = true) ∧
    fits (.insertRoute r) = true
  seats : ∀ s ∈ db.seats.rows, int4 s.id = true ∧ int4 s.routeId = true ∧ int4 s.seatNumber = true
  bookings : ∀ b ∈ db.bookings.rows, (int4 b.id = true ∧ int4 b.userId = true ∧
    int4 b.routeId = true ∧ int4 b.seatId = true) ∧ fits (.insertBooking b) = true
  emails : (db.users.rows.map (·.email)).Nodup
  seatNumbers : (db.seats.rows.map fun s => (s.routeId, s.seatNumber)).Nodup
  bookedSeats : (db.bookings.rows.map (·.seatId)).Nodup
  seatRoute : ∀ s ∈ db.seats.rows, ∃ r ∈ db.routes.rows, r.id = s.routeId
  bookingRoute : ∀ b ∈ db.bookings.rows, ∃ r ∈ db.routes.rows, r.id = b.routeId
  bookingSeat : ∀ b ∈ db.bookings.rows, ∃ s ∈ db.seats.rows, s.id = b.seatId
  bookingUser : ∀ b ∈ db.bookings.rows, ∃ u ∈ db.users.rows, u.id = b.userId

def routesTable (db : Db) : Relation SqlValue :=
  { relation "routes" routesColumns [.primaryKey ["id"]] with rows := db.routes.rows.map routeRow }

def usersTable (t : Stamps) (db : Db) : Relation SqlValue :=
  { relation "users" usersColumns [.primaryKey ["id"]] with rows := db.users.rows.map t.ofUser }

def seatsTable (db : Db) : Relation SqlValue :=
  { relation "seats" seatsColumns seatsConstraints with rows := db.seats.rows.map seatRow }

def bookingsTable (t : Stamps) (db : Db) : Relation SqlValue :=
  { relation "bookings" bookingsColumns bookingsConstraints with
    rows := db.bookings.rows.map t.ofBooking }

section

variable {schema : Ddl.Db SqlValue} {db : Db} {t : Stamps} {T : Relation SqlValue}

/-- The schema with the rows of the database in its tables. -/
def stored (schema : Ddl.Db SqlValue) (t : Stamps) (db : Db) : Ddl.Db SqlValue :=
  schema.fill (t.rows db)

theorem typed_user (h : Migrated schema) (u : User) :
    (stored schema t db).Typed SqlValue.HasType (usersTable t db) (t.ofUser u) ↔
      int4 u.id = true ∧ Db.fits (.insertUser u) = true := by
  refine (admits_iff (by decide) rfl).trans ?_
  have hrole : u.role.label = "USER" ∨ u.role.label = "ADMIN" := by
    cases u.role
    · exact .inl rfl
    · exact .inr rfl
  simp [usersColumns, SqlValue.HasType, stored, Db.fill, h.userstatus, hrole, Db.fits, Db.stringOk]

theorem typed_route (r : Route) :
    (stored schema t db).Typed SqlValue.HasType (routesTable db) (routeRow r) ↔
        (int4 r.id = true ∧ int4 r.totalSeats = true) ∧ Db.fits (.insertRoute r) = true := by
  refine (admits_iff (by decide) rfl).trans ?_
  simp [routesColumns, SqlValue.HasType, Db.fits, Db.stringOk, Db.numericOk, and_assoc,
    and_left_comm]

theorem typed_seat (s : Seat) :
    (stored schema t db).Typed SqlValue.HasType (seatsTable db) (seatRow s) ↔
      int4 s.id = true ∧ int4 s.routeId = true ∧ int4 s.seatNumber = true := by
  refine (admits_iff (by decide) rfl).trans ?_
  simp [seatsColumns, SqlValue.HasType]

theorem typed_booking (h : Migrated schema) (b : Booking) :
    (stored schema t db).Typed SqlValue.HasType (bookingsTable t db) (t.ofBooking b) ↔
        (int4 b.id = true ∧ int4 b.userId = true ∧ int4 b.routeId = true ∧ int4 b.seatId = true) ∧
          Db.fits (.insertBooking b) = true := by
  refine (admits_iff (by decide) rfl).trans ?_
  have hstatus : b.status.label = "PENDING" ∨ b.status.label = "CONFIRMED" ∨
      b.status.label = "CANCELLED" := by
    cases b.status
    · exact .inl rfl
    · exact .inr (.inl rfl)
    · exact .inr (.inr rfl)
  simp [bookingsColumns, SqlValue.HasType, stored, Db.fill, h.bookingstatus, hstatus, Db.fits,
    Db.numericOk, and_assoc]

theorem tables_stored (h : Migrated schema) : (stored schema t db).tables.rows =
    [routesTable db, usersTable t db, seatsTable db, bookingsTable t db] := by
  show schema.tables.rows.map _ = _
  rw [h.tables]
  rfl

variable (db t) in
theorem find?_stored (h : Migrated schema) :
    (stored schema t db).tables.find? "routes" = some (routesTable db) ∧
    (stored schema t db).tables.find? "users" = some (usersTable t db) ∧
    (stored schema t db).tables.find? "seats" = some (seatsTable db) := by
  simp only [Table.find?, tables_stored h]
  exact ⟨rfl, rfl, rfl⟩

theorem int_injective : Function.Injective SqlValue.int := fun _ _ h => SqlValue.int.inj h

/-- The primary key of a table of the model. -/
theorem satisfies_primaryKey {D : Ddl.Db SqlValue} {α : Type} {key : α → Int} (table : Table α key)
    {f : α → Row SqlValue} (hrows : T.rows = table.rows.map f)
    (hid : ∀ x, f x "id" = some (.int (key x))) : D.Satisfies T (.primaryKey ["id"]) := by
  have hdistinct : T.distinctOn ["id"] = true ↔ (table.rows.map key).Nodup :=
    distinctOn_map hrows fun x y => by simp [hid, int_injective.eq_iff]
  exact ⟨hdistinct.2 table.nodup, by simp [hrows, hid]⟩

theorem distinctOn_seatNumbers : (seatsTable db).distinctOn ["route_id", "seat_number"] = true ↔
    (db.seats.rows.map fun s => (s.routeId, s.seatNumber)).Nodup :=
  distinctOn_map rfl fun x y => by simp [seatRow, Row.of]

theorem distinctOn_bookedSeats : (bookingsTable t db).distinctOn ["seat_id"] = true ↔
    (db.bookings.rows.map (·.seatId)).Nodup :=
  distinctOn_map rfl fun x y => by simp [Stamps.ofBooking, bookingRow, Row.of]

theorem distinctOn_emails : (usersTable t db).distinctOn ["email"] = true ↔
    (db.users.rows.map (·.email)).Nodup :=
  distinctOn_map rfl fun x y => by simp [Stamps.ofUser, userRow, Row.of]

theorem typed_stored (h : Migrated schema) : (∀ T ∈ (stored schema t db).tables.rows,
    ∀ row ∈ T.rows, (stored schema t db).Typed SqlValue.HasType T row) ↔
      (∀ r ∈ db.routes.rows, (int4 r.id = true ∧ int4 r.totalSeats = true) ∧
        Db.fits (.insertRoute r) = true) ∧
      (∀ u ∈ db.users.rows, int4 u.id = true ∧ Db.fits (.insertUser u) = true) ∧
      (∀ s ∈ db.seats.rows, int4 s.id = true ∧ int4 s.routeId = true ∧ int4 s.seatNumber = true) ∧
      ∀ b ∈ db.bookings.rows, (int4 b.id = true ∧ int4 b.userId = true ∧ int4 b.routeId = true ∧
        int4 b.seatId = true) ∧ Db.fits (.insertBooking b) = true := by
  have hroutes : (routesTable db).rows = db.routes.rows.map routeRow := rfl
  have husers : (usersTable t db).rows = db.users.rows.map t.ofUser := rfl
  have hseats : (seatsTable db).rows = db.seats.rows.map seatRow := rfl
  have hbookings : (bookingsTable t db).rows = db.bookings.rows.map t.ofBooking := rfl
  rw [tables_stored h]
  simp only [List.forall_mem_cons, hroutes, husers, hseats, hbookings, List.forall_mem_map,
    typed_route, typed_user h, typed_seat, typed_booking h, List.not_mem_nil, false_imp_iff,
    implies_true, and_true]

theorem satisfied_stored (h : Migrated schema) : (∀ T ∈ (stored schema t db).tables.rows,
    ∀ k ∈ T.constraints, (stored schema t db).Satisfies T k) ↔
      ((∀ s ∈ db.seats.rows, ∃ r ∈ db.routes.rows, r.id = s.routeId) ∧
        (db.seats.rows.map fun s => (s.routeId, s.seatNumber)).Nodup) ∧
      (∀ b ∈ db.bookings.rows, ∃ r ∈ db.routes.rows, r.id = b.routeId) ∧
      (∀ b ∈ db.bookings.rows, ∃ s ∈ db.seats.rows, s.id = b.seatId) ∧
      (∀ b ∈ db.bookings.rows, ∃ u ∈ db.users.rows, u.id = b.userId) ∧
      (db.bookings.rows.map (·.seatId)).Nodup := by
  obtain ⟨hroutes, husers, hseats⟩ := find?_stored db t h
  have hkeys : (stored schema t db).Satisfies (routesTable db) (.primaryKey ["id"]) ∧
      (stored schema t db).Satisfies (usersTable t db) (.primaryKey ["id"]) ∧
      (stored schema t db).Satisfies (seatsTable db) (.primaryKey ["id"]) ∧
      (stored schema t db).Satisfies (bookingsTable t db) (.primaryKey ["id"]) :=
    ⟨satisfies_primaryKey db.routes rfl fun _ => rfl,
      satisfies_primaryKey db.users rfl fun _ => rfl,
      satisfies_primaryKey db.seats rfl fun _ => rfl,
      satisfies_primaryKey db.bookings rfl fun _ => rfl⟩
  have hseatRoute : (stored schema t db).Satisfies (seatsTable db)
      (.foreignKey ["route_id"] "routes" ["id"]) ↔ _ :=
    satisfies_foreignKey int_injective rfl hroutes rfl (fun _ => rfl) fun _ => rfl
  have hbookingRoute : (stored schema t db).Satisfies (bookingsTable t db)
      (.foreignKey ["route_id"] "routes" ["id"]) ↔ _ :=
    satisfies_foreignKey int_injective rfl hroutes rfl (fun _ => rfl) fun _ => rfl
  have hbookingSeat : (stored schema t db).Satisfies (bookingsTable t db)
      (.foreignKey ["seat_id"] "seats" ["id"]) ↔ _ :=
    satisfies_foreignKey int_injective rfl hseats rfl (fun _ => rfl) fun _ => rfl
  have hbookingUser : (stored schema t db).Satisfies (bookingsTable t db)
      (.foreignKey ["user_id"] "users" ["id"]) ↔ _ :=
    satisfies_foreignKey int_injective rfl husers rfl (fun _ => rfl) fun _ => rfl
  have hnumbers : (stored schema t db).Satisfies (seatsTable db)
      (.unique (some "uq_route_seat") ["route_id", "seat_number"]) ↔ _ := distinctOn_seatNumbers
  have hbooked : (stored schema t db).Satisfies (bookingsTable t db)
      (.unique none ["seat_id"]) ↔ _ := distinctOn_bookedSeats
  have hconstraints : (routesTable db).constraints = [.primaryKey ["id"]] ∧
      (usersTable t db).constraints = [.primaryKey ["id"]] ∧
      (seatsTable db).constraints = seatsConstraints ∧
      (bookingsTable t db).constraints = bookingsConstraints := ⟨rfl, rfl, rfl, rfl⟩
  rw [tables_stored h]
  simp only [List.forall_mem_cons, hconstraints, seatsConstraints, bookingsConstraints, hkeys,
    hseatRoute, hbookingRoute, hbookingSeat, hbookingUser, hnumbers, hbooked, List.not_mem_nil,
    false_imp_iff, implies_true, and_true, true_and]

/-- The unique index of the users is the only one. -/
theorem indexed_stored (h : Migrated schema) : (∀ i ∈ (stored schema t db).indexes.rows,
    i.isUnique = true → ∀ T ∈ (stored schema t db).tables.rows, T.name = i.table →
      T.distinctOn i.columns = true) ↔ (db.users.rows.map (·.email)).Nodup := by
  rw [tables_stored h, ← distinctOn_emails (t := t)]
  have hmem {i : Index} : i ∈ (stored schema t db).indexes.rows ∧ i.isUnique = true ↔
      i = ⟨"ix_users_email", "users", ["email"], true⟩ := by
    refine List.mem_filter.symm.trans ?_
    show i ∈ schema.indexes.rows.filter (·.isUnique) ↔ _
    rw [h.indexes, List.mem_singleton]
  constructor
  · intro hi
    obtain ⟨hrow, hunique⟩ := hmem.2 rfl
    exact hi _ hrow hunique (usersTable t db) (by simp) rfl
  · intro hdistinct i hrow hunique T hT hname
    obtain rfl := hmem.1 ⟨hrow, hunique⟩
    simp only [List.mem_cons, List.not_mem_nil, or_false] at hT
    rcases hT with rfl | rfl | rfl | rfl
    · exact absurd (show "routes" = "users" from hname) (by decide)
    · exact hdistinct
    · exact absurd (show "seats" = "users" from hname) (by decide)
    · exact absurd (show "bookings" = "users" from hname) (by decide)

/-- **What the migrated schema says of the rows** is what the models declare. -/
theorem sound_iff (h : Migrated schema) :
    (stored schema t db).Sound SqlValue.HasType ↔ db.Declared := by
  constructor
  · intro hs
    obtain ⟨hroutes, husers, hseats, hbookings⟩ := (typed_stored h).1 hs.typed
    obtain ⟨⟨hseatRoute, hnumbers⟩, hbookingRoute, hbookingSeat, hbookingUser, hbooked⟩ :=
      (satisfied_stored h).1 hs.constraints
    exact ⟨husers, hroutes, hseats, hbookings, (indexed_stored h).1 hs.indexes, hnumbers, hbooked,
      hseatRoute, hbookingRoute, hbookingSeat, hbookingUser⟩
  · intro hd
    exact ⟨(typed_stored h).2 ⟨hd.routes, hd.users, hd.seats, hd.bookings⟩,
      (satisfied_stored h).2 ⟨⟨hd.seatRoute, hd.seatNumbers⟩, hd.bookingRoute, hd.bookingSeat,
        hd.bookingUser, hd.bookedSeats⟩, (indexed_stored h).2 hd.emails⟩

end

end BusBookings
