import BusBookings.Base.Table
import BusBookings.Base.ReadCommitted
import BusBookings.App.Dates

/-!
# The database: rows, constraints and changes

The tables of `models/booking.py` with the columns the modelled code reads or writes, the changes
its statements make and the declared constraints: primary keys (`Table`), `users.email`,
`bookings.seat_id` and `(seats.route_id, seats.seat_number)` unique, the foreign keys, `Numeric(10, 2)`
and the `String` lengths (`violation`). A change locks its row and the unique keys of a new one (`locks`),
and a new row waits while a row that has one of its unique keys is being changed (`sameKey`).
-/

namespace BusBookings

/-- An amount in hundredths. -/
abbrev Cents := Int

inductive BookingStatus where
  | pending
  | confirmed
  | cancelled
deriving DecidableEq, Repr

inductive UserStatus where
  | user
  | admin
deriving DecidableEq, Repr

structure User where
  id : Int
  email : String
  hashedPassword : String
  username : String
  firstName : String
  lastName : String
  isActive : Bool
  role : UserStatus
deriving DecidableEq, Repr

structure Route where
  id : Int
  origin : String
  destination : String
  departureAt : DateTime
  arrivalAt : DateTime
  totalSeats : Int
  price : Cents
  isActive : Bool
deriving DecidableEq, Repr

structure Seat where
  id : Int
  routeId : Int
  seatNumber : Int
  isBooked : Bool
deriving DecidableEq, Repr

structure Booking where
  id : Int
  userId : Int
  routeId : Int
  seatId : Int
  status : BookingStatus
  totalPrice : Cents
deriving DecidableEq, Repr

structure Db where
  users : Table User User.id
  routes : Table Route Route.id
  seats : Table Seat Seat.id
  bookings : Table Booking Booking.id

/-- What a statement changes. -/
inductive Change where
  | insertUser (u : User)
  | insertRoute (r : Route)
  | insertSeats (ss : List Seat)
  | insertBooking (b : Booking)
  | updateSeat (seatId : Int) (isBooked : Bool)
  | updateBooking (bookingId : Int) (status : BookingStatus)
deriving DecidableEq, Repr

/-- What a change locks: a row, or a value of a unique key. -/
inductive LockKey where
  | user (id : Int)
  | route (id : Int)
  | seat (id : Int)
  | booking (id : Int)
  | email (email : String)
  | bookingSeat (seatId : Int)
  | routeSeat (routeId seatNumber : Int)
deriving DecidableEq, Repr

namespace Db

def setBooked (flag : Bool) (s : Seat) : Seat := { s with isBooked := flag }

def setStatus (status : BookingStatus) (b : Booking) : Booking := { b with status }

def updateSeat (db : Db) (seatId : Int) (flag : Bool) : Db :=
  { db with seats := db.seats.update seatId (setBooked flag) fun _ => rfl }

def updateBooking (db : Db) (bookingId : Int) (status : BookingStatus) : Db :=
  { db with bookings := db.bookings.update bookingId (setStatus status) fun _ => rfl }

def apply : Change → Db → Db
  | .insertUser u, db => { db with users := db.users.insert u }
  | .insertRoute r, db => { db with routes := db.routes.insert r }
  | .insertSeats ss, db => { db with seats := db.seats.insertAll ss }
  | .insertBooking b, db => { db with bookings := db.bookings.insert b }
  | .updateSeat seatId flag, db => db.updateSeat seatId flag
  | .updateBooking bookingId status, db => db.updateBooking bookingId status

def locks : Change → List LockKey
  | .insertUser u => [.user u.id, .email u.email]
  | .insertRoute r => [.route r.id]
  | .insertSeats ss => ss.flatMap fun s => [.seat s.id, .routeSeat s.routeId s.seatNumber]
  | .insertBooking b => [.booking b.id, .bookingSeat b.seatId]
  | .updateSeat seatId _ => [.seat seatId]
  | .updateBooking bookingId _ => [.booking bookingId]

/-- The rows that have a unique key of a new row. PostgreSQL does not know that such a row keeps its key
until the transaction that changes it has ended. -/
def sameKey (db : Db) : Change → List LockKey
  | .insertUser u => (db.users.rows.filter (·.email = u.email)).map fun u' => .user u'.id
  | .insertSeats ss => (db.seats.rows.filter fun s' =>
      ss.any fun s => s'.routeId = s.routeId && s'.seatNumber = s.seatNumber).map fun s' => .seat s'.id
  | .insertBooking b => (db.bookings.rows.filter (·.seatId = b.seatId)).map fun b' => .booking b'.id
  | _ => []

def schema : ReadCommitted.Schema Db Change LockKey := ⟨apply, locks, sameKey⟩

end Db

/-- Exceptions: `HTTPException`, SQLAlchemy's errors, and a failure of the infrastructure. -/
inductive Exc where
  | http (statusCode : Nat) (detail : String)
  | integrity
  | data
  | stale
  | invalidRequest
  | attribute
  | value
  | type
  | infrastructure
deriving DecidableEq, Repr

namespace Db

/-- `Numeric(10, 2)`. -/
def numericOk (price : Cents) : Bool := -10000000000 < price && price < 10000000000

/-- `String(n)`. -/
def stringOk (n : Nat) (s : String) : Bool := s.length ≤ n

/-- The new row fits the types of its columns. -/
def fits : Change → Bool
  | .insertUser u =>
    [u.email, u.hashedPassword, u.username, u.firstName, u.lastName].all (stringOk 255 ·)
  | .insertRoute r => stringOk 100 r.origin && stringOk 100 r.destination && numericOk r.price
  | .insertBooking b => numericOk b.totalPrice
  | _ => true

/-- The change breaks a key or refers to a row that does not exist. -/
def conflicts (db : Db) : Change → Bool
  | .insertUser u => db.users.rows.any (·.email = u.email)
  | .insertSeats ss =>
    (ss.any fun s => (db.routes.find? s.routeId).isNone ||
      db.seats.rows.any fun s' => s'.routeId = s.routeId && s'.seatNumber = s.seatNumber) ||
    ¬ (ss.map fun s => (s.routeId, s.seatNumber)).Nodup
  | .insertBooking b =>
    (db.users.find? b.userId).isNone || (db.routes.find? b.routeId).isNone ||
      (db.seats.find? b.seatId).isNone || db.bookings.rows.any (·.seatId = b.seatId)
  | _ => false

/-- The row to update does not exist. -/
def misses (db : Db) : Change → Bool
  | .updateSeat seatId _ => (db.seats.find? seatId).isNone
  | .updateBooking bookingId _ => (db.bookings.find? bookingId).isNone
  | _ => false

/-- The error the statement raises: PostgreSQL's for a row that breaks a declared constraint,
SQLAlchemy's for an `UPDATE` that matches no row. -/
def violation (db : Db) (ch : Change) : Option Exc :=
  if !fits ch then some .data
  else if db.conflicts ch then some .integrity
  else if db.misses ch then some .stale
  else none

end Db

end BusBookings
