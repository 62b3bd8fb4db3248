import BusBookings.App.Models
import BusBookings.Base.Contents
import Mathlib.Algebra.Ring.Int.Defs

/-!
# The rows of the tables (`models/booking.py`)

How SQLAlchemy stores the models: the columns of each table under their names, an `Enum` by the name
of its member. `created_at` and `updated_at` are set by the database (`server_default`, `onupdate`);
`Stamps` has their values. `Change.sql` is what the statement of a change does to the rows of a
table.
-/

namespace BusBookings

open Ddl

/-- A value that PostgreSQL stores. -/
inductive SqlValue where
  | int (n : Int)
  | bool (b : Bool)
  | text (s : String)
  | time (t : DateTime)
  | amount (c : Cents)
  | label (s : String)
deriving DecidableEq, Repr

/-- `integer` has four bytes. -/
def int4 (n : Int) : Bool := -2147483648 ≤ n && n < 2147483648

namespace SqlValue

/-- The values of a column's type; `types` are the labels of the enumerated ones, and amounts are in
hundredths. -/
def HasType (types : String → Option (List String)) : ColumnType → SqlValue → Prop
  | .integer, .int n => int4 n = true
  | .boolean, .bool _ => True
  | .string length, .text s => s.length ≤ length
  | .timestamptz, .time _ => True
  | .numeric precision 2, .amount c => -10 ^ precision < c ∧ c < 10 ^ precision
  | .enum name, .label s => ∃ labels, types name = some labels ∧ s ∈ labels
  | _, _ => False

end SqlValue

/-- SQLAlchemy's `Enum` stores the names of the members. -/
def UserStatus.label : UserStatus → String
  | .user => "USER"
  | .admin => "ADMIN"

def BookingStatus.label : BookingStatus → String
  | .pending => "PENDING"
  | .confirmed => "CONFIRMED"
  | .cancelled => "CANCELLED"

/-- The columns that the database sets, for each id. -/
structure Stamps where
  userCreated : Int → DateTime
  bookingCreated : Int → DateTime
  bookingUpdated : Int → DateTime

def userRow (created : DateTime) (u : User) : Row SqlValue := .of
  [("id", .int u.id), ("email", .text u.email), ("hashed_password", .text u.hashedPassword),
   ("is_active", .bool u.isActive), ("created_at", .time created), ("username", .text u.username),
   ("first_name", .text u.firstName), ("last_name", .text u.lastName),
   ("role", .label u.role.label)]

def routeRow (r : Route) : Row SqlValue := .of
  [("id", .int r.id), ("origin", .text r.origin), ("destination", .text r.destination),
   ("departure_at", .time r.departureAt), ("arrival_at", .time r.arrivalAt),
   ("total_seats", .int r.totalSeats), ("price", .amount r.price), ("is_active", .bool r.isActive)]

def seatRow (s : Seat) : Row SqlValue := .of
  [("id", .int s.id), ("route_id", .int s.routeId), ("seat_number", .int s.seatNumber),
   ("is_booked", .bool s.isBooked)]

def bookingRow (created updated : DateTime) (b : Booking) : Row SqlValue := .of
  [("id", .int b.id), ("user_id", .int b.userId), ("route_id", .int b.routeId),
   ("seat_id", .int b.seatId), ("status", .label b.status.label),
   ("total_price", .amount b.totalPrice), ("created_at", .time created),
   ("updated_at", .time updated)]

namespace Stamps

variable (t : Stamps)

def ofUser (u : User) : Row SqlValue := userRow (t.userCreated u.id) u

def ofBooking (b : Booking) : Row SqlValue :=
  bookingRow (t.bookingCreated b.id) (t.bookingUpdated b.id) b

/-- The rows of a table. -/
def rows (db : Db) (table : String) : List (Row SqlValue) :=
  if table = "users" then db.users.rows.map t.ofUser
  else if table = "routes" then db.routes.rows.map routeRow
  else if table = "seats" then db.seats.rows.map seatRow
  else if table = "bookings" then db.bookings.rows.map t.ofBooking
  else []

/-- The stamps after a change. -/
def after (now : DateTime) : Change → Stamps
  | .insertUser u => { t with userCreated := Function.update t.userCreated u.id now }
  | .insertBooking b => { t with
    bookingCreated := Function.update t.bookingCreated b.id now
    bookingUpdated := Function.update t.bookingUpdated b.id now }
  | .updateBooking id _ => { t with bookingUpdated := Function.update t.bookingUpdated id now }
  | _ => t

end Stamps

/-- `UPDATE … SET f WHERE id = …`. -/
def setWhere (id : Int) (f : Row SqlValue → Row SqlValue) (rows : List (Row SqlValue)) :
    List (Row SqlValue) :=
  rows.map fun row => if row "id" = some (.int id) then f row else row

/-- What the change's statement does to the rows of a table; `now` is the value of `now()`. -/
def Change.sql (now : DateTime) (table : String) (rows : List (Row SqlValue)) :
    Change → List (Row SqlValue)
  | .insertUser u => if table = "users" then rows ++ [userRow now u] else rows
  | .insertRoute r => if table = "routes" then rows ++ [routeRow r] else rows
  | .insertSeats ss => if table = "seats" then rows ++ ss.map seatRow else rows
  | .insertBooking b => if table = "bookings" then rows ++ [bookingRow now now b] else rows
  | .updateSeat id isBooked =>
    if table = "seats" then
      setWhere id (Function.update · "is_booked" (some (.bool isBooked))) rows
    else rows
  | .updateBooking id status =>
    if table = "bookings" then
      setWhere id (fun row => Function.update (Function.update row "status"
        (some (.label status.label))) "updated_at" (some (.time now))) rows
    else rows

end BusBookings
