import BusBookings.Base.IdentityMap
import BusBookings.App.World

/-!
# The database session and the cache client (`db/database.py`, `services/cache.py`)

A request works in one `AsyncSession`. What matters of it is its identity map: reading a seat or a
booking that the session has already loaded returns the loaded object, and a flush writes the seats
and bookings that changed, seats first. Users and routes are never changed by a session, and a list
of rows is read only by a session that has loaded nothing before; they need no map.
-/

namespace BusBookings

structure Session where
  seats : IdentityMap Seat := []
  bookings : IdentityMap Booking := []

/-- Code that works in a session. -/
abbrev SessionM (α : Type) := StateT Session Prog α

def await (c : Call) : SessionM (Reply c) := StateT.lift (Async.call c)

namespace Session

/-- `session.execute(select(Seat).where(Seat.id == seat_id))`. -/
def selectSeat (seatId : Int) : SessionM (Option Seat) := do
  match ← await (.selectSeat seatId) with
  | none => return none
  | some row => modifyGet fun s =>
    let (seat, seats) := s.seats.load Seat.id row
    (some seat, { s with seats })

/-- `session.execute(select(Booking).where(Booking.id == booking_id))`. -/
def selectBooking (bookingId : Int) : SessionM (Option Booking) := do
  match ← await (.selectBooking bookingId) with
  | none => return none
  | some row => modifyGet fun s =>
    let (booking, bookings) := s.bookings.load Booking.id row
    (some booking, { s with bookings })

def modifySeat (seatId : Int) (f : Seat → Seat) : SessionM Unit :=
  modify fun s => { s with seats := s.seats.modify Seat.id seatId f }

def modifyBooking (bookingId : Int) (f : Booking → Booking) : SessionM Unit :=
  modify fun s => { s with bookings := s.bookings.modify Booking.id bookingId f }

/-- `session.flush()` of the changed objects. -/
def flush : SessionM Unit := do
  let s ← get
  s.seats.dirty.forM fun seat => await (.updateSeat seat.id seat.isBooked)
  s.bookings.dirty.forM fun booking => await (.updateBooking booking.id booking.status)
  set { s with seats := s.seats.clean, bookings := s.bookings.clean }

/-- `session.refresh(booking)`. -/
def refreshBooking (bookingId : Int) : SessionM Booking := do
  match ← await (.selectBooking bookingId) with
  | none => throw .invalidRequest
  | some row =>
    modify fun s => { s with bookings := s.bookings.refresh Booking.id row }
    return row

/-- `session.commit()`. -/
def commit : SessionM Unit := do
  flush
  await .commit

end Session

/-- `get_db` around the rest of a request: commit, or roll back and raise again. -/
def getDb {α : Type} (body : SessionM α) : Prog α :=
  tryCatch (StateT.run' (do let a ← body; Session.commit; return a) {}) fun e => do
    Async.call Call.rollback
    throw e

namespace CacheService

def get (key : String) : SessionM (Option Json) := await (.get key)

def set (key : String) (value : Json) (ttl : Nat) : SessionM Unit := await (.setex key ttl value)

def deletePattern (pattern : String) : SessionM Unit := do
  let keys ← await (.keys pattern)
  if !keys.isEmpty then
    await (.delete keys)

end CacheService

end BusBookings
