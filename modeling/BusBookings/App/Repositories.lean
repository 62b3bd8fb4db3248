import BusBookings.App.Session

/-!
# The repositories (`repositories/*.py`)
-/

namespace BusBookings

namespace UserRepository

def getById (userId : Int) : SessionM (Option User) := await (.selectUser userId)

def getByEmail (email : String) : SessionM (Option User) := await (.selectUserByEmail email)

def create (row : NewUser) : SessionM User := do
  let userId ← await (.insertUser row)
  match ← await (.selectUser userId) with
  | none => throw .invalidRequest
  | some user => return user

end UserRepository

namespace RouteRepository

def getById (routeId : Int) : SessionM (Option Route) := await (.selectRoute routeId)

def listActive (f : RouteFilter) (page size : Int) : SessionM (List Route × Int) := do
  let total ← await (.countRoutes f)
  let rows ← await (.selectRoutes f ((page - 1) * size) size)
  return (rows, total)

/-- `range(1, n + 1)`. -/
def seatNumbers (n : Int) : List Int := (List.range n.toNat).map fun k => (k : Int) + 1

def create (row : NewRoute) : SessionM Route := do
  let routeId ← await (.insertRoute row)
  match ← await (.selectRoute routeId) with
  | none => throw .invalidRequest
  | some route =>
    if !(seatNumbers route.totalSeats).isEmpty then
      await (.insertSeats route.id (seatNumbers route.totalSeats))
    return route

end RouteRepository

namespace SeatRepository

def getById (seatId : Int) : SessionM (Option Seat) := Session.selectSeat seatId

def listByRoute (routeId : Int) : SessionM (List Seat) := await (.selectSeats routeId)

def mark (isBooked : Bool) (seatId : Int) : SessionM Unit := do
  if (← getById seatId).isSome then
    Session.modifySeat seatId (Db.setBooked isBooked)

def markBooked (seatId : Int) : SessionM Unit := mark true seatId

def markFree (seatId : Int) : SessionM Unit := mark false seatId

end SeatRepository

namespace BookingRepository

def getById (bookingId : Int) : SessionM (Option Booking) := Session.selectBooking bookingId

def listByUser (userId : Int) : SessionM (List Booking) := await (.selectBookings userId)

def create (userId routeId seatId : Int) (totalPrice : Cents) : SessionM Booking := do
  Session.flush
  let bookingId ← await (.insertBooking ⟨userId, routeId, seatId, totalPrice, .pending⟩)
  Session.refreshBooking bookingId

def updateStatus (bookingId : Int) (status : BookingStatus) : SessionM (Option Booking) := do
  if (← getById bookingId).isNone then
    return none
  Session.modifyBooking bookingId (Db.setStatus status)
  Session.flush
  return some (← Session.refreshBooking bookingId)

end BookingRepository

end BusBookings
