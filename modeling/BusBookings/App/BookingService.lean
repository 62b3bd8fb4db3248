import BusBookings.App.Repositories

/-!
# Creating and cancelling a booking (`services/booking_services.py`)
-/

namespace BusBookings

/-- An `HTTPException`. -/
def httpException {α : Type} (statusCode : Nat) (detail : String) : SessionM α :=
  throw (.http statusCode detail)

/-- `if cond: raise HTTPException(...)`. -/
def raiseIf (cond : Bool) (statusCode : Nat) (detail : String) : SessionM Unit :=
  if cond then httpException statusCode detail else pure ()

/-- The cache entry of a route's seats, and the pattern that deletes it. -/
def seatsKey (routeId : Int) : String := s!"seats:{routeId}:all"

def seatsPattern (routeId : Int) : String := s!"seats:{routeId}:*"

/-- `route_info`. -/
def routeInfo (route : Route) : String :=
  s!"{route.origin} → {route.destination} ({strftime route.departureAt})"

/-- `user.email if user else "unknown"`. -/
def userEmail (user : Option User) : String := (user.map (·.email)).getD "unknown"

namespace BookingService

def createBooking (userId routeId seatId : Int) : SessionM Booking := do
  let some route ← RouteRepository.getById routeId
    | httpException 404 "Route not found or is inactive"
  raiseIf (!route.isActive) 404 "Route not found or is inactive"
  let some seat ← SeatRepository.getById seatId
    | httpException 404 "Seat not found on this route"
  raiseIf (seat.routeId ≠ routeId) 404 "Seat not found on this route"
  raiseIf seat.isBooked 409 "Seat is already booked"
  let booking ← BookingRepository.create userId routeId seatId route.price
  SeatRepository.markBooked seatId
  let some booking ← BookingRepository.updateStatus booking.id .confirmed
    | throw .attribute
  CacheService.deletePattern (seatsPattern routeId)
  let user ← UserRepository.getById userId
  await (.publish (.confirmed booking.id (userEmail user) (routeInfo route)) queueConfirmed exchange)
  return booking

def cancelBooking (bookingId userId : Int) : SessionM Booking := do
  let some booking ← BookingRepository.getById bookingId
    | httpException 404 "Booking not found"
  raiseIf (booking.userId ≠ userId) 403 "This booking belongs to another user"
  raiseIf (booking.status = .cancelled) 400 "Booking is already cancelled"
  let some booking ← BookingRepository.updateStatus bookingId .cancelled
    | throw .attribute
  SeatRepository.markFree booking.seatId
  CacheService.deletePattern (seatsPattern booking.routeId)
  let user ← UserRepository.getById userId
  await (.publish (.cancelled bookingId (userEmail user)) queueCancelled exchange)
  return booking

end BookingService

end BusBookings
