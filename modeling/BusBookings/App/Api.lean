import BusBookings.App.BookingService
import BusBookings.App.Schemas

/-!
# The endpoints (`api/v1/*.py`) and the exception handlers (`exception/exception_handlers.py`)

`handler req` is the coroutine that serves a request once its parameters are validated, its token is
decoded (`userId`) and its rate-limit dependency has let it pass: the endpoint in a `get_db`
session, which is committed before the response is sent, and the exception handlers around it.
`semantics` puts the requests side by side on one `World`.
-/

namespace BusBookings

open Async

/-- `salt`: what `bcrypt.gensalt()` draws. -/
inductive Request where
  | register (payload : UserRegister) (salt : String)
  | login (username password : String)
  | createRoute (userId : Int) (payload : RouteCreate)
  | listRoutes (query : RouteQuery)
  | listSeats (routeId : Int)
  | createBooking (userId routeId seatId : Int)
  | myBookings (userId : Int)
  | cancelBooking (userId bookingId : Int)
deriving DecidableEq

inductive Response where
  | user (u : UserOut)
  | token (sub : String)
  | route (r : RouteOut)
  | routes (p : Page)
  | seats (l : List SeatOut)
  | created (b : Booking)
  | bookings (l : List Booking)
  | cancelled (b : Booking)
  | error (statusCode : Nat) (body : ErrorResponse)
deriving DecidableEq

/-- The status code of a response. -/
def Response.statusCode : Response → Nat
  | .user _ | .route _ | .created _ => 201
  | .token _ | .routes _ | .seats _ | .bookings _ | .cancelled _ => 200
  | .error statusCode _ => statusCode

/-! ## Endpoints -/

def register (server : Server) (payload : UserRegister) (salt : String) : SessionM Response := do
  raiseIf (← UserRepository.getByEmail payload.email).isSome 409 "Email already registered"
  let user ← UserRepository.create ⟨payload.email, payload.username, payload.firstName,
    payload.lastName, server.hashpw salt payload.password⟩
  return .user (.ofUser user)

def login (server : Server) (username password : String) : SessionM Response := do
  let some user ← UserRepository.getByEmail username
    | httpException 401 "Incorrect email or password"
  raiseIf (!server.checkpw password user.hashedPassword) 401 "Incorrect email or password"
  raiseIf (!user.isActive) 403 "User is inactive"
  return .token (toString user.id)

def getCurrentAdminUser (userId : Int) : SessionM Unit := do
  let some user ← UserRepository.getById userId
    | httpException 401 "Could not validate credentials"
  raiseIf (!user.isActive) 401 "Could not validate credentials"
  raiseIf (user.role ≠ .admin) 403 "Admin access required"

def createRoute (userId : Int) (payload : RouteCreate) : SessionM Response := do
  getCurrentAdminUser userId
  let some arrivalAt := strptime payload.arrivalAt | throw .value
  let some departureAt := strptime payload.departureAt | throw .value
  let route ← RouteRepository.create ⟨payload.origin, payload.destination, departureAt, arrivalAt,
    payload.totalSeats, payload.price⟩
  CacheService.deletePattern "routes:*"
  return .route (.ofRoute route)

/-- `if cached := await cache.get(key): return cached`, else `rest`. The endpoint's response model
reads what it returns. -/
def orCached {α : Type} (key : String) (ofJson? : Json → Option α) (resp : α → Response)
    (rest : SessionM Response) : SessionM Response := do
  match (← CacheService.get key).filter Json.truthy with
  | some cached =>
    let some a := ofJson? cached | throw .value
    return resp a
  | none => rest

/-- `f"{o}"` of an optional text. -/
def pyStr (o : Option String) : String := o.getD "None"

def routesKey (q : RouteQuery) : String :=
  s!"routes:{pyStr q.origin}:{pyStr q.destination}:{q.page}:{q.size}"

def listRoutes (q : RouteQuery) : SessionM Response :=
  orCached (routesKey q) Page.ofJson? .routes do
    let (routes, total) ← RouteRepository.listActive q.toRouteFilter q.page q.size
    let p : Page := ⟨total, q.page, q.size, routes.map .ofRoute⟩
    CacheService.set (routesKey q) p.toJson 30
    return .routes p

def listSeats (routeId : Int) : SessionM Response :=
  orCached (seatsKey routeId) seatsOfJson? .seats do
    let seats ← SeatRepository.listByRoute routeId
    let data := seats.map SeatOut.ofSeat
    CacheService.set (seatsKey routeId) (seatsToJson data) 15
    return .seats data

def endpoint (server : Server) : Request → SessionM Response
  | .register payload salt => register server payload salt
  | .login username password => login server username password
  | .createRoute userId payload => createRoute userId payload
  | .listRoutes q => listRoutes q
  | .listSeats routeId => listSeats routeId
  | .createBooking userId routeId seatId =>
    .created <$> BookingService.createBooking userId routeId seatId
  | .myBookings userId => .bookings <$> BookingRepository.listByUser userId
  | .cancelBooking userId bookingId => .cancelled <$> BookingService.cancelBooking bookingId userId

/-! ## Exception handlers -/

/-- `_STATUS_NAMES`. -/
def statusNames : List (Nat × String) :=
  [(400, "Bad Request"), (401, "Unauthorized"), (403, "Forbidden"), (404, "Not Found"),
   (409, "Conflict"), (422, "Unprocessable Entity"), (429, "Too Many Requests"),
   (500, "Internal Server Error")]

def errorName (statusCode : Nat) : String := (statusNames.lookup statusCode).getD "Error"

/-- `http_exception_handler` and `unhandled_exception_handlers`. -/
def errorResponse : Exc → Response
  | .http statusCode detail => .error statusCode { error := errorName statusCode, detail }
  | _ => .error 500
      { error := "Internal server error"
        detail := "An unexpected error occorred. Please try again later." }

def handler (server : Server) (req : Request) :
    Coro Call (fun c => Except Exc (Reply c)) Response := do
  match ← (getDb (endpoint server req)).run with
  | .ok response => return response
  | .error e => return errorResponse e

/-! ## The system -/

abbrev System := Async.System Call (fun c => Except Exc (Reply c)) World Request Response

abbrev Label := Async.Label Request Outcome EnvEvent

def semantics (server : Server) :
    Semantics Call (fun c => Except Exc (Reply c)) World Request Response Outcome EnvEvent where
  handler := handler server
  exec := exec server
  env := envStep

end BusBookings
