import BusBookings.App.Api
import BusBookings.App.Security

/-!
# Requests as they arrive

A request comes with its bearer token, if it has one, and with the body its client wrote.
`Http.request` is what its endpoint gets: the validated parameters, and the user of the token in
place of whatever the body says.
-/

namespace BusBookings

/-- pydantic's `int` and `EmailStr`: the validated value, if there is one. -/
structure Pydantic where
  int : Json → Option Int
  emailStr : String → Option String

/-- The value of a field of a body. -/
def Json.field (name : String) : Json → Option Json
  | .obj fields => fields.lookup name
  | _ => none

/-- A field of type `str`. -/
def Json.text (name : String) (body : Json) : Option String :=
  match body.field name with
  | some (.str s) => some s
  | _ => none

def UserRegister.ofJson? (pydantic : Pydantic) (body : Json) : Option UserRegister := do
  let email ← pydantic.emailStr (← body.text "email")
  let username ← body.text "username"
  let firstName ← body.text "first_name"
  let lastName ← body.text "last_name"
  let password ← body.text "password"
  if h : 8 ≤ password.length then some ⟨email, username, firstName, lastName, password, h⟩ else none

structure BookingCreate where
  routeId : Int
  seatId : Int

def BookingCreate.ofJson? (pydantic : Pydantic) (body : Json) : Option BookingCreate := do
  let routeId ← pydantic.int (← body.field "route_id")
  let seatId ← pydantic.int (← body.field "seat_id")
  return ⟨routeId, seatId⟩

abbrev Kwargs := AList fun _ : String => Int

def BookingCreate.modelDump (payload : BookingCreate) : Kwargs :=
  ((∅ : Kwargs).insert "seat_id" payload.seatId).insert "route_id" payload.routeId

/-- `booking_seat` of `create_booking`. -/
def bookingSeat (payload : BookingCreate) (userId : Int) : Kwargs :=
  (payload.modelDump.erase "user_id").insert "user_id" userId

/-- The call `service.create_booking(**kwargs)`. -/
def createBookingCall (kwargs : Kwargs) : Option Request := do
  return .createBooking (← kwargs.lookup "user_id") (← kwargs.lookup "route_id") (← kwargs.lookup "seat_id")

theorem createBookingCall_bookingSeat (payload : BookingCreate) (userId : Int) :
    createBookingCall (bookingSeat payload userId) =
      some (.createBooking userId payload.routeId payload.seatId) := by
  rfl

section

variable {Token : Type}

/-- `OAuth2PasswordBearer`. -/
def oauth2Scheme (auth : Option Token) : Except Exc Token :=
  match auth with
  | none => .error (.http 401 "Not authenticated")
  | some token => .ok token

/-- The user of the bearer token. -/
def bearer (jwt : Jwt Token) (now : Int) (auth : Option Token) : Except Exc Int := do
  getCurrentUserId jwt now (← oauth2Scheme auth)

inductive Http (Token : Type) where
  | register (body : Json) (salt : String)
  | login (username password : String)
  | createRoute (auth : Option Token) (payload : RouteCreate)
  | listRoutes (query : RouteQuery)
  | listSeats (routeId : Int)
  | createBooking (auth : Option Token) (body : Json)
  | myBookings (auth : Option Token)
  | cancelBooking (auth : Option Token) (bookingId : Int)

/-- The request that reaches its endpoint; `none`: the token or a parameter is refused. -/
def Http.request (jwt : Jwt Token) (pydantic : Pydantic) (now : Int) : Http Token → Option Request
  | .register body salt => return .register (← UserRegister.ofJson? pydantic body) salt
  | .login username password => some (.login username password)
  | .createRoute auth payload => return .createRoute (← (bearer jwt now auth).toOption) payload
  | .listRoutes query => some (.listRoutes query)
  | .listSeats routeId => some (.listSeats routeId)
  | .createBooking auth body => do
    let userId ← (bearer jwt now auth).toOption
    createBookingCall (bookingSeat (← BookingCreate.ofJson? pydantic body) userId)
  | .myBookings auth => return .myBookings (← (bearer jwt now auth).toOption)
  | .cancelBooking auth bookingId => return .cancelBooking (← (bearer jwt now auth).toOption) bookingId

/-- The claims of the tokens that `login` issues. -/
def subject (sub : String) : Claims := (∅ : Claims).insert "sub" (.str sub)

/-- The token of an answer given at `now`. -/
def Response.accessToken (jwt : Jwt Token) (expireMinutes now : Int) : Response → Option Token
  | .token sub => createAccessToken jwt expireMinutes now (subject sub) none
  | _ => none

end

end BusBookings
