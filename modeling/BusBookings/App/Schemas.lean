import BusBookings.App.World

/-!
# Payloads and answers (`schemas/*.py`)

A payload type holds the values its validators accept. Answers are pydantic models; what the cache
stores is their JSON (`toJson`), which an endpoint answers with once its response model has read it
back (`ofJson?`).
-/

namespace BusBookings

/-- `validate_dates_order`. -/
def datesOrdered (departureAt arrivalAt : String) : Bool :=
  match strptime departureAt, strptime arrivalAt with
  | some dep, some arr => dep.rank < arr.rank
  | _, _ => false

structure RouteCreate where
  origin : String
  destination : String
  departureAt : String
  arrivalAt : String
  totalSeats : Int
  price : Cents
  origin_length : 2 ≤ origin.length ∧ origin.length ≤ 100
  destination_length : 2 ≤ destination.length ∧ destination.length ≤ 100
  totalSeats_bound : 0 < totalSeats ∧ totalSeats ≤ 60
  price_pos : 0 < price
  dates : datesOrdered departureAt arrivalAt = true
deriving DecidableEq

structure UserRegister where
  email : String
  username : String
  firstName : String
  lastName : String
  password : String
  password_length : 8 ≤ password.length
deriving DecidableEq

/-- The query parameters of `GET /routes`. -/
structure RouteQuery extends RouteFilter where
  page : Int
  size : Int
  page_bound : 1 ≤ page
  size_bound : 1 ≤ size ∧ size ≤ 100
deriving DecidableEq

/-! ## Answers -/

structure SeatOut where
  id : Int
  seatNumber : Int
  isBooked : Bool
deriving DecidableEq, Repr

def SeatOut.ofSeat (s : Seat) : SeatOut := ⟨s.id, s.seatNumber, s.isBooked⟩

structure RouteOut where
  id : Int
  origin : String
deriving DecidableEq, Repr

def RouteOut.ofRoute (r : Route) : RouteOut := ⟨r.id, r.origin⟩

structure Page where
  total : Int
  page : Int
  size : Int
  items : List RouteOut
deriving DecidableEq, Repr

structure UserOut where
  id : Int
  email : String
  username : String
  firstName : String
  lastName : String
  isActive : Bool
  role : UserStatus
deriving DecidableEq, Repr

def UserOut.ofUser (u : User) : UserOut :=
  ⟨u.id, u.email, u.username, u.firstName, u.lastName, u.isActive, u.role⟩

structure ErrorResponse where
  error : String
  detail : String
  field : Option String := none
deriving DecidableEq, Repr

/-! ## JSON -/

def SeatOut.toJson (s : SeatOut) : Json :=
  .obj [("id", .num s.id), ("seat_number", .num s.seatNumber), ("is_booked", .bool s.isBooked)]

def SeatOut.ofJson? : Json → Option SeatOut
  | .obj [("id", .num id), ("seat_number", .num seatNumber), ("is_booked", .bool isBooked)] =>
    some ⟨id, seatNumber, isBooked⟩
  | _ => none

def RouteOut.toJson (r : RouteOut) : Json := .obj [("id", .num r.id), ("origin", .str r.origin)]

def RouteOut.ofJson? : Json → Option RouteOut
  | .obj [("id", .num id), ("origin", .str origin)] => some ⟨id, origin⟩
  | _ => none

def seatsToJson (l : List SeatOut) : Json := .arr (l.map SeatOut.toJson)

def seatsOfJson? : Json → Option (List SeatOut)
  | .arr l => l.mapM SeatOut.ofJson?
  | _ => none

def Page.toJson (p : Page) : Json :=
  .obj [("total", .num p.total), ("page", .num p.page), ("size", .num p.size),
    ("items", .arr (p.items.map RouteOut.toJson))]

def Page.ofJson? : Json → Option Page
  | .obj [("total", .num total), ("page", .num page), ("size", .num size), ("items", .arr l)] =>
    (l.mapM RouteOut.ofJson?).map (⟨total, page, size, ·⟩)
  | _ => none

@[simp] theorem SeatOut.ofJson_toJson (s : SeatOut) : SeatOut.ofJson? s.toJson = some s := rfl

@[simp] theorem RouteOut.ofJson_toJson (r : RouteOut) : RouteOut.ofJson? r.toJson = some r := rfl

/-- What reads back each value reads back a list of them. -/
theorem mapM_map_of_leftInverse {α β : Type} {f : α → β} {g : β → Option α}
    (h : ∀ a, g (f a) = some a) (l : List α) : (l.map f).mapM g = some l := by
  induction l with
  | nil => rfl
  | cons a l ih => simp [h, ih]

@[simp] theorem seatsOfJson_seatsToJson (l : List SeatOut) :
    seatsOfJson? (seatsToJson l) = some l :=
  mapM_map_of_leftInverse SeatOut.ofJson_toJson l

@[simp] theorem Page.ofJson_toJson (p : Page) : Page.ofJson? p.toJson = some p := by
  simp [Page.toJson, Page.ofJson?, mapM_map_of_leftInverse RouteOut.ofJson_toJson]

end BusBookings
