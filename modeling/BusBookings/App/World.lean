import BusBookings.Base.Interleave
import BusBookings.Base.Redis
import BusBookings.App.Models
import BusBookings.App.Broker
import Mathlib.Data.List.Sort

/-!
# The stores and the awaited calls

`World` is everything the requests share: PostgreSQL at READ COMMITTED (`pg`) with its sequences,
Redis and the messages handed to RabbitMQ. `Call` lists the awaited calls of the application, one
constructor per kind of statement or command; each is one suspension point.
`exec server outcome i c w` is the effect of call `c` of request `i` (whose session is transaction
`i`): `none` while PostgreSQL makes the statement wait for a lock, a reply, or the exception the
statement raises. With `Outcome.fail` the call raises without effect, as it does when the connection
is lost; a failed rollback still ends the transaction, which PostgreSQL drops with its connection.
-/

namespace BusBookings

open Async ReadCommitted

/-- JSON documents, as `json.dumps` stores and `json.loads` reads them. -/
inductive Json where
  | null
  | bool (b : Bool)
  | num (n : Int)
  | str (s : String)
  | arr (l : List Json)
  | obj (l : List (String × Json))

/-- Python's truth value of a loaded document. -/
def Json.truthy : Json → Bool
  | .null => false
  | .bool b => b
  | .num n => n ≠ 0
  | .str s => s ≠ ""
  | .arr l => !l.isEmpty
  | .obj l => !l.isEmpty

/-- A message handed to the broker by request `sender`. -/
structure Publication where
  sender : Nat
  event : Event
  queue : RabbitQueue
  exchange : RabbitExchange
deriving DecidableEq, Repr

/-- The filters of `list_active`. -/
structure RouteFilter where
  origin : Option String
  destination : Option String
deriving DecidableEq, Repr

/-- What the code depends on and does not decide: how asyncpg reads a naive datetime in the time
zone of the process, the collation's case folding, bcrypt, and the order of selected rows: of routes
with equal `departure_at`, and of a user's bookings (by `created_at`, which is not modelled). -/
structure Server where
  toUtc : DateTime → DateTime
  fold : Char → Char
  hashpw : (salt password : String) → String
  checkpw : (password hashed : String) → Bool
  order : RouteFilter → (offset limit : Int) → List Route → List Route
  order_perm : ∀ f o l rs, (order f o l rs).Perm rs
  order_sorted : ∀ f o l rs,
    (order f o l rs).Pairwise fun r r' => r.departureAt.rank ≤ r'.departureAt.rank
  newestFirst : List Booking → List Booking
  newestFirst_perm : ∀ bs, (newestFirst bs).Perm bs

structure World where
  pg : Store Db.schema
  nextUser : Int
  nextRoute : Int
  nextSeat : Int
  nextBooking : Int
  redis : Redis.Keyspace Json
  published : List Publication

namespace World

/-- The committed database. -/
abbrev db (w : World) : Db := w.pg.committed

/-- What a statement of transaction `i` sees. -/
abbrev view (w : World) (i : Nat) : Db := w.pg.view i

end World

/-! ## `ILIKE` -/

/-- A text against an `ILIKE` pattern: `%` any text, `_` any character, `\` escapes. -/
def ilike (fold : Char → Char) : List Char → List Char → Bool
  | [], s => s.isEmpty
  | '%' :: p, s => s.tails.any (ilike fold p)
  | '_' :: _, [] => false
  | '_' :: p, _ :: s => ilike fold p s
  | '\\' :: c :: p, s => match s with
    | [] => false
    | x :: s => fold x == fold c && ilike fold p s
  | _ :: _, [] => false
  | c :: p, x :: s => fold x == fold c && ilike fold p s

/-- `column.ilike(f"%{text}%")`. -/
def ilikeContains (fold : Char → Char) (column text : String) : Bool :=
  ilike fold s!"%{text}%".toList column.toList

/-- A filter is applied if it is given and not empty. -/
def RouteFilter.accepts (fold : Char → Char) (f : RouteFilter) (r : Route) : Bool :=
  let given (o : Option String) (column : String) : Bool := match o with
    | none => true
    | some text => text = "" || ilikeContains fold column text
  r.isActive && given f.origin r.origin && given f.destination r.destination

/-! ## Calls -/

/-- The values of an `INSERT INTO users`: no id, and the model's defaults for the other columns. -/
structure NewUser where
  email : String
  username : String
  firstName : String
  lastName : String
  hashedPassword : String
deriving DecidableEq, Repr

structure NewRoute where
  origin : String
  destination : String
  departureAt : DateTime
  arrivalAt : DateTime
  totalSeats : Int
  price : Cents
deriving DecidableEq, Repr

structure NewBooking where
  userId : Int
  routeId : Int
  seatId : Int
  totalPrice : Cents
  status : BookingStatus
deriving DecidableEq, Repr

inductive Call where
  | selectUser (userId : Int)
  | selectUserByEmail (email : String)
  | selectRoute (routeId : Int)
  | selectSeat (seatId : Int)
  | selectBooking (bookingId : Int)
  | selectSeats (routeId : Int)
  | selectBookings (userId : Int)
  | countRoutes (f : RouteFilter)
  | selectRoutes (f : RouteFilter) (offset limit : Int)
  | insertUser (row : NewUser)
  | insertRoute (row : NewRoute)
  | insertSeats (routeId : Int) (numbers : List Int)
  | insertBooking (row : NewBooking)
  | updateSeat (seatId : Int) (isBooked : Bool)
  | updateBooking (bookingId : Int) (status : BookingStatus)
  | commit
  | rollback
  | get (key : String)
  | setex (key : String) (ttl : Nat) (value : Json)
  | keys (pattern : String)
  | delete (keys : List String)
  | publish (event : Event) (queue : RabbitQueue) (exchange : RabbitExchange)

/-- The reply a call returns when it does not raise. -/
def Reply : Call → Type
  | .selectUser _ | .selectUserByEmail _ => Option User
  | .selectRoute _ => Option Route
  | .selectSeat _ => Option Seat
  | .selectBooking _ => Option Booking
  | .selectSeats _ => List Seat
  | .selectBookings _ => List Booking
  | .countRoutes _ => Int
  | .selectRoutes .. => List Route
  | .insertUser _ | .insertRoute _ | .insertBooking _ => Int
  | .get _ => Option Json
  | .keys _ => List String
  | _ => Unit

abbrev Prog (α : Type) := Async.Prog Call Reply Exc α

/-! ## The effect of a call -/

/-- Whether an awaited call is carried out or fails. -/
inductive Outcome where
  | ok
  | fail
deriving DecidableEq, Repr

namespace World

/-- A statement of transaction `i` that changes rows. -/
def change (w : World) (i : Nat) (ch : Change) : Option (Except Exc Unit × World) :=
  if h : w.pg.blocked i ch = false then
    match (w.view i).violation ch with
    | some e => some (.error e, w)
    | none => some (.ok (), { w with pg := w.pg.write i ch h })
  else none

/-- An `INSERT` whose primary key is the sequence value `id`. -/
def insert (w : World) (i : Nat) (ch : Change) (id : Int) : Option (Except Exc Int × World) :=
  (w.change i ch).map fun p => (p.1.map fun _ => id, p.2)

/-- `SELECT … FROM seats WHERE route_id = … ORDER BY seat_number`. -/
def seatsOf (db : Db) (routeId : Int) : List Seat :=
  (db.seats.rows.filter (·.routeId = routeId)).insertionSort fun s s' => s.seatNumber ≤ s'.seatNumber

/-- The rows `list_active` selects: `… ORDER BY departure_at OFFSET … LIMIT …`. -/
def routesOf (server : Server) (db : Db) (f : RouteFilter) (offset limit : Int) : List Route :=
  ((server.order f offset limit (db.routes.rows.filter (f.accepts server.fold))).drop
    offset.toNat).take limit.toNat

def commit (w : World) (i : Nat) : World := { w with pg := w.pg.commit i }

def rollback (w : World) (i : Nat) : World := { w with pg := w.pg.rollback i }

/-- The seats numbered `numbers` of a route, with ids from `next` on. -/
def newSeats (routeId next : Int) : List Int → List Seat
  | [] => []
  | n :: ns => ⟨next, routeId, n, false⟩ :: newSeats routeId (next + 1) ns

end World

def exec (server : Server) : Outcome → Nat → (c : Call) → World → Option (Except Exc (Reply c) × World)
  | .fail, i, .rollback, w => some (.error .infrastructure, w.rollback i)
  | .fail, _, _, w => some (.error .infrastructure, w)
  | .ok, i, .selectUser id, w => some (.ok ((w.view i).users.find? id), w)
  | .ok, i, .selectUserByEmail email, w =>
    some (.ok ((w.view i).users.rows.find? (·.email = email)), w)
  | .ok, i, .selectRoute id, w => some (.ok ((w.view i).routes.find? id), w)
  | .ok, i, .selectSeat id, w => some (.ok ((w.view i).seats.find? id), w)
  | .ok, i, .selectBooking id, w => some (.ok ((w.view i).bookings.find? id), w)
  | .ok, i, .selectSeats routeId, w => some (.ok (World.seatsOf (w.view i) routeId), w)
  | .ok, i, .selectBookings userId, w =>
    some (.ok (server.newestFirst ((w.view i).bookings.rows.filter (·.userId = userId))), w)
  | .ok, i, .countRoutes f, w =>
    some (.ok (((w.view i).routes.rows.countP (f.accepts server.fold) : Nat) : Int), w)
  | .ok, i, .selectRoutes f offset limit, w =>
    some (.ok (World.routesOf server (w.view i) f offset limit), w)
  | .ok, i, .insertUser row, w =>
    { w with nextUser := w.nextUser + 1 }.insert i
      (.insertUser ⟨w.nextUser, row.email, row.hashedPassword, row.username, row.firstName,
        row.lastName, true, .user⟩) w.nextUser
  | .ok, i, .insertRoute row, w =>
    { w with nextRoute := w.nextRoute + 1 }.insert i
      (.insertRoute ⟨w.nextRoute, row.origin, row.destination, server.toUtc row.departureAt,
        server.toUtc row.arrivalAt, row.totalSeats, row.price, true⟩) w.nextRoute
  | .ok, i, .insertSeats routeId numbers, w =>
    { w with nextSeat := w.nextSeat + numbers.length }.change i
      (.insertSeats (World.newSeats routeId w.nextSeat numbers))
  | .ok, i, .insertBooking row, w =>
    { w with nextBooking := w.nextBooking + 1 }.insert i
      (.insertBooking ⟨w.nextBooking, row.userId, row.routeId, row.seatId, row.status,
        row.totalPrice⟩) w.nextBooking
  | .ok, i, .updateSeat id flag, w => w.change i (.updateSeat id flag)
  | .ok, i, .updateBooking id status, w => w.change i (.updateBooking id status)
  | .ok, i, .commit, w => some (.ok (), w.commit i)
  | .ok, i, .rollback, w => some (.ok (), w.rollback i)
  | .ok, _, .get key, w => some (.ok (w.redis.get key), w)
  | .ok, _, .setex key _ value, w => some (.ok (), { w with redis := w.redis.set key value })
  | .ok, _, .keys pattern, w => some (.ok (w.redis.keysOf pattern), w)
  | .ok, _, .delete keys, w => some (.ok (), { w with redis := w.redis.del keys })
  | .ok, i, .publish event queue exchange, w =>
    some (.ok (), { w with published := w.published ++ [⟨i, event, queue, exchange⟩] })

/-! ## The surroundings -/

/-- What happens without a request: a cache entry expires, or an administrator changes a user's row
directly in the database. -/
inductive EnvEvent where
  | expire (key : String)
  | setActive (userId : Int) (isActive : Bool)
  | setRole (userId : Int) (role : UserStatus)
deriving DecidableEq, Repr

def World.updateUser (w : World) (userId : Int) (f : User → User) (hf : ∀ u, (f u).id = u.id) : World :=
  { w with pg := { w.pg with committed :=
      { w.pg.committed with users := w.pg.committed.users.update userId f hf } } }

def envStep : EnvEvent → World → Option World
  | .expire key, w => some { w with redis := w.redis.del [key] }
  | .setActive userId isActive, w =>
    some (w.updateUser userId (fun u => { u with isActive }) fun _ => rfl)
  | .setRole userId role, w => some (w.updateUser userId (fun u => { u with role }) fun _ => rfl)

end BusBookings
