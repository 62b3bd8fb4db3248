import BusBookings.App.Api

/-!
# The protocol of a request

The requests as state machines over the `World`: a `Stage` says how far a request has come and what
it has read, `Step` what one of its calls does. Reads that only look again at an object of the session
do not change the stage. A row that is missing although the request has seen or written it before
leads to the stage `lost`, about which the protocol says nothing; an invariant excludes it.

* `Stage.writes`: the uncommitted changes of a request, read off its stage.
* `protocol`: the protocol, which `handler` refines (`Protocol/Simulation.lean`).
-/

namespace BusBookings

open Async

/-- What a request has done when only its commit, its cache invalidation and its event are left:
`create b route` inserted `b` and confirmed it, `cancel b free` cancelled the booking it had read as
`b` and has its seat still to write if `free`, `route r first` inserted `r` and seats with ids from
`first` on. -/
inductive Job where
  | create (b : Booking) (route : Route)
  | cancel (b : Booking) (free : Bool)
  | route (r : Route) (first : Int)
  | register (u : User)
  | read (resp : Response)

namespace Job

def response : Job → Response
  | .create b _ => .created (Db.setStatus .confirmed b)
  | .cancel b _ => .cancelled (Db.setStatus .cancelled b)
  | .route r _ => .route (.ofRoute r)
  | .register u => .user (.ofUser u)
  | .read resp => resp

/-- The cache entries a job deletes. -/
def pattern : Job → String
  | .create b _ | .cancel b _ => seatsPattern b.routeId
  | _ => "routes:*"

def queue : Job → RabbitQueue
  | .cancel .. => queueCancelled
  | _ => queueConfirmed

/-- The event of a job, for the user's e-mail. -/
def event? (email : String) : Job → Option Event
  | .create b onRoute => some (.confirmed b.id email (routeInfo onRoute))
  | .cancel b _ => some (.cancelled b.id email)
  | _ => none

def writes : Job → List Change
  | .create b _ => [.insertBooking b, .updateSeat b.seatId true, .updateBooking b.id .confirmed]
  | .cancel b _ => [.updateBooking b.id .cancelled]
  | .route r first => [.insertRoute r,
      .insertSeats (World.newSeats r.id first (RouteRepository.seatNumbers r.totalSeats))]
  | .register u => [.insertUser u]
  | .read _ => []

end Job

inductive Stage where
  | start
  | routeRead (route : Route)
  | seatRead (route : Route)
  | inserted (route : Route) (b : Booking)
  | marked (route : Route) (b : Booking)
  | confirmed (route : Route) (b : Booking)
  | bookingRead (b : Booking)
  | cancelled (b : Booking)
  | refreshed (b : Booking)
  | adminRead
  | routeInserted (r : Route)
  | routeRefreshed (r : Route)
  | missed
  | counted (total : Int)
  | storing (key : String) (ttl : Nat) (value : Json) (resp : Response)
  | emailFree
  | userInserted (u : User)
  | invalidating (j : Job)
  | deleting (j : Job) (keys : List String)
  | invalidated (j : Job)
  | notifying (j : Job) (email : String)
  | flushing (b : Booking)
  | closing (j : Job)
  | failing (e : Exc)
  | ended (resp : Response)
  | lost

namespace Stage

/-- The stage after the cache invalidation. -/
def afterDelete (j : Job) : Stage := match j with
  | .create .. | .cancel .. => .invalidated j
  | _ => .closing j

def afterKeys (j : Job) (keys : List String) : Stage :=
  if keys.isEmpty then afterDelete j else .deleting j keys

/-- The stage after the publication: a cancellation still has its seat to write. -/
def afterPublish : Job → Stage
  | .cancel b true => .flushing b
  | j => .closing j

/-- The uncommitted changes of a request that has neither failed nor ended. -/
def writes : Stage → List Change
  | .inserted _ b => [.insertBooking b]
  | .marked _ b => [.insertBooking b, .updateSeat b.seatId true]
  | .confirmed _ b =>
    [.insertBooking b, .updateSeat b.seatId true, .updateBooking b.id .confirmed]
  | .cancelled b | .refreshed b | .flushing b => [.updateBooking b.id .cancelled]
  | .routeInserted r | .routeRefreshed r => [.insertRoute r]
  | .userInserted u => [.insertUser u]
  | .invalidating j | .deleting j _ | .invalidated j | .notifying j _ => j.writes
  | .closing (.cancel b true) => [.updateBooking b.id .cancelled, .updateSeat b.seatId false]
  | .closing j => j.writes
  | _ => []

end Stage

/-- The calls a request may wait for in a stage. -/
def Waits : Request → Stage → Call → Prop
  | .createBooking _ r _, .start, c => c = .selectRoute r
  | .createBooking _ _ s, .routeRead _, c => c = .selectSeat s
  | .createBooking u r s, .seatRead route, c => c = .insertBooking ⟨u, r, s, route.price, .pending⟩
  | .createBooking _ _ s, .inserted _ b, c =>
    c = .selectBooking b.id ∨ c = .selectSeat s ∨ c = .updateSeat s true
  | .createBooking .., .marked _ b, c => c = .updateBooking b.id .confirmed
  | .createBooking .., .confirmed _ b, c => c = .selectBooking b.id
  | .cancelBooking _ b, .start, c => c = .selectBooking b
  | .cancelBooking _ b, .bookingRead _, c => c = .selectBooking b ∨ c = .updateBooking b .cancelled
  | .cancelBooking _ b, .cancelled _, c => c = .selectBooking b
  | .cancelBooking .., .refreshed b, c => c = .selectSeat b.seatId
  | .createRoute u _, .start, c => c = .selectUser u
  | .createRoute .., .adminRead, c => ∃ row, c = .insertRoute row
  | .createRoute .., .routeInserted r, c => c = .selectRoute r.id
  | .createRoute .., .routeRefreshed r, c =>
    c = .insertSeats r.id (RouteRepository.seatNumbers r.totalSeats)
  | .listRoutes q, .start, c => c = .get (routesKey q)
  | .listRoutes q, .missed, c => c = .countRoutes q.toRouteFilter
  | .listRoutes q, .counted _, c => c = .selectRoutes q.toRouteFilter ((q.page - 1) * q.size) q.size
  | .listSeats r, .start, c => c = .get (seatsKey r)
  | .listSeats r, .missed, c => c = .selectSeats r
  | .register p _, .start, c => c = .selectUserByEmail p.email
  | .register .., .emailFree, c => ∃ row, c = .insertUser row
  | .register .., .userInserted u, c => c = .selectUser u.id
  | .login username _, .start, c => c = .selectUserByEmail username
  | .myBookings u, .start, c => c = .selectBookings u
  | _, .storing key ttl value _, c => c = .setex key ttl value
  | _, .invalidating j, c => c = .keys j.pattern
  | _, .deleting _ keys, c => c = .delete keys
  | .createBooking u _ _, .invalidated _, c | .cancelBooking u _, .invalidated _, c =>
    c = .selectUser u
  | _, .notifying j email, c =>
    ∃ event, j.event? email = some event ∧ c = .publish event j.queue exchange
  | _, .flushing b, c => c = .updateSeat b.seatId false
  | _, .closing _, c => c = .commit
  | _, .failing _, c => c = .rollback
  | _, .lost, _ => True
  | _, _, _ => False

/-! ## What a call does -/

/-- What `cancel_booking` makes of the booking it reads. -/
def cancelCheck (userId : Int) : Option Booking → Stage
  | none => .failing (.http 404 "Booking not found")
  | some b =>
    if b.userId ≠ userId then .failing (.http 403 "This booking belongs to another user")
    else if b.status = .cancelled then .failing (.http 400 "Booking is already cancelled")
    else .bookingRead b

/-- What `create_booking` makes of the route it reads. -/
def routeCheck : Option Route → Stage
  | none => .failing (.http 404 "Route not found or is inactive")
  | some route =>
    if route.isActive then .routeRead route
    else .failing (.http 404 "Route not found or is inactive")

/-- What `create_booking` makes of the seat it reads. -/
def seatCheck (routeId : Int) (route : Route) : Option Seat → Stage
  | none => .failing (.http 404 "Seat not found on this route")
  | some seat =>
    if seat.routeId ≠ routeId then .failing (.http 404 "Seat not found on this route")
    else if seat.isBooked then .failing (.http 409 "Seat is already booked")
    else .seatRead route

/-- What `get_current_admin_user` makes of the user it reads. -/
def adminCheck : Option User → Stage
  | none => .failing (.http 401 "Could not validate credentials")
  | some user =>
    if !user.isActive then .failing (.http 401 "Could not validate credentials")
    else if user.role ≠ .admin then .failing (.http 403 "Admin access required")
    else .adminRead

/-- What `login` makes of the user it reads. -/
def loginCheck (server : Server) (password : String) : Option User → Stage
  | none => .failing (.http 401 "Incorrect email or password")
  | some user =>
    if !server.checkpw password user.hashedPassword then
      .failing (.http 401 "Incorrect email or password")
    else if !user.isActive then .failing (.http 403 "User is inactive")
    else .closing (.read (.token (toString user.id)))

/-- What `register` makes of the user it reads. -/
def registerCheck : Option User → Stage
  | none => .emailFree
  | some _ => .failing (.http 409 "Email already registered")

/-- What a reader makes of its cache entry. -/
def cacheCheck {α : Type} (ofJson? : Json → Option α) (resp : α → Response) (entry : Option Json) :
    Stage :=
  match entry.filter Json.truthy with
  | none => .missed
  | some cached =>
    match ofJson? cached with
    | some a => .closing (.read (resp a))
    | none => .failing .value

/-! Every check fails with an error, or leads to its next stage. -/

section

variable {motive : Stage → Prop}

@[elab_as_elim]
theorem routeCheck_ind (hf : ∀ e, motive (.failing e)) (h : ∀ route, motive (.routeRead route))
    (o : Option Route) :
    motive (routeCheck o) := by
  unfold routeCheck
  split
  · exact hf _
  · split
    · exact h _
    · exact hf _

@[elab_as_elim]
theorem seatCheck_ind {routeId : Int} {route : Route} (hf : ∀ e, motive (.failing e))
    (h : motive (.seatRead route)) (o : Option Seat) : motive (seatCheck routeId route o) := by
  unfold seatCheck
  split
  · exact hf _
  · split
    · exact hf _
    · split
      · exact hf _
      · exact h

@[elab_as_elim]
theorem cancelCheck_ind {userId : Int} (hf : ∀ e, motive (.failing e)) (h : ∀ b, motive (.bookingRead b))
    (o : Option Booking) : motive (cancelCheck userId o) := by
  unfold cancelCheck
  split
  · exact hf _
  · split
    · exact hf _
    · split
      · exact hf _
      · exact h _

@[elab_as_elim]
theorem adminCheck_ind (hf : ∀ e, motive (.failing e)) (h : motive .adminRead) (o : Option User) :
    motive (adminCheck o) := by
  unfold adminCheck
  split
  · exact hf _
  · split
    · exact hf _
    · split
      · exact hf _
      · exact h

@[elab_as_elim]
theorem loginCheck_ind {server : Server} {password : String} (hf : ∀ e, motive (.failing e))
    (h : ∀ token, motive (.closing (.read (.token token)))) (o : Option User) :
    motive (loginCheck server password o) := by
  unfold loginCheck
  split
  · exact hf _
  · split
    · exact hf _
    · split
      · exact hf _
      · exact h _

@[elab_as_elim]
theorem registerCheck_ind (hf : ∀ e, motive (.failing e)) (h : motive .emailFree) (o : Option User) :
    motive (registerCheck o) := by
  cases o with
  | none => exact h
  | some u => exact hf _

@[elab_as_elim]
theorem cacheCheck_ind {α : Type} {ofJson? : Json → Option α} {resp : α → Response}
    (hf : ∀ e, motive (.failing e)) (hm : motive .missed) (h : ∀ a, motive (.closing (.read (resp a))))
    (entry : Option Json) : motive (cacheCheck ofJson? resp entry) := by
  unfold cacheCheck
  split
  · exact hm
  · split
    · exact h _
    · exact hf _

end

/-- The queries whose row the request has to find as it left it (`p`), on the database `v` it sees. -/
inductive Again (v : Db) : Request → Call → Stage → (p : Prop) → Stage → Prop
  | ownBooking {u r s id : Int} {route : Route} {b : Booking} : id = b.id →
      Again v (.createBooking u r s) (.selectBooking id) (.inserted route b)
        (v.bookings.find? id = some b) (.inserted route b)
  | ownSeat {u r s : Int} {route : Route} {b : Booking} :
      Again v (.createBooking u r s) (.selectSeat s) (.inserted route b)
        ((v.seats.find? s).isSome) (.inserted route b)
  | created {u r s id : Int} {route : Route} {b : Booking} : id = b.id →
      Again v (.createBooking u r s) (.selectBooking id) (.confirmed route b)
        (v.bookings.find? id = some (Db.setStatus .confirmed b)) (.invalidating (.create b route))
  | booking {u id : Int} {b : Booking} :
      Again v (.cancelBooking u id) (.selectBooking id) (.bookingRead b)
        ((v.bookings.find? id).isSome) (.bookingRead b)
  | refreshed {u id : Int} {b : Booking} :
      Again v (.cancelBooking u id) (.selectBooking id) (.cancelled b)
        (v.bookings.find? id = some (Db.setStatus .cancelled b)) (.refreshed b)
  | bookedSeat {u id s : Int} {b : Booking} {free : Bool} : s = b.seatId →
      Again v (.cancelBooking u id) (.selectSeat s) (.refreshed b)
        ((v.seats.find? s).map (·.isBooked) = some free) (.invalidating (.cancel b free))
  | newRoute {u id : Int} {p : RouteCreate} {r : Route} : id = r.id →
      Again v (.createRoute u p) (.selectRoute id) (.routeInserted r)
        (v.routes.find? id = some r) (.routeRefreshed r)
  | newUser {p : UserRegister} {salt : String} {id : Int} {u : User} : id = u.id →
      Again v (.register p salt) (.selectUser id) (.userInserted u)
        (v.users.find? id = some u) (.closing (.register u))

/-- The queries, on the database `v` the request sees. -/
inductive Reads (server : Server) (v : Db) : Request → Call → Stage → Stage → Prop
  | again {q : Request} {c : Call} {g g' : Stage} {p : Prop} : Again v q c g p g' → p →
      Reads server v q c g g'
  | lost {q : Request} {c : Call} {g : Stage} : (∀ p g', Again v q c g p g' → ¬ p) →
      (∃ p g', Again v q c g p g') → Reads server v q c g .lost
  | route {u r s : Int} :
      Reads server v (.createBooking u r s) (.selectRoute r) .start (routeCheck (v.routes.find? r))
  | seat {u r s : Int} {route : Route} : Reads server v (.createBooking u r s) (.selectSeat s)
      (.routeRead route) (seatCheck r route (v.seats.find? s))
  | booking {u b : Int} : Reads server v (.cancelBooking u b) (.selectBooking b) .start
      (cancelCheck u (v.bookings.find? b))
  | admin {u : Int} {p : RouteCreate} : Reads server v (.createRoute u p) (.selectUser u) .start
      (adminCheck (v.users.find? u))
  | count {q : RouteQuery} {f : RouteFilter} : f = q.toRouteFilter →
      Reads server v (.listRoutes q) (.countRoutes f) .missed
        (.counted (v.routes.rows.countP (f.accepts server.fold) : Nat))
  | page {q : RouteQuery} {f : RouteFilter} {total offset limit : Int} {p : Page} :
      f = q.toRouteFilter → offset = (q.page - 1) * q.size → limit = q.size →
      p = ⟨total, q.page, q.size, (World.routesOf server v f offset limit).map .ofRoute⟩ →
      Reads server v (.listRoutes q) (.selectRoutes f offset limit) (.counted total)
        (.storing (routesKey q) 30 p.toJson (.routes p))
  | seats {r : Int} {l : List SeatOut} : l = (World.seatsOf v r).map .ofSeat →
      Reads server v (.listSeats r) (.selectSeats r) .missed
        (.storing (seatsKey r) 15 (seatsToJson l) (.seats l))
  | email {p : UserRegister} {salt email : String} : email = p.email →
      Reads server v (.register p salt) (.selectUserByEmail email) .start
        (registerCheck (v.users.rows.find? (·.email = email)))
  | login {username password : String} : Reads server v (.login username password)
      (.selectUserByEmail username) .start
      (loginCheck server password (v.users.rows.find? (·.email = username)))
  | history {u : Int} : Reads server v (.myBookings u) (.selectBookings u) .start
      (.closing (.read (.bookings (server.newestFirst (v.bookings.rows.filter (·.userId = u))))))
  | creator {u r s : Int} {j : Job} : Reads server v (.createBooking u r s) (.selectUser u)
      (.invalidated j) (.notifying j (userEmail (v.users.find? u)))
  | owner {u b : Int} {j : Job} : Reads server v (.cancelBooking u b) (.selectUser u)
      (.invalidated j) (.notifying j (userEmail (v.users.find? u)))

/-- The statements that change rows, with the world's sequences: the new row has the next id. -/
inductive Writes (server : Server) (w : World) : Request → Call → Change → Stage → Stage → Prop
  | insertBooking {u r s : Int} {route : Route} {row : NewBooking} {b : Booking} :
      row = ⟨u, r, s, route.price, .pending⟩ →
      b = ⟨w.nextBooking, u, r, s, .pending, route.price⟩ →
      Writes server w (.createBooking u r s) (.insertBooking row) (.insertBooking b)
        (.seatRead route) (.inserted route b)
  | mark {u r s : Int} {route : Route} {b : Booking} :
      Writes server w (.createBooking u r s) (.updateSeat s true) (.updateSeat s true)
        (.inserted route b) (.marked route b)
  | confirm {u r s id : Int} {route : Route} {b : Booking} : id = b.id →
      Writes server w (.createBooking u r s) (.updateBooking id .confirmed)
        (.updateBooking id .confirmed) (.marked route b) (.confirmed route b)
  | cancel {u id : Int} {b : Booking} : id = b.id →
      Writes server w (.cancelBooking u id) (.updateBooking id .cancelled)
        (.updateBooking id .cancelled) (.bookingRead b) (.cancelled b)
  | free {q : Request} {s : Int} {b : Booking} : s = b.seatId →
      Writes server w q (.updateSeat s false) (.updateSeat s false) (.flushing b)
        (.closing (.cancel b true))
  | insertRoute {u : Int} {p : RouteCreate} {dep arr : DateTime} {row : NewRoute} {r : Route} :
      strptime p.departureAt = some dep → strptime p.arrivalAt = some arr →
      row = ⟨p.origin, p.destination, dep, arr, p.totalSeats, p.price⟩ →
      r = ⟨w.nextRoute, p.origin, p.destination, server.toUtc dep, server.toUtc arr, p.totalSeats,
        p.price, true⟩ →
      Writes server w (.createRoute u p) (.insertRoute row) (.insertRoute r) .adminRead
        (.routeInserted r)
  | insertSeats {u id : Int} {p : RouteCreate} {r : Route} {ns : List Int} {ss : List Seat} :
      id = r.id → ns = RouteRepository.seatNumbers r.totalSeats →
      ss = World.newSeats r.id w.nextSeat ns →
      Writes server w (.createRoute u p) (.insertSeats id ns) (.insertSeats ss) (.routeRefreshed r)
        (.invalidating (.route r w.nextSeat))
  | insertUser {p : UserRegister} {salt : String} {row : NewUser} {u : User} :
      row = ⟨p.email, p.username, p.firstName, p.lastName, server.hashpw salt p.password⟩ →
      u = ⟨w.nextUser, p.email, server.hashpw salt p.password, p.username, p.firstName, p.lastName,
        true, .user⟩ →
      Writes server w (.register p salt) (.insertUser row) (.insertUser u) .emailFree
        (.userInserted u)

/-- The sequence values a call takes, which it does not give back when it fails. -/
def World.bump (w : World) : Call → World
  | .insertUser _ => { w with nextUser := w.nextUser + 1 }
  | .insertRoute _ => { w with nextRoute := w.nextRoute + 1 }
  | .insertSeats _ numbers => { w with nextSeat := w.nextSeat + numbers.length }
  | .insertBooking _ => { w with nextBooking := w.nextBooking + 1 }
  | _ => w

/-- What a call of request `q` with index `i` does. -/
inductive Step (server : Server) (q : Request) (i : Nat) :
    Outcome → Call → Stage → World → Stage → World → Prop
  | fail {c : Call} {g : Stage} {w : World} : c ≠ .rollback → g ≠ .lost →
      Step server q i .fail c g w (.failing .infrastructure) w
  | read {c : Call} {g g' : Stage} {w : World} : Reads server (w.view i) q c g g' →
      Step server q i .ok c g w g' w
  | write {c : Call} {ch : Change} {g g' : Stage} {w w' : World} : Writes server w q c ch g g' →
      (w.bump c).change i ch = some (.ok (), w') → Step server q i .ok c g w g' w'
  | writeFails {c : Call} {ch : Change} {g g' : Stage} {w w' : World} {e : Exc} :
      Writes server w q c ch g g' → (w.bump c).change i ch = some (.error e, w') →
      Step server q i .ok c g w (.failing e) w'
  | cachedRoutes {p : RouteQuery} {key : String} {w : World} : q = .listRoutes p →
      key = routesKey p → Step server q i .ok (.get key) .start w
        (cacheCheck Page.ofJson? .routes (w.redis.get key)) w
  | cachedSeats {r : Int} {key : String} {w : World} : q = .listSeats r → key = seatsKey r →
      Step server q i .ok (.get key) .start w
        (cacheCheck seatsOfJson? .seats (w.redis.get key)) w
  | store {key : String} {ttl : Nat} {value : Json} {resp : Response} {w : World} :
      Step server q i .ok (.setex key ttl value) (.storing key ttl value resp) w
        (.closing (.read resp)) { w with redis := w.redis.set key value }
  | keys {j : Job} {pattern : String} {w : World} : pattern = j.pattern →
      Step server q i .ok (.keys pattern) (.invalidating j) w
        (.afterKeys j (w.redis.keysOf pattern)) w
  | delete {j : Job} {keys : List String} {w : World} :
      Step server q i .ok (.delete keys) (.deleting j keys) w (.afterDelete j)
        { w with redis := w.redis.del keys }
  | publish {j : Job} {email : String} {event : Event} {queue : RabbitQueue} {w : World} :
      j.event? email = some event → queue = j.queue →
      Step server q i .ok (.publish event queue exchange) (.notifying j email) w
        (.afterPublish j) { w with published := w.published ++ [⟨i, event, queue, exchange⟩] }
  | commit {j : Job} {w : World} :
      Step server q i .ok .commit (.closing j) w (.ended j.response) (w.commit i)
  | rollback {o : Outcome} {e : Exc} {w : World} : Step server q i o .rollback (.failing e) w
      (.ended (errorResponse (match o with | .ok => e | .fail => .infrastructure))) (w.rollback i)
  | lost {o : Outcome} {c : Call} {w w' : World} : Step server q i o c .lost w .lost w'

/-- The answers of a finished request. -/
def Ends (g : Stage) (resp : Response) : Prop := g = .ended resp ∨ g = .lost

def protocol (server : Server) : Protocol Call World Request Response Outcome Stage where
  start _ := .start
  waits := Waits
  step := Step server
  ends _ := Ends

end BusBookings
