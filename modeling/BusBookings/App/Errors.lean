import BusBookings.App.Api

/-!
# Error responses (`exception/exception_handlers.py`, `main.py`)

`respond` is the application around its endpoints: the CORS middleware, the router, and the
exception handlers that `create_app` registers next to those of FastAPI. What an endpoint does with
a request, its dependencies and the validation of its parameters included, is a parameter; it may
raise any exception.
-/

namespace BusBookings

/-! ## Exceptions -/

/-- The exception classes that have handlers, and the others by name. -/
inductive ExcClass where
  | httpException
  | starletteHTTPException
  | requestValidationError
  | exception
  | other (name : String)
deriving DecidableEq, Repr

/-- An item of the `loc` of a validation error. -/
inductive LocItem where
  | key (name : String)
  | index (n : Nat)

/-- `str(item)`. -/
def LocItem.str : LocItem → String
  | .key name => name
  | .index n => toString n

structure ValidationError where
  loc : List LocItem
  msg : String

/-- An exception: the classes of its MRO, and the attributes that the handlers read. -/
structure PyException where
  mro : List ExcClass
  statusCode : Nat := 500
  detail : Json := .null
  errors : List ValidationError := []

/-- `fastapi.HTTPException`, which extends that of Starlette. -/
def fastapiHTTPException (statusCode : Nat) (detail : String) : PyException :=
  { mro := [.httpException, .starletteHTTPException, .exception], statusCode, detail := .str detail }

def starletteHTTPException (statusCode : Nat) (detail : String) : PyException :=
  { mro := [.starletteHTTPException, .exception], statusCode, detail := .str detail }

/-- An exception of another class, with its bases below `Exception`. -/
def otherException (names : List String) : PyException := { mro := names.map .other ++ [.exception] }

/-- The exceptions of the endpoints. -/
def Exc.raised : Exc → PyException
  | .http statusCode detail => fastapiHTTPException statusCode detail
  | .integrity => otherException
      ["IntegrityError", "DatabaseError", "DBAPIError", "StatementError", "SQLAlchemyError"]
  | .data => otherException ["DBAPIError", "StatementError", "SQLAlchemyError"]
  | .stale => otherException ["StaleDataError", "SQLAlchemyError"]
  | .invalidRequest => otherException ["InvalidRequestError", "SQLAlchemyError"]
  | .attribute => otherException ["AttributeError"]
  | .value => otherException ["ValueError"]
  | .type => otherException ["TypeError"]
  | .infrastructure => otherException ["OSError"]

/-! ## Handlers -/

inductive Body where
  | json (value : Json)
  | text (content : String)
  | empty

structure HttpResponse where
  statusCode : Nat
  body : Body

/-- `ErrorResponse(...).model_dump()`. -/
def ErrorResponse.toJson (e : ErrorResponse) : Json :=
  .obj [("error", .str e.error), ("detail", .str e.detail), ("field", (e.field.map .str).getD .null)]

/-- A handler may raise an exception of its own. -/
abbrev Handler := PyException → Except PyException HttpResponse

def httpExceptionHandler : Handler := fun exc =>
  match exc.detail with
  | .str detail =>
    .ok ⟨exc.statusCode, .json (ErrorResponse.toJson { error := errorName exc.statusCode, detail })⟩
  -- `ErrorResponse` refuses a `detail` that is no text
  | _ => .error (otherException ["ValidationError", "ValueError"])

def validationExceptionHandler : Handler := fun exc =>
  let firstError := exc.errors.head?
  let loc := (firstError.map ValidationError.loc).getD []
  let field := if loc.length > 1 then loc.getLast?.map LocItem.str else none
  let detail := (firstError.map ValidationError.msg).getD "Validation error"
  .ok ⟨422, .json (ErrorResponse.toJson { error := "Unprocessable Entity", detail, field })⟩

def unhandledExceptionHandlers : Handler := fun _ =>
  .ok ⟨500, .json (ErrorResponse.toJson
    { error := "Internal server error"
      detail := "An unexpected error occorred. Please try again later." })⟩

/-- FastAPI's own handler for Starlette's `HTTPException`. -/
def defaultHttpExceptionHandler : Handler := fun exc =>
  if exc.statusCode < 200 ∨ exc.statusCode ∈ [204, 205, 304] then .ok ⟨exc.statusCode, .empty⟩
  else .ok ⟨exc.statusCode, .json (.obj [("detail", exc.detail)])⟩

abbrev Handlers := AList fun _ : ExcClass => Handler

/-- The handlers of a new `FastAPI()`; the one for `RequestValidationError` is replaced below. -/
def defaultHandlers : Handlers := (∅ : Handlers).insert .starletteHTTPException defaultHttpExceptionHandler

def registerExceptionHandlers (handlers : Handlers) : Handlers :=
  ((handlers.insert .httpException httpExceptionHandler).insert
    .requestValidationError validationExceptionHandler).insert .exception unhandledExceptionHandlers

/-- The handlers of `create_app`. -/
def appHandlers : Handlers := registerExceptionHandlers defaultHandlers

/-- The handler of the first class in the MRO that has one. -/
def Handlers.lookupMro (handlers : Handlers) (exc : PyException) : Option Handler :=
  exc.mro.findSome? handlers.lookup

/-- The response to an exception. What a handler raises goes on to the handler for `Exception`;
`none`: the exception leaves the application. -/
def handleException (handlers : Handlers) (exc : PyException) : Option HttpResponse :=
  match handlers.lookupMro exc with
  | none => none
  | some handler =>
    match handler exc with
    | .ok response => some response
    | .error exc' =>
      if .exception ∈ exc'.mro then
        (handlers.lookup .exception).bind fun handler => (handler exc').toOption
      else none

/-! ## The application -/

inductive PathOperation where
  | docs
  | health
  | register
  | login
  | createBooking
  | myBookings
  | cancelBooking
  | createRoute
  | listRoutes
  | listSeats
deriving DecidableEq, Repr

/-- The status code that the endpoint declares. -/
def PathOperation.statusCode : PathOperation → Nat
  | .register | .createBooking | .createRoute => 201
  | _ => 200

structure HttpRequest where
  method : String
  path : String
  headers : List (String × String)
  body : List UInt8

/-- What the router makes of a request; `slash`: only with or without a final `/` the path is that
of a route. -/
inductive RouteMatch where
  | found (e : PathOperation)
  | wrongMethod
  | slash
  | unmatched
deriving DecidableEq, Repr

/-- The router, and the CORS middleware, which answers preflight requests itself. -/
structure Framework where
  route : HttpRequest → RouteMatch
  preflight : HttpRequest → Option HttpResponse
  /-- A preflight request is accepted, or it is refused with a text. -/
  preflight_answer : ∀ req r, preflight req = some r → r.statusCode = 200 ∨
    r.statusCode = 400 ∧ ∃ content, r.body = .text content

/-- The response of the application. -/
def respond (framework : Framework) (serve : PathOperation → HttpRequest → Except PyException Body)
    (req : HttpRequest) : Option HttpResponse :=
  match framework.preflight req with
  | some response => some response
  | none =>
    match framework.route req with
    | .found e =>
      match serve e req with
      | .ok body => some ⟨e.statusCode, body⟩
      | .error exc => handleException appHandlers exc
    | .wrongMethod => handleException appHandlers (starletteHTTPException 405 "Method Not Allowed")
    | .slash => some ⟨307, .empty⟩
    | .unmatched => handleException appHandlers (starletteHTTPException 404 "Not Found")

/-! ## Routes -/

structure APIRoute where
  path : String
  methods : List String
  endpoint : PathOperation

/-- The segments of a path match those of a route; `{name}` is any segment but the empty one. -/
def segmentsMatch : List (List Char) → List (List Char) → Bool
  | [], [] => true
  | ('{' :: _) :: pattern, segment :: path => !segment.isEmpty && segmentsMatch pattern path
  | name :: pattern, segment :: path => name == segment && segmentsMatch pattern path
  | _, _ => false

/-- The regular expression of a route ends in `$`, which also matches before a final newline. -/
def APIRoute.matchesPath (route : APIRoute) (path : String) : Bool :=
  let accepts (path : List Char) := segmentsMatch (route.path.toList.splitOn '/') (path.splitOn '/')
  accepts path.toList || (path.toList.getLast? = some '\n' && accepts path.toList.dropLast)

/-- The routes in the order of their registration: those of `FastAPI()`, then those of `api_router`
under `API_V1_STR`. -/
def appRoutes (apiV1Str : String) : List APIRoute :=
  ["/openapi.json", "/docs", "/docs/oauth2-redirect", "/redoc"].map (⟨·, ["GET", "HEAD"], .docs⟩) ++
  [⟨apiV1Str ++ "/health", ["GET"], .health⟩,
    ⟨apiV1Str ++ "/auth/register", ["POST"], .register⟩,
    ⟨apiV1Str ++ "/auth/login", ["POST"], .login⟩,
    ⟨apiV1Str ++ "/bookings", ["POST"], .createBooking⟩,
    ⟨apiV1Str ++ "/bookings/my", ["GET"], .myBookings⟩,
    ⟨apiV1Str ++ "/bookings/{booking_id}", ["DELETE"], .cancelBooking⟩,
    ⟨apiV1Str ++ "/routes", ["POST"], .createRoute⟩,
    ⟨apiV1Str ++ "/routes", ["GET"], .listRoutes⟩,
    ⟨apiV1Str ++ "/routes/{route_id}/seats", ["GET"], .listSeats⟩]

/-- The path that a request is redirected to when a route matches it. -/
def redirectPath (path : String) : String :=
  if path.toList.getLast? = some '/' then
    String.ofList (path.toList.reverse.dropWhile (· = '/')).reverse
  else path ++ "/"

def routeMatch (routes : List APIRoute) (req : HttpRequest) : RouteMatch :=
  match routes.find? fun route => route.matchesPath req.path && req.method ∈ route.methods with
  | some route => .found route.endpoint
  | none =>
    if routes.any (·.matchesPath req.path) then .wrongMethod
    else if req.path ≠ "/" ∧ routes.any (·.matchesPath (redirectPath req.path)) then .slash
    else .unmatched

/-- The methods of `allow_methods=["*"]`. -/
def allMethods : List String := ["DELETE", "GET", "HEAD", "OPTIONS", "PATCH", "POST", "PUT"]

/-- `CORSMiddleware` with every origin, method and header allowed; the names of the headers are in
lower case. -/
def corsPreflight (req : HttpRequest) : Option HttpResponse :=
  match req.headers.lookup "origin", req.headers.lookup "access-control-request-method" with
  | some _, some requestedMethod =>
    if req.method ≠ "OPTIONS" then none
    else if requestedMethod ∈ allMethods then some ⟨200, .text "OK"⟩
    else some ⟨400, .text "Disallowed CORS method"⟩
  | _, _ => none

theorem corsPreflight_answer (req : HttpRequest) (r : HttpResponse) (h : corsPreflight req = some r) :
    r.statusCode = 200 ∨ r.statusCode = 400 ∧ ∃ content, r.body = .text content := by
  unfold corsPreflight at h
  split at h
  · split at h
    · cases h
    · split at h
      · cases h
        exact .inl rfl
      · cases h
        exact .inr ⟨rfl, _, rfl⟩
  · cases h

/-- The router and the middleware of `create_app`. -/
def createApp (apiV1Str : String) : Framework where
  route := routeMatch (appRoutes apiV1Str)
  preflight := corsPreflight
  preflight_answer := corsPreflight_answer

end BusBookings
