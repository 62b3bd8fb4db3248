import BusBookings.App.Errors
import BusBookings.App.Http

/-!
# Request validation

The parameters and body fields that the endpoints declare, and the errors that FastAPI collects for a
request. `Validator` is what FastAPI and pydantic make of its parts; the validators of `RouteCreate` are
the application's own. Every error says where it is: in a declared parameter or field, in the body as
a whole, or at a character of a body that is not JSON.
-/

namespace BusBookings

/-! ## What the endpoints declare -/

inductive Source where
  | path
  | query
  | body
deriving DecidableEq, Repr

def Source.str : Source → String
  | .path => "path"
  | .query => "query"
  | .body => "body"

structure Parameter where
  source : Source
  name : String
deriving DecidableEq, Repr

inductive BodyKind where
  | none
  | form
  | json
deriving DecidableEq, Repr

namespace PathOperation

/-- The body that the endpoint reads. -/
def bodyKind : PathOperation → BodyKind
  | .register | .createBooking | .createRoute => .json
  | .login => .form
  | _ => .none

/-- The parameters of the endpoint and the fields of its body, in their order. -/
def parameters : PathOperation → List Parameter
  | .register => ["email", "username", "first_name", "last_name", "password"].map (⟨.body, ·⟩)
  | .login =>
    ["grant_type", "username", "password", "scope", "client_id", "client_secret"].map (⟨.body, ·⟩)
  | .createBooking => ["route_id", "seat_id"].map (⟨.body, ·⟩)
  | .cancelBooking => [⟨.path, "booking_id"⟩]
  | .createRoute =>
    ["origin", "destination", "departure_at", "arrival_at", "total_seats", "price"].map (⟨.body, ·⟩)
  | .listRoutes => ["origin", "destination", "page", "size"].map (⟨.query, ·⟩)
  | .listSeats => [⟨.path, "route_id"⟩]
  | .docs | .health | .myBookings => []

end PathOperation

/-! ## The parts of a request -/

/-- The body of a request to an endpoint that reads JSON; `unreadable` is answered with 400, before
any validation. -/
inductive RequestBody where
  | missing
  | malformed (pos : Nat)
  | unreadable
  | noObject
  | object
deriving DecidableEq, Repr

/-- What FastAPI and pydantic make of a request. -/
structure Validator where
  body : HttpRequest → RequestBody
  /-- The message of the error of a parameter or field, by its type and its constraints. -/
  check : PathOperation → HttpRequest → Parameter → Option String
  /-- The value of a field of type `str`. -/
  text : HttpRequest → String → String
  /-- The message of the `ValueError` that `strptime` raises. -/
  strptimeError : String → String

namespace RouteCreate

/-- The messages of `validate_date_format` and `validate_dates_order`; `none`: the value is valid. -/
def validateDateFormat (v : String) : Option String :=
  match strptime v with
  | none => some "Дата должна быть в формате ДД-ММ-ГГГГ, например \"01-01-2026\""
  | some _ => none

def validateDatesOrder (strptimeError : String → String) (departureAt arrivalAt : String) :
    Option String :=
  match strptime departureAt with
  | none => some (strptimeError departureAt)
  | some dep =>
    match strptime arrivalAt with
    | none => some (strptimeError arrivalAt)
    | some arr => if arr.rank ≤ dep.rank then some "arrival_at must be after departure_at" else none

/-- The validator accepts the dates of the payloads. -/
theorem validateDatesOrder_eq_none {strptimeError : String → String} {departureAt arrivalAt : String} :
    validateDatesOrder strptimeError departureAt arrivalAt = none ↔
      datesOrdered departureAt arrivalAt = true := by
  unfold validateDatesOrder datesOrdered
  cases strptime departureAt with
  | none => simp
  | some dep =>
    cases strptime arrivalAt with
    | none => simp
    | some arr => simp

end RouteCreate

namespace Validator

variable (v : Validator) (e : PathOperation) (req : HttpRequest)

/-- The message of a `ValueError` that a validator raises. -/
def valueError (msg : String) : String := "Value error, " ++ msg

/-- The `field_validator`s. -/
def fieldValidator (x : Parameter) : Option String :=
  match e, x.name with
  | .createRoute, "arrival_at" => RouteCreate.validateDateFormat (v.text req x.name)
  | _, _ => none

/-- The `model_validator`s. -/
def modelValidator : Option String :=
  match e with
  | .createRoute => RouteCreate.validateDatesOrder v.strptimeError (v.text req "departure_at")
      (v.text req "arrival_at")
  | _ => none

/-- The error of a parameter or field. -/
def fieldError (x : Parameter) : Option ValidationError :=
  ((v.check e req x).or ((v.fieldValidator e req x).map valueError)).map
    (⟨[.key x.source.str, .key x.name], ·⟩)

/-- The errors of the parameters and fields, and that of the model if there are none. -/
def fieldErrors : List ValidationError :=
  match e.parameters.filterMap (v.fieldError e req) with
  | [] => ((v.modelValidator e req).map fun msg => ⟨[.key "body"], valueError msg⟩).toList
  | errors => errors

/-- The errors of a request, in the order in which FastAPI collects them. -/
def errors : List ValidationError :=
  match e.bodyKind, v.body req with
  | .json, .malformed pos => [⟨[.key "body", .index pos], "JSON decode error"⟩]
  | .json, .missing => [⟨[.key "body"], "Field required"⟩]
  | .json, .noObject =>
    [⟨[.key "body"], "Input should be a valid dictionary or object to extract fields from"⟩]
  | .json, .unreadable => []
  | _, _ => v.fieldErrors e req

/-- The body is to be JSON and is not. -/
def Malformed : Prop := e.bodyKind = .json ∧ ∃ pos, v.body req = .malformed pos

end Validator

/-- `fastapi.exceptions.RequestValidationError`. -/
def requestValidationError (errors : List ValidationError) : PyException :=
  { mro := [.requestValidationError, .other "ValidationException", .exception], errors }

end BusBookings
