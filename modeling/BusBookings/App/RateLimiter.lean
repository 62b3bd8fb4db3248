import BusBookings.Base.SortedSet

/-!
# The rate limiter (`services/rate_limiter.py`, `core/rate_limit.py`)

`luaText` is how Lua renders a number in a concatenation; `clock` is Redis's clock, `nowMs` the
application's. A `Visit` is a request to an endpoint with a rate-limit dependency, with what the
dependency reads of it: the header `X-Forwarded-For`, the peer's address and `request.url`, which Starlette
puts together from the header `Host` and the path.
-/

namespace BusBookings

open Redis

variable (luaText : Int → String)

/-- The member a call adds to its key's set; `random` is drawn by `math.random(1, 1000000)`. -/
def scriptMember (now : Int) (random : Nat) : String := s!"{luaText now}:{random}"

/-- `_SLIDING_WINDOW_SCRIPT`, whose `limit` is not used. -/
def slidingWindowScript (clock : Int) (key : String) (now window _limit ttl : Int) (random : Nat)
    (ks : ZSpace) : Nat × ZSpace :=
  let windowStart := now - window
  let ks := ks.zremrangebyscore clock key windowStart
  let ks := ks.zadd clock key now (scriptMember luaText now random)
  let count := ks.zcard clock key
  (count, ks.expire clock key ttl)

/-- `is_allowed`; `redisWorks = false`: Redis raises. -/
def isAllowed (redisWorks : Bool) (clock nowMs : Int) (random : Nat) (key : String)
    (limit windowSeconds : Nat) (ks : ZSpace) : (Bool × Nat) × ZSpace :=
  if redisWorks then
    let windowMs : Int := windowSeconds * 1000
    let (count, ks) :=
      slidingWindowScript luaText clock key nowMs windowMs limit (windowSeconds + 1) random ks
    let allowed : Bool := count ≤ limit
    let retryAfter := if !allowed then windowSeconds else 0
    ((allowed, retryAfter), ks)
  else ((true, 0), ks)

/-! ## The dependency -/

/-- `str.isspace`. -/
def isSpace (c : Char) : Bool :=
  let n := c.toNat
  (9 ≤ n && n ≤ 13) || (28 ≤ n && n ≤ 32) || n = 0x85 || n = 0xa0 || n = 0x1680 ||
    (0x2000 ≤ n && n ≤ 0x200a) || n ∈ [0x2028, 0x2029, 0x202f, 0x205f, 0x3000]

/-- `text.split(",")[0].strip()`. -/
def firstStripped (text : String) : String :=
  let first := text.toList.takeWhile (· ≠ ',')
  String.ofList (((first.dropWhile isSpace).reverse.dropWhile isSpace).reverse)

/-- `_get_client_ip`. -/
def getClientIp (forwardedFor client : Option String) : String :=
  match forwardedFor.filter (· ≠ "") with
  | some text => firstStripped text
  | none => client.getD "unknown"

/-- The path of `urlsplit(f"{scheme}://{host}{path}")`, a query behind it or not; `none`: it raises
`ValueError`. `host` is the header `Host`, or the server's address where there is none, and `bracketedOk`
checks a host with brackets, an IPv6 address. -/
def urlsplitPath (bracketedOk : String → Bool) (host path : String) : Option String :=
  let url := (host ++ path).toList.filter (· ∉ ['\t', '\r', '\n'])
  let netloc := url.takeWhile (· ∉ ['/', '?', '#'])
  let path := (url.drop netloc.length).takeWhile (· ∉ ['?', '#'])
  if netloc.contains '[' != netloc.contains ']' then none
  else if netloc.contains '[' && !bracketedOk (String.ofList netloc) then none
  else some (String.ofList path)

/-- The status code, the detail and the headers of the `HTTPException`. -/
structure Rejection where
  statusCode : Nat
  detail : String
  headers : List (String × String)
deriving DecidableEq, Repr

/-- What the dependency raises; a `ValueError` comes from `request.url`. -/
inductive Refusal where
  | http (rejection : Rejection)
  | value
deriving DecidableEq, Repr

/-- The settings the dependencies read. -/
structure Settings where
  apiV1Str : String
  rateLimitWindowSeconds : Nat
  rateLimitAuth : Nat
  rateLimitBookings : Nat
  rateLimitDefault : Nat

inductive Endpoint where
  | login
  | register
  | createBooking
  | myBookings
  | cancelBooking
deriving DecidableEq, Repr

namespace Endpoint

/-- The limit its dependency is made with. -/
def limit (s : Settings) : Endpoint → Nat
  | .login | .register => s.rateLimitAuth
  | .createBooking => s.rateLimitBookings
  | .myBookings | .cancelBooking => s.rateLimitDefault

/-- The path that a request is routed by; `param` is what it has in the place of the path parameter. -/
def path (s : Settings) (param : String) : Endpoint → String
  | .login => s!"{s.apiV1Str}/auth/login"
  | .register => s!"{s.apiV1Str}/auth/register"
  | .createBooking => s!"{s.apiV1Str}/bookings"
  | .myBookings => s!"{s.apiV1Str}/bookings/my"
  | .cancelBooking => s!"{s.apiV1Str}/bookings/{param}"

/-- The path has a parameter. -/
def hasParam (e : Endpoint) : Bool := e = .cancelBooking

end Endpoint

/-- A request to such an endpoint. -/
structure LimitedRequest where
  endpoint : Endpoint
  param : String
  host : String
  forwardedFor : Option String
  client : Option String
deriving DecidableEq, Repr

def LimitedRequest.ip (r : LimitedRequest) : String := getClientIp r.forwardedFor r.client

structure Visit extends LimitedRequest where
  nowMs : Int
  random : Nat
deriving DecidableEq, Repr

/-- The limiter's key. -/
def limiterKey (ip path : String) : String := s!"rl:{ip}:{path}"

variable (bracketedOk : String → Bool) (s : Settings)

/-- `request.url.path`. -/
def LimitedRequest.urlPath (r : LimitedRequest) : Option String :=
  urlsplitPath bracketedOk r.host (r.endpoint.path s r.param)

def LimitedRequest.key (r : LimitedRequest) : Option String :=
  (r.urlPath bracketedOk s).map (limiterKey r.ip)

/-- The client of the cache singleton: not connected, or its commands raise or work. -/
inductive RedisClient where
  | disconnected
  | failing
  | working
deriving DecidableEq, Repr

/-- The dependency `make_rate_limit_dependency(limit, window)` of the visited endpoint. -/
def rateLimitDependency (redis : RedisClient) (clock : Int) (v : Visit) (ks : ZSpace) :
    Except Refusal Unit × ZSpace :=
  if redis = .disconnected then (.ok (), ks)
  else match v.key bracketedOk s with
    | none => (.error .value, ks)
    | some key =>
      let limit := v.endpoint.limit s
      let window := s.rateLimitWindowSeconds
      let ((allowed, retryAfter), ks) :=
        isAllowed luaText (redis = .working) clock v.nowMs v.random key limit window ks
      if !allowed then
        (.error (.http ⟨429, s!"Too many requests. Please wait {retryAfter} seconds.",
          [("Retry-After", toString retryAfter), ("X-RateLimit-Limit", toString limit),
           ("X-RateLimit-Window", toString window)]⟩), ks)
      else (.ok (), ks)

end BusBookings
