import BusBookings.App.RateLimiter

/-!
# The limiter's script and its test double (`tests/unit/test_rate_limiter.py`)

A `ScriptCall` is one `evalsha` of `is_allowed` with what the script draws; `clock` is Redis's clock.
`scriptCounts` are the counts that Redis returns to a sequence of calls, `fakeCounts` those of
`FakeRedis`, which gives each call its own member and has no expiry.
-/

namespace BusBookings

open Redis

structure ScriptCall where
  key : String
  clock : Int
  nowMs : Int
  windowSeconds : Nat
  limit : Nat
  random : Nat

namespace ScriptCall

/-- `window_seconds * 1000`. -/
def windowMs (c : ScriptCall) : Int := c.windowSeconds * 1000

/-- `window_seconds + 1`. -/
def ttl (c : ScriptCall) : Int := c.windowSeconds + 1

variable (luaText : Int → String)

def member (c : ScriptCall) : String := scriptMember luaText c.nowMs c.random

def run (c : ScriptCall) (ks : ZSpace) : Nat × ZSpace :=
  slidingWindowScript luaText c.clock c.key c.nowMs c.windowMs c.limit c.ttl c.random ks

end ScriptCall

/-- The counts of the Lua script. -/
def scriptCounts (luaText : Int → String) : ZSpace → List ScriptCall → List Nat
  | _, [] => []
  | ks, c :: cs =>
    let (count, ks) := c.run luaText ks
    count :: scriptCounts luaText ks cs

/-! ## `FakeRedis` -/

/-- A `dict` from members to scores. -/
abbrev Store := Table (String × Int) Prod.fst

structure FakeRedis where
  data : Keyspace Store := ∅
  counter : Nat := 0

namespace FakeRedis

/-- `self._data.setdefault(key, {})`. -/
def store (r : FakeRedis) (key : String) : Store := (r.data.get key).getD .empty

def evalsha (r : FakeRedis) (key : String) (nowMs windowMs _limit _ttl : Int) : Nat × FakeRedis :=
  let windowStart := nowMs - windowMs
  let store := (r.store key).filter fun p => ¬ p.2 ≤ windowStart
  let counter := r.counter + 1
  let member := toString counter
  let store := (store.filter (·.1 ≠ member)).insert (member, nowMs)
  (store.rows.length, ⟨r.data.set key store, counter⟩)

end FakeRedis

def ScriptCall.fake (c : ScriptCall) (r : FakeRedis) : Nat × FakeRedis :=
  r.evalsha c.key c.nowMs c.windowMs c.limit c.ttl

/-- The counts of the test double. -/
def fakeCounts : FakeRedis → List ScriptCall → List Nat
  | _, [] => []
  | r, c :: cs =>
    let (count, r) := c.fake r
    count :: fakeCounts r cs

end BusBookings
