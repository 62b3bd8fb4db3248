import BusBookings.App.World
import Mathlib.Data.List.DropRight

/-!
# Tokens (`core/security.py`)

Moments and `timedelta`s are in microseconds, moments since the epoch. The token library is a `Jwt`;
a claims dictionary maps names to JSON values, its `exp` is a moment until it is encoded.
-/

namespace BusBookings

/-! ## `int(text)` -/

/-- The characters that `int` strips. -/
def intSpace (c : Char) : Bool :=
  c.toNat ∈ [9, 10, 11, 12, 13, 32, 0x85, 0xa0, 0x1680, 0x2000, 0x2001, 0x2002, 0x2003, 0x2004,
    0x2005, 0x2006, 0x2007, 0x2008, 0x2009, 0x200a, 0x2028, 0x2029, 0x202f, 0x205f, 0x3000]

/-- Decimal digits, with single underscores between them. -/
def readDigits : List Char → Option (List Nat)
  | [] => none
  | [c] => (decimal c).map fun d => [d]
  | c :: '_' :: cs => do return (← decimal c) :: (← readDigits cs)
  | c :: cs => do return (← decimal c) :: (← readDigits cs)

/-- The number of at most 4300 digits (`sys.int_info.default_max_str_digits`). -/
def readNat (cs : List Char) : Option Nat := do
  let ds ← readDigits cs
  if ds.length ≤ 4300 then some (ds.foldl (10 * · + ·) 0) else none

/-- `int(text)`; `none`: it raises `ValueError`. -/
def intOfText (text : String) : Option Int :=
  match (text.toList.dropWhile intSpace).rdropWhile intSpace with
  | '+' :: cs => (readNat cs).map fun n => (n : Int)
  | '-' :: cs => (readNat cs).map fun n => -(n : Int)
  | cs => (readNat cs).map fun n => (n : Int)

example : intOfText " +1_0 " = some 10 := by decide

/-- `int(value)`. -/
def pyInt : Json → Except Exc Int
  | .num n => .ok n
  | .bool b => .ok (if b then 1 else 0)
  | .str s => match intOfText s with
    | some n => .ok n
    | none => .error .value
  | .null | .arr _ | .obj _ => .error .type

/-! ## Tokens -/

abbrev Claims := AList fun _ : String => Json

/-- The whole second of a moment. -/
def second (t : Int) : Int := t / 1000000

/-- `jose.jwt` with the key and the algorithm of the settings: `encode` takes the claims and their
`exp`, `decode` the moment of the call; `none`: it raises `JWTError`. -/
structure Jwt (Token : Type) where
  encode : Claims → (exp : Int) → Token
  decode : (now : Int) → Token → Option Claims
  /-- What was encoded is decoded until the second of `exp` is over, if `sub` is a text. -/
  decode_encode : ∀ claims exp now, decode now (encode claims exp) =
    if second exp < second now then none
    else match claims.lookup "sub" with
      | none | some (.str _) => some (claims.insert "exp" (.num (second exp)))
      | some _ => none

section

variable {Token : Type}

/-- The moments that a `datetime` holds, from year 1 to year 9999. -/
def datetimeOk (t : Int) : Bool := -62135596800000000 ≤ t && t < 253402300800000000

/-- `none`: the addition of the lifetime raises `OverflowError`. `expireMinutes`: the setting
`ACCESS_TOKEN_EXPIRE_MINUTES`. -/
def createAccessToken (jwt : Jwt Token) (expireMinutes now : Int) (data : Claims)
    (expiresDelta : Option Int) : Option Token :=
  -- `expires_delta or …`: a zero `timedelta` is falsy
  let expire := now + (expiresDelta.filter (· ≠ 0)).getD (expireMinutes * 60000000)
  if datetimeOk expire then some (jwt.encode data expire) else none

def credentialsException : Exc := .http 401 "Could not validate credentials"

def getCurrentUserId (jwt : Jwt Token) (now : Int) (token : Token) : Except Exc Int :=
  match jwt.decode now token with
  | none => .error credentialsException
  | some payload =>
    match payload.lookup "sub" with
    | none | some .null => .error credentialsException
    | some userId => pyInt userId

end

end BusBookings
