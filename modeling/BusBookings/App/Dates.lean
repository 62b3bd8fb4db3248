/-!
# Dates as the application reads and writes them

`strptime text` is `datetime.strptime(text, "%d-%m-%Y")` (`schemas/route_schemas.py`,
`api/v1/routes_api.py`): its regular expression reads a day `3[0-1]|[1-2]\d|0[1-9]|[1-9]| [1-9]`, a
month `1[0-2]|0[1-9]|[1-9]` and a year `\d\d\d\d`, where `\d` is any Unicode decimal digit, and the
date must exist. `strftime` is the format `%d.%m.%Y %H:%M` of the confirmed event's route text.
-/

namespace BusBookings

structure DateTime where
  year : Nat
  month : Nat
  day : Nat
  hour : Nat := 0
  minute : Nat := 0
  second : Nat := 0
deriving DecidableEq, Repr

namespace DateTime

/-- The position of a datetime in time order. -/
def rank (t : DateTime) : Nat :=
  ((((t.year * 13 + t.month) * 32 + t.day) * 24 + t.hour) * 60 + t.minute) * 60 + t.second

def isLeap (year : Nat) : Bool := year % 4 = 0 && (year % 100 ≠ 0 || year % 400 = 0)

def daysInMonth (year month : Nat) : Nat :=
  if month = 2 then (if isLeap year then 29 else 28)
  else if month ∈ [4, 6, 9, 11] then 30
  else 31

end DateTime

/-- The zeros of the Unicode decimal digits: each starts a block of ten. -/
def digitZeros : List Nat :=
  [0x30, 0x660, 0x6f0, 0x7c0, 0x966, 0x9e6, 0xa66, 0xae6, 0xb66, 0xbe6, 0xc66, 0xce6, 0xd66, 0xde6,
   0xe50, 0xed0, 0xf20, 0x1040, 0x1090, 0x17e0, 0x1810, 0x1946, 0x19d0, 0x1a80, 0x1a90, 0x1b50,
   0x1bb0, 0x1c40, 0x1c50, 0xa620, 0xa8d0, 0xa900, 0xa9d0, 0xa9f0, 0xaa50, 0xabf0, 0xff10, 0x104a0,
   0x10d30, 0x11066, 0x110f0, 0x11136, 0x111d0, 0x112f0, 0x11450, 0x114d0, 0x11650, 0x116c0,
   0x11730, 0x118e0, 0x11950, 0x11c50, 0x11d50, 0x11da0, 0x11f50, 0x16a60, 0x16ac0, 0x16b50,
   0x1d7ce, 0x1d7d8, 0x1d7e2, 0x1d7ec, 0x1d7f6, 0x1e140, 0x1e2f0, 0x1e4f0, 0x1e950, 0x1fbf0]

/-- `\d`. -/
def decimal (c : Char) : Option Nat :=
  (digitZeros.find? fun z => z ≤ c.toNat && c.toNat < z + 10).map (c.toNat - ·)

/-- `[1-9]`. -/
def nonzero (c : Char) : Option Nat :=
  if '1' ≤ c ∧ c ≤ '9' then some (c.toNat - '0'.toNat) else none

/-- `%d`. -/
def readDay : List Char → Option Nat
  | ['3', c] => if c = '0' then some 30 else if c = '1' then some 31 else none
  | ['2', c] => (decimal c).map (20 + ·)
  | ['1', c] => (decimal c).map (10 + ·)
  | ['0', c] => nonzero c
  | [' ', c] => nonzero c
  | [c] => nonzero c
  | _ => none

/-- `%m`. -/
def readMonth : List Char → Option Nat
  | ['1', c] => if '0' ≤ c ∧ c ≤ '2' then some (10 + (c.toNat - '0'.toNat)) else none
  | ['0', c] => nonzero c
  | [c] => nonzero c
  | _ => none

/-- `%Y`. -/
def readYear : List Char → Option Nat
  | [a, b, c, d] => do
    let a ← decimal a
    let b ← decimal b
    let c ← decimal c
    let d ← decimal d
    return 1000 * a + 100 * b + 10 * c + d
  | _ => none

/-- `datetime.strptime(text, "%d-%m-%Y")`; `none`: it raises `ValueError`. -/
def strptime (text : String) : Option DateTime :=
  match text.toList.splitOn '-' with
  | [d, m, y] => do
    let day ← readDay d
    let month ← readMonth m
    let year ← readYear y
    if 1 ≤ year ∧ day ≤ DateTime.daysInMonth year month then
      return { year, month, day }
    else none
  | _ => none

/-- Two digits. -/
def pad2 (n : Nat) : String := if n < 10 then "0" ++ toString n else toString n

/-- `f"{t:%d.%m.%Y %H:%M}"`. -/
def strftime (t : DateTime) : String :=
  s!"{pad2 t.day}.{pad2 t.month}.{t.year} {pad2 t.hour}:{pad2 t.minute}"

example : strptime "01-01-2026" = some { year := 2026, month := 1, day := 1 } := by decide

end BusBookings
