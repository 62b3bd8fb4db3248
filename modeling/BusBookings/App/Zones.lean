import BusBookings.App.Dates
import Mathlib.Tactic.Ring

/-!
# Local time and UTC

`Zone.toUtc` is what PostgreSQL gives back for a naive datetime: asyncpg takes it in the local time
zone of the process (`datetime.astimezone`) and reads a `timestamptz` as a datetime in UTC. The result
lies the zone's offset before the local time on the line of the seconds (`Zone.seconds_toUtc`).
-/

namespace BusBookings

namespace DateTime

/-- A date that exists, and a time of day. -/
structure Valid (t : DateTime) : Prop where
  year : 1 ≤ t.year
  month : 1 ≤ t.month ∧ t.month ≤ 12
  day : 1 ≤ t.day ∧ t.day ≤ daysInMonth t.year t.month
  time : t.hour < 24 ∧ t.minute < 60 ∧ t.second < 60

def prevDay (t : DateTime) : DateTime :=
  if 1 < t.day then { t with day := t.day - 1 }
  else if 1 < t.month then { t with month := t.month - 1, day := daysInMonth t.year (t.month - 1) }
  else { t with year := t.year - 1, month := 12, day := 31 }

def nextDay (t : DateTime) : DateTime :=
  if t.day < daysInMonth t.year t.month then { t with day := t.day + 1 }
  else if t.month < 12 then { t with month := t.month + 1, day := 1 }
  else { t with year := t.year + 1, month := 1, day := 1 }

def secondOfDay (t : DateTime) : Nat := (t.hour * 60 + t.minute) * 60 + t.second

/-- The same day at second `n`. -/
def atSecond (t : DateTime) (n : Nat) : DateTime :=
  { t with hour := n / 3600, minute := n / 60 % 60, second := n % 60 }

/-- `t + timedelta(seconds=delta)` for less than a day. -/
def shift (t : DateTime) (delta : Int) : DateTime :=
  let n : Int := t.secondOfDay + delta
  if n < 0 then t.prevDay.atSecond (n + 86400).toNat
  else if n < 86400 then t.atSecond n.toNat
  else t.nextDay.atSecond (n - 86400).toNat

/-! ## The line of the seconds -/

def daysBeforeYear (year : Nat) : Int :=
  let y : Int := year - 1
  365 * y + y / 4 - y / 100 + y / 400

def daysBeforeMonth (year : Nat) : Nat → Nat
  | 0 => 0
  | month + 1 => daysBeforeMonth year month + (if month = 0 then 0 else daysInMonth year month)

/-- `t.toordinal()`. -/
def ordinal (t : DateTime) : Int := daysBeforeYear t.year + daysBeforeMonth t.year t.month + t.day

def seconds (t : DateTime) : Int := 86400 * t.ordinal + t.secondOfDay

variable {t : DateTime}

theorem daysInMonth_bounds (year month : Nat) :
    28 ≤ daysInMonth year month ∧ daysInMonth year month ≤ 31 := by
  unfold daysInMonth
  split
  · split <;> omega
  · split <;> omega

theorem daysBeforeMonth_one (year : Nat) : daysBeforeMonth year 1 = 0 := rfl

/-- A year has the days of its twelve months. -/
theorem daysBeforeYear_succ (year : Nat) :
    daysBeforeYear (year + 1) = daysBeforeYear year + daysBeforeMonth year 12 + 31 := by
  have hmonths : daysBeforeMonth year 12 = if isLeap year then 335 else 334 := by
    cases hl : isLeap year <;> simp [daysBeforeMonth, daysInMonth, hl]
  rw [hmonths]
  unfold daysBeforeYear isLeap
  grind

theorem ordinal_prevDay (h : t.Valid) : t.prevDay.ordinal = t.ordinal - 1 := by
  obtain ⟨⟨hm, hm'⟩, hd, -⟩ := And.intro h.month h.day
  unfold prevDay ordinal
  split
  · simp only
    omega
  · split
    · obtain ⟨m, hmonth⟩ : ∃ m, t.month = m + 1 + 1 := ⟨t.month - 2, by omega⟩
      simp only [hmonth, Nat.add_sub_cancel, daysBeforeMonth]
      simp only [Nat.add_eq_zero_iff, Nat.one_ne_zero, and_false, if_false]
      omega
    · obtain ⟨y, hyear⟩ : ∃ y, t.year = y + 1 := ⟨t.year - 1, by have := h.year; omega⟩
      have hmonth : t.month = 1 := by omega
      simp only [hyear, hmonth, Nat.add_sub_cancel, daysBeforeYear_succ, daysBeforeMonth_one]
      omega

theorem ordinal_nextDay (h : t.Valid) : t.nextDay.ordinal = t.ordinal + 1 := by
  obtain ⟨⟨hm, hm'⟩, -, hd⟩ := And.intro h.month h.day
  unfold nextDay ordinal
  split
  · simp only
    omega
  · split
    · have hne : t.month ≠ 0 := by omega
      simp only [daysBeforeMonth, if_neg hne]
      omega
    · have hmonth : t.month = 12 := by omega
      have hlast : daysInMonth t.year t.month = 31 := by rw [hmonth]; rfl
      rw [hmonth]
      simp only [daysBeforeYear_succ, daysBeforeMonth_one]
      omega

@[simp] theorem ordinal_atSecond (n : Nat) : (t.atSecond n).ordinal = t.ordinal := rfl

theorem secondOfDay_atSecond (n : Nat) : (t.atSecond n).secondOfDay = n := by
  simp only [secondOfDay, atSecond]
  omega

theorem Valid.secondOfDay_lt (h : t.Valid) : t.secondOfDay < 86400 := by
  obtain ⟨h1, h2, h3⟩ := h.time
  unfold secondOfDay
  omega

/-- A shift by less than a day is one on the line of the seconds. -/
theorem seconds_shift (h : t.Valid) {delta : Int} (hd : -86400 < delta ∧ delta < 86400) :
    (t.shift delta).seconds = t.seconds + delta := by
  have hlt := h.secondOfDay_lt
  simp only [shift]
  split
  · rw [seconds, ordinal_atSecond, secondOfDay_atSecond, ordinal_prevDay h, seconds]
    omega
  · split
    · rw [seconds, ordinal_atSecond, secondOfDay_atSecond, seconds]
      omega
    · rw [seconds, ordinal_atSecond, secondOfDay_atSecond, ordinal_nextDay h, seconds]
      omega

end DateTime

/-- A local time zone: how far it is ahead of UTC at a local time, in seconds. -/
structure Zone where
  utcoffset : DateTime → Int
  utcoffset_bound : ∀ t, -86400 < utcoffset t ∧ utcoffset t < 86400

/-- The local time `t` in UTC. -/
def Zone.toUtc (zone : Zone) (t : DateTime) : DateTime := t.shift (-zone.utcoffset t)

theorem Zone.seconds_toUtc (zone : Zone) {t : DateTime} (h : t.Valid) :
    (zone.toUtc t).seconds = t.seconds - zone.utcoffset t := by
  obtain ⟨h1, h2⟩ := zone.utcoffset_bound t
  rw [toUtc, DateTime.seconds_shift h ⟨by omega, by omega⟩]
  omega

end BusBookings
