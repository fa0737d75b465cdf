namespace ResourceQuery

namespace Calendar

def isLeapYear (year : Int) : Bool :=
  year % 4 == 0 && (year % 100 != 0 || year % 400 == 0)

def daysInMonth (year : Int) (month : Nat) : Nat :=
  match month with
  | 2 => if isLeapYear year then 29 else 28
  | 4 | 6 | 9 | 11 => 30
  | _ => 31

def firstYear : Int := -262143

def lastYear : Int := 262142

end Calendar

open Calendar

-- A date with a time of day, without a time zone, in the proleptic Gregorian calendar. From a
-- thousand million on, nanoseconds lie in a leap second, which may come after any second.
structure DateTime where
  year : Int
  month : Nat
  day : Nat
  hour : Nat
  minute : Nat
  second : Nat
  nanosecond : Nat
  year_range : firstYear ≤ year ∧ year ≤ lastYear
  month_range : 1 ≤ month ∧ month ≤ 12
  day_range : 1 ≤ day ∧ day ≤ daysInMonth year month
  hour_range : hour < 24
  minute_range : minute < 60
  second_range : second < 60
  nanosecond_range : nanosecond < 2000000000
  deriving DecidableEq

namespace DateTime

-- Nothing if the fields are no date and time of day.
def ofFields? (year : Int) (month day hour minute second nanosecond : Nat) : Option DateTime :=
  if h : (firstYear ≤ year ∧ year ≤ lastYear) ∧ (1 ≤ month ∧ month ≤ 12) ∧
      (1 ≤ day ∧ day ≤ daysInMonth year month) ∧ hour < 24 ∧ minute < 60 ∧ second < 60 ∧
      nanosecond < 2000000000 then
    some {
      year, month, day, hour, minute, second, nanosecond
      year_range := h.1
      month_range := h.2.1
      day_range := h.2.2.1
      hour_range := h.2.2.2.1
      minute_range := h.2.2.2.2.1
      second_range := h.2.2.2.2.2.1
      nanosecond_range := h.2.2.2.2.2.2
    }
  else
    none

-- The second as it is written. A leap second counts as the second after the one it comes after,
-- which is second 60 at the end of a minute.
def writtenSecond (t : DateTime) : Nat :=
  t.second + t.nanosecond / 1000000000

-- The nanosecond within the written second.
def fraction (t : DateTime) : Nat :=
  t.nanosecond % 1000000000

end DateTime

end ResourceQuery
