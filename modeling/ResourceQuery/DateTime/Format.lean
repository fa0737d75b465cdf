import ResourceQuery.Text.Decimal
import ResourceQuery.DateTime.Basic

namespace ResourceQuery.DateTime

open Decimal

-- The pattern of the dialect's form, in the notation of `strftime`.
def formatPattern : String := "%Y-%m-%dT%H:%M:%S%.3f"

-- Four digits for the years from 0 to 9999; a sign and at least four digits for all others.
def yearText (year : Int) : List Char :=
  if year < 0 then '-' :: padded 4 year.natAbs
  else if year < 10000 then lastDigits 4 year.toNat
  else '+' :: padded 4 year.natAbs

-- Date and time of day up to the second.
def wholeText (t : DateTime) : List Char :=
  yearText t.year ++ '-' :: lastDigits 2 t.month ++ '-' :: lastDigits 2 t.day ++
    'T' :: lastDigits 2 t.hour ++ ':' :: lastDigits 2 t.minute ++
    ':' :: lastDigits 2 t.writtenSecond

-- Milliseconds are cut off, not rounded.
def format (t : DateTime) : String :=
  String.ofList (t.wholeText ++ '.' :: lastDigits 3 (t.fraction / 1000000))

def fractionListing (nanosecond : Nat) : List Char :=
  if nanosecond = 0 then []
  else if nanosecond % 1000000 = 0 then '.' :: lastDigits 3 (nanosecond / 1000000)
  else if nanosecond % 1000 = 0 then '.' :: lastDigits 6 (nanosecond / 1000)
  else '.' :: lastDigits 9 nanosecond

-- The form with the exact fraction.
def listing (t : DateTime) : String :=
  String.ofList (t.wholeText ++ fractionListing t.fraction)

end ResourceQuery.DateTime
