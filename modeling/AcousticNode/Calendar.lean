/-!
# Civil time

The date and time of day of a number of seconds since the start of 1970, in the Gregorian
calendar extended to all years.  Years are counted from the first of March, so that the leap
day ends the year, and four hundred years have 146097 days.
-/

set_option autoImplicit false

namespace AcousticNode.Calendar

/-- A day of the Gregorian calendar; the year before year 1 is year 0. -/
structure Date where
  year : Int
  month : Nat
  day : Nat
  deriving DecidableEq, Repr

/-- The date of a number of days since the first of January 1970. -/
def dateOfDay (days : Int) : Date :=
  let sinceMarch := days + 719468
  let era := sinceMarch / 146097
  let dayOfEra := (sinceMarch % 146097).toNat
  let yearOfEra :=
    (dayOfEra - dayOfEra / 1460 + dayOfEra / 36524 - dayOfEra / 146096) / 365
  let dayOfYear := dayOfEra - (365 * yearOfEra + yearOfEra / 4 - yearOfEra / 100)
  let march := (5 * dayOfYear + 2) / 153
  let day := dayOfYear - (153 * march + 2) / 5 + 1
  let month := if march < 10 then march + 3 else march - 9
  ⟨yearOfEra + era * 400 + (if month ≤ 2 then 1 else 0), month, day⟩

/-- `n` in decimal, with zeros in front up to `w` digits. -/
def padded (w n : Nat) : String :=
  let digits := Nat.toDigits 10 n
  String.ofList (List.replicate (w - digits.length) '0' ++ digits)

/-- Years of four digits are written plainly, all others with a sign and at least four
digits. -/
def yearText (year : Int) : String :=
  if year < 0 then "-" ++ padded 4 year.natAbs
  else if year ≤ 9999 then padded 4 year.natAbs
  else "+" ++ padded 4 year.natAbs

/-- The first instant that has a date: the start of year -262143. -/
def firstEpoch : Int := -8334601228800

/-- The last instant that has a date: the end of year 262142. -/
def lastEpoch : Int := 8210266876799

/-- Date and time of an instant, if it is within the range of dates. -/
def text? (epoch : Int) : Option String :=
  if epoch < firstEpoch ∨ lastEpoch < epoch then none
  else
    let date := dateOfDay (epoch / 86400)
    let second := (epoch % 86400).toNat
    some (yearText date.year ++ "-" ++ padded 2 date.month ++ "-" ++ padded 2 date.day ++ " " ++
      padded 2 (second / 3600) ++ ":" ++ padded 2 (second / 60 % 60) ++ ":" ++
      padded 2 (second % 60) ++ " UTC")

end AcousticNode.Calendar
