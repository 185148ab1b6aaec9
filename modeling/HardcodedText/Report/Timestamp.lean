/-!
# Times of day

A time is a number of seconds since the beginning of 1970, and is written as a date of the Gregorian
calendar with the time after it.
-/

namespace HardcodedText.Timestamp

/-- A number in at least so many digits. -/
def padded (width n : Nat) : String :=
  .ofList ((toString n).toList.leftpad width '0')

/-- The year, month and day that is so many days after the beginning of 1970.  Years are counted
from March here, so that the leap day is the last of its year; 400 of them have 146097 days. -/
def date (days : Nat) : Nat × Nat × Nat :=
  let shifted := days + 719468
  let inCycle := shifted % 146097
  let year := (inCycle - inCycle / 1460 + inCycle / 36524 - inCycle / 146096) / 365
  let inYear := inCycle - (365 * year + year / 4 - year / 100)
  let month := (5 * inYear + 2) / 153
  let day := inYear - (153 * month + 2) / 5 + 1
  let calendarMonth := if month < 10 then month + 3 else month - 9
  (year + shifted / 146097 * 400 + (if calendarMonth ≤ 2 then 1 else 0), calendarMonth, day)

/-- The text of a time.  A fraction of a second is written to the microsecond, unless it is zero. -/
def text (seconds microseconds : Nat) : String :=
  let (year, month, day) := date (seconds / 86400)
  let rest := seconds % 86400
  let fraction := if microseconds = 0 then "" else "." ++ padded 6 microseconds
  padded 4 year ++ "-" ++ padded 2 month ++ "-" ++ padded 2 day ++ "T" ++
    padded 2 (rest / 3600) ++ ":" ++ padded 2 (rest / 60 % 60) ++ ":" ++ padded 2 (rest % 60) ++
    fraction ++ "+00:00"

example : text 1704164645 0 = "2024-01-02T03:04:05+00:00" := by decide +kernel

example : date 11016 = (2000, 2, 29) := by decide

end HardcodedText.Timestamp
