/-!
# Instants

An instant is told by its date and time of day in universal time. The days since the start of 1970
are counted in eras of 400 years that begin with March, so that a leap day is the last of its year.
-/

namespace SchemaLint.Text

/-- A number with zeros in front of it up to a width. -/
def padded (width n : Nat) : String :=
  let digits := Nat.toDigits 10 n
  String.ofList (List.replicate (width - digits.length) '0' ++ digits)

/-- The year, the month and the day after so many days since the start of 1970. -/
def dateOfDays (days : Nat) : Nat × Nat × Nat :=
  let shifted := days + 719468
  let ofEra := shifted % 146097
  let yearOfEra := (ofEra - ofEra / 1460 + ofEra / 36524 - ofEra / 146096) / 365
  let ofYear := ofEra - (365 * yearOfEra + yearOfEra / 4 - yearOfEra / 100)
  let shiftedMonth := (5 * ofYear + 2) / 153
  let day := ofYear - (153 * shiftedMonth + 2) / 5 + 1
  let month := if shiftedMonth < 10 then shiftedMonth + 3 else shiftedMonth - 9
  let year := yearOfEra + shifted / 146097 * 400
  (if month ≤ 2 then year + 1 else year, month, day)

/-- The places after the point that a fraction of a second needs, in groups of three. -/
def fraction (nanoseconds : Nat) : String :=
  if nanoseconds = 0 then ""
  else if nanoseconds % 1000000 = 0 then "." ++ padded 3 (nanoseconds / 1000000)
  else if nanoseconds % 1000 = 0 then "." ++ padded 6 (nanoseconds / 1000)
  else "." ++ padded 9 nanoseconds

/-- The instant so many seconds and nanoseconds after the start of 1970. -/
def instant (seconds nanoseconds : Nat) : String :=
  let (year, month, day) := dateOfDays (seconds / 86400)
  let time := seconds % 86400
  padded 4 year ++ "-" ++ padded 2 month ++ "-" ++ padded 2 day ++ "T" ++
    padded 2 (time / 3600) ++ ":" ++ padded 2 (time / 60 % 60) ++ ":" ++ padded 2 (time % 60) ++
    fraction nanoseconds ++ "+00:00"

example : instant 951782400 0 = "2000-02-29T00:00:00+00:00" := by decide +kernel

example : instant 1709251199 120000000 = "2024-02-29T23:59:59.120+00:00" := by decide +kernel

end SchemaLint.Text
