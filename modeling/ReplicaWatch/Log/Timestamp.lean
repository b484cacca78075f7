/-!
# The time in log lines

`Timestamp.write` gives a moment of universal time by date, time of day and milliseconds, as in
`2024-02-29T23:59:59.999Z`.

- `Timestamp.civil`: the date of a day, counted from the first of January 1970, in the calendar that has a leap
  year every four years except in three of four full centuries.
-/

namespace ReplicaWatch.Log.Timestamp

/-- The year, month and day of a day counted from the first of January 1970. Years are counted from March here,
so that a leap day comes last. -/
def civil (day : Nat) : Nat × Nat × Nat :=
  let z := day + 719468
  let era := z / 146097
  let dayOfEra := z % 146097
  let yearOfEra := (dayOfEra - dayOfEra / 1460 + dayOfEra / 36524 - dayOfEra / 146096) / 365
  let dayOfYear := dayOfEra - (365 * yearOfEra + yearOfEra / 4 - yearOfEra / 100)
  let monthFromMarch := (5 * dayOfYear + 2) / 153
  let day := dayOfYear - (153 * monthFromMarch + 2) / 5 + 1
  let month := if monthFromMarch < 10 then monthFromMarch + 3 else monthFromMarch - 9
  let year := yearOfEra + era * 400 + (if month ≤ 2 then 1 else 0)
  (year, month, day)

/-- A number with zeros in front up to a length. -/
def padded (length n : Nat) : String :=
  let ds := Nat.toDigits 10 n
  String.ofList (List.replicate (length - ds.length) '0' ++ ds)

/-- A moment, given in milliseconds from the beginning of 1970. -/
def write (milliseconds : Nat) : String :=
  let seconds := milliseconds / 1000
  let (year, month, day) := civil (seconds / 86400)
  let inDay := seconds % 86400
  padded 4 year ++ "-" ++ padded 2 month ++ "-" ++ padded 2 day ++ "T" ++ padded 2 (inDay / 3600) ++ ":"
    ++ padded 2 (inDay / 60 % 60) ++ ":" ++ padded 2 (inDay % 60) ++ "." ++ padded 3 (milliseconds % 1000) ++ "Z"

end ReplicaWatch.Log.Timestamp
