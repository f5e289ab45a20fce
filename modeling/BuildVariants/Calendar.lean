/-!
# Calendar

Moments are counted in seconds from the beginning of 1970. Years, months and days follow the
calendar with a leap day every fourth year, except in three of four full centuries. A year of
reckoning begins in March, so the leap day is its last.
-/

set_option autoImplicit false

namespace BuildVariants.Calendar

structure Date where
  year : Int
  month : Nat
  day : Nat
  hour : Nat
  minute : Nat
  second : Nat
  weekday : Nat
  yearday : Nat

def daySeconds : Int := 86400

def daysBefore (year : Int) (month : Nat) : Int :=
  let y := if month ≤ 2 then year - 1 else year
  let era := y.fdiv 400
  let yearOfEra := y - era * 400
  let monthFromMarch : Int := (month + 9) % 12
  let dayOfYear := (153 * monthFromMarch + 2) / 5
  era * 146097 + yearOfEra * 365 + yearOfEra / 4 - yearOfEra / 100 + dayOfYear - 719468

def seconds (year month day hour minute second : Int) : Int :=
  let months := month - 1
  let days := daysBefore (year + months.fdiv 12) (months.fmod 12).toNat.succ + day - 1
  days * daySeconds + hour * 3600 + minute * 60 + second

def date (t : Int) : Date :=
  let days := t.fdiv daySeconds
  let rest := (t.fmod daySeconds).toNat
  let shifted := days + 719468
  let era := shifted.fdiv 146097
  let dayOfEra := shifted - era * 146097
  let yearOfEra := (dayOfEra - dayOfEra / 1460 + dayOfEra / 36524 - dayOfEra / 146096) / 365
  let dayOfYear := dayOfEra - (365 * yearOfEra + yearOfEra / 4 - yearOfEra / 100)
  let monthFromMarch := (5 * dayOfYear + 2) / 153
  let day := (dayOfYear - (153 * monthFromMarch + 2) / 5 + 1).toNat
  let month := ((monthFromMarch + 2) % 12 + 1).toNat
  let year := yearOfEra + era * 400 + (if month ≤ 2 then 1 else 0)
  { year, month, day, hour := rest / 3600, minute := rest / 60 % 60, second := rest % 60
    weekday := ((days + 4).fmod 7).toNat, yearday := (days - daysBefore year 1).toNat }

/-! ### Texts -/

structure Zone where
  name : String
  offset : Int

def dayNames : List String :=
  ["Sunday", "Monday", "Tuesday", "Wednesday", "Thursday", "Friday", "Saturday"]

def monthNames : List String :=
  ["January", "February", "March", "April", "May", "June", "July", "August", "September",
   "October", "November", "December"]

def padded (fill : Char) (size : Nat) (n : Int) : String :=
  let ds := toString n.natAbs
  let sign := if n < 0 then "-" else ""
  sign ++ String.ofList (List.replicate (size - sign.length - ds.length) fill) ++ ds

def two (n : Nat) : String := padded '0' 2 n

def Zone.written (z : Zone) : String :=
  let minutes := z.offset.natAbs / 60
  (if z.offset < 0 then "-" else "+") ++ two (minutes / 60) ++ two (minutes % 60)

namespace Date

def dayName (d : Date) : String := dayNames.getD d.weekday ""

def monthName (d : Date) : String := monthNames.getD (d.month - 1) ""

def isLeap (year : Int) : Bool := year % 4 = 0 && (year % 100 ≠ 0 || year % 400 = 0)

/-- The week that begins with a Monday, and its year: the first week has four days at least. -/
def week (d : Date) : Int × Nat :=
  let fromMonday : Int := (d.weekday + 6) % 7
  let number := (d.yearday - fromMonday + 10).fdiv 7
  let weeksIn (year : Int) : Int :=
    let lastWeekday := (daysBefore (year + 1) 1 + 3).fmod 7
    if lastWeekday = 4 || (lastWeekday = 5 && isLeap year) then 53 else 52
  if number < 1 then (d.year - 1, (weeksIn (d.year - 1)).toNat)
  else if weeksIn d.year < number then (d.year + 1, 1)
  else (d.year, number.toNat)

def twelveHour (d : Date) : Nat := if d.hour % 12 = 0 then 12 else d.hour % 12

def half (d : Date) : String := if d.hour < 12 then "AM" else "PM"

def clock (d : Date) : String := two d.hour ++ ":" ++ two d.minute ++ ":" ++ two d.second

def slashed (d : Date) : String :=
  two d.month ++ "/" ++ two d.day ++ "/" ++ two (d.year.fmod 100).toNat

def part (d : Date) (zone : Zone) : Char → String
  | 'a' => String.ofList (d.dayName.toList.take 3)
  | 'A' => d.dayName
  | 'b' => String.ofList (d.monthName.toList.take 3)
  | 'B' => d.monthName
  | 'c' => String.ofList (d.dayName.toList.take 3) ++ " " ++ String.ofList (d.monthName.toList.take 3)
      ++ " " ++ padded ' ' 2 d.day ++ " " ++ d.clock ++ " " ++ toString d.year
  | 'C' => padded '0' 2 (d.year.fdiv 100)
  | 'd' => two d.day
  | 'D' => d.slashed
  | 'e' => padded ' ' 2 d.day
  | 'F' => toString d.year ++ "-" ++ two d.month ++ "-" ++ two d.day
  | 'g' => two (d.week.1.fmod 100).toNat
  | 'G' => toString d.week.1
  | 'h' => String.ofList (d.monthName.toList.take 3)
  | 'H' => two d.hour
  | 'I' => two d.twelveHour
  | 'j' => padded '0' 3 (d.yearday + 1)
  | 'm' => two d.month
  | 'M' => two d.minute
  | 'n' => "\n"
  | 'p' => d.half
  | 'r' => two d.twelveHour ++ ":" ++ two d.minute ++ ":" ++ two d.second ++ " " ++ d.half
  | 'R' => two d.hour ++ ":" ++ two d.minute
  | 'S' => two d.second
  | 't' => "\t"
  | 'T' => d.clock
  | 'u' => toString (if d.weekday = 0 then 7 else d.weekday)
  | 'U' => two ((d.yearday + 7 - d.weekday) / 7)
  | 'V' => two d.week.2
  | 'w' => toString d.weekday
  | 'W' => two ((d.yearday + 7 - (d.weekday + 6) % 7) / 7)
  | 'x' => d.slashed
  | 'X' => d.clock
  | 'y' => two (d.year.fmod 100).toNat
  | 'Y' => toString d.year
  | 'z' => zone.written
  | 'Z' => zone.name
  | c => String.ofList [c]

end Date

def letters : List Char := "aAbBcCdDeFgGhHIjmMnprRStTuUVwWxXyYzZ%".toList

def lettersBehind : Char → List Char
  | 'E' => "cCxXyY".toList
  | 'O' => "deHImMSuUVwWy".toList
  | _ => []

end BuildVariants.Calendar
