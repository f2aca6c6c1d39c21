/-!
# Dates and times

A moment is a date of the calendar, a time of day, or both together, and then it may
say how far local time is ahead of universal time. Seconds are divided into millionths.
-/

namespace LineCalc

/-- A date of the calendar. -/
structure Date where
  year : Nat
  month : Nat
  day : Nat
deriving DecidableEq, Repr

/-- A time of day. -/
structure TimeOfDay where
  hour : Nat
  minute : Nat
  second : Nat
  millionths : Nat := 0
deriving DecidableEq, Repr

/-- A date, a time of day, or both. -/
inductive Moment where
  | date (day : Date)
  | time (time : TimeOfDay)
  /-- Both, with the minutes that local time is ahead, if they are known. -/
  | dateTime (day : Date) (time : TimeOfDay) (ahead : Option Int)
deriving DecidableEq, Repr

/-- Whether a year has a leap day. -/
def isLeapYear (year : Nat) : Bool := year % 4 == 0 && (year % 100 != 0 || year % 400 == 0)

/-- The days of a month. -/
def daysInMonth (year month : Nat) : Nat :=
  if month = 2 then if isLeapYear year then 29 else 28
  else if month = 4 ∨ month = 6 ∨ month = 9 ∨ month = 11 then 30
  else 31

/-- Whether the calendar has a date; its years begin with the year one. -/
def Date.isValid (d : Date) : Bool :=
  1 ≤ d.year && 1 ≤ d.month && d.month ≤ 12 && 1 ≤ d.day && d.day ≤ daysInMonth d.year d.month

namespace Moment

/-- A number with zeros in front, up to so many digits. -/
def padded (width n : Nat) : String :=
  let ds := Nat.toDigits 10 n
  String.ofList (List.replicate (width - ds.length) '0' ++ ds)

/-! ## Plain texts -/

/-- A date as plain text. -/
def dateText (d : Date) : String := s!"{padded 4 d.year}-{padded 2 d.month}-{padded 2 d.day}"

/-- A time of day as plain text, with millionths only if there are any. -/
def timeText (t : TimeOfDay) : String :=
  let fraction := if t.millionths = 0 then "" else "." ++ padded 6 t.millionths
  s!"{padded 2 t.hour}:{padded 2 t.minute}:{padded 2 t.second}{fraction}"

/-- Minutes ahead as plain text. -/
def aheadText (minutes : Int) : String :=
  let sign := if minutes < 0 then "-" else "+"
  s!"{sign}{padded 2 (minutes.natAbs / 60)}:{padded 2 (minutes.natAbs % 60)}"

/-- A moment as plain text. -/
def text : Moment → String
  | date d => dateText d
  | time t => timeText t
  | dateTime d t ahead => dateText d ++ " " ++ timeText t ++ (ahead.map aheadText).getD ""

/-! ## Full descriptions -/

/-- The kind of a moment by name. -/
def kindName : Moment → String
  | date _ => "datetime.date"
  | time _ => "datetime.time"
  | dateTime .. => "datetime.datetime"

/-- The parts of a date. -/
def dateParts (d : Date) : List Nat := [d.year, d.month, d.day]

/-- The parts of a time of day, without the last ones if they are zero. -/
def timeParts (t : TimeOfDay) : List Nat :=
  let seconds := if t.millionths = 0 then [t.second] else [t.second, t.millionths]
  [t.hour, t.minute] ++ if seconds = [0] then [] else seconds

/-- Minutes ahead in full, as days and seconds of which only the days may be negative. -/
def aheadDescription (minutes : Int) : String :=
  if minutes = 0 then "datetime.timezone.utc"
  else
    let seconds := minutes * 60
    let parts :=
      if seconds < 0 then s!"days=-1, seconds={seconds + 86400}" else s!"seconds={seconds}"
    s!"datetime.timezone(datetime.timedelta({parts}))"

/-- A moment in full. -/
def describe (m : Moment) : String :=
  let parts := match m with
    | date d => (dateParts d).map toString
    | time t => (timeParts t).map toString
    | dateTime d t ahead =>
      (dateParts d ++ timeParts t).map toString ++
        (ahead.map fun minutes => "tzinfo=" ++ aheadDescription minutes).toList
  m.kindName ++ "(" ++ String.intercalate ", " parts ++ ")"

end Moment

end LineCalc
