import LineCalc.Moment

/-!
# Dates and times of a TOML document

A date is written as four, two and two digits, and a time of day as three times two
digits with a fraction if need be, of which six places count. A time may follow a date
after a `T` or one space, and an offset may follow both. A date that the calendar does
not have is no value.
-/

namespace LineCalc.Toml

/-- A number of exactly so many digits, within bounds. -/
def fixedDigits? (count low high : Nat) (s : List Char) : Option (Nat × List Char) :=
  let ds := s.take count
  let n := Nat.ofDigitChars 10 ds 0
  if ds.length = count ∧ ds.all Char.isDigit ∧ low ≤ n ∧ n ≤ high then some (n, s.drop count)
  else none

/-- What follows a character, if a text begins with it. -/
def after? (c : Char) : List Char → Option (List Char)
  | d :: rest => if d == c then some rest else none
  | [] => none

/-- A date. -/
def date? (s : List Char) : Option (Date × List Char) := do
  let (year, s) ← fixedDigits? 4 0 9999 s
  let (month, s) ← fixedDigits? 2 1 12 (← after? '-' s)
  let (day, s) ← fixedDigits? 2 1 31 (← after? '-' s)
  some (⟨year, month, day⟩, s)

/-- The places of a fraction of a second that count. -/
def fractionPlaces : Nat := 6

/-- A fraction of a second in millionths; without one there are none. -/
def millionths (s : List Char) : Nat × List Char :=
  match s with
  | '.' :: rest =>
    match rest.takeWhile Char.isDigit with
    | [] => (0, s)
    | ds =>
      let places := ds.take fractionPlaces
      let zeros := List.replicate (fractionPlaces - places.length) '0'
      (Nat.ofDigitChars 10 (places ++ zeros) 0, rest.drop ds.length)
  | _ => (0, s)

/-- A time of day. -/
def timeOfDay? (s : List Char) : Option (TimeOfDay × List Char) := do
  let (hour, s) ← fixedDigits? 2 0 23 s
  let (minute, s) ← fixedDigits? 2 0 59 (← after? ':' s)
  let (second, s) ← fixedDigits? 2 0 59 (← after? ':' s)
  let (fraction, s) := millionths s
  some (⟨hour, minute, second, fraction⟩, s)

/-- The hours and minutes of an offset, in minutes. -/
def offsetMinutes? (s : List Char) : Option (Int × List Char) := do
  let (hours, s) ← fixedDigits? 2 0 23 s
  let (minutes, s) ← fixedDigits? 2 0 59 (← after? ':' s)
  some (hours * 60 + minutes, s)

/-- An offset from universal time, if there is one. -/
def offset (s : List Char) : Option Int × List Char :=
  let signed := match s with
    | '+' :: rest => offsetMinutes? rest
    | '-' :: rest => (offsetMinutes? rest).map fun (minutes, rest) => (-minutes, rest)
    | 'Z' :: rest | 'z' :: rest => some (0, rest)
    | _ => none
  match signed with
  | some (minutes, rest) => (some minutes, rest)
  | none => (none, s)

/-- A time of day after a date, and its offset. -/
def timeAfterDate? (s : List Char) : Option ((TimeOfDay × Option Int) × List Char) :=
  match s with
  | c :: rest =>
    if c == 'T' || c == 't' || c == ' ' then do
      let (time, rest) ← timeOfDay? rest
      let (ahead, rest) := offset rest
      some ((time, ahead), rest)
    else none
  | [] => none

/-- A moment that begins with a date. -/
def dated? (s : List Char) : Option (Moment × List Char) := do
  let (day, s) ← date? s
  if day.isValid then
    match timeAfterDate? s with
    | some ((time, ahead), rest) => some (.dateTime day time ahead, rest)
    | none => some (.date day, s)
  else none

/-- A date, a time of day, or both. -/
def moment? (s : List Char) : Option (Moment × List Char) :=
  dated? s <|> (timeOfDay? s).map fun (time, rest) => (.time time, rest)

end LineCalc.Toml
