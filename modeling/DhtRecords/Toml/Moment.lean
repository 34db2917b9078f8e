/-
Days and times in configuration files.

A moment is a day of the calendar, a time of the day, or both with an offset from
the world's time or without one. On its own it is displayed as it is written; within
a list or table it is displayed as a call of its type with its numbers.
-/

namespace DhtRecords.Toml

/-- The days of a month. -/
def daysIn (year month : Nat) : Nat :=
  if month = 2 then
    if year % 4 = 0 ∧ (year % 100 ≠ 0 ∨ year % 400 = 0) then 29 else 28
  else if month = 4 ∨ month = 6 ∨ month = 9 ∨ month = 11 then 30
  else 31

/-- A day of the calendar. -/
structure Day where
  year : Nat
  month : Nat
  day : Nat
  exists_ : (0 < year ∧ year < 10000) ∧ (0 < month ∧ month ≤ 12) ∧ 0 < day ∧ day ≤ daysIn year month

/-- The day of these numbers, if it is on the calendar. -/
def Day.ofNumbers? (year month day : Nat) : Option Day :=
  if exists_ : _ then some ⟨year, month, day, exists_⟩ else none

/-- A time of the day, to the millionth of a second. -/
structure Clock where
  hour : Nat
  minute : Nat
  second : Nat
  micro : Nat

/-- A day, a time, or both with the minutes by which they are ahead of the world's time, if these are
known. -/
inductive Moment where
  | date (day : Day)
  | time (clock : Clock)
  | both (day : Day) (clock : Clock) (ahead : Option Int)

/-- A number with zeros in front of it, so many digits long. -/
def padded (width number : Nat) : String := String.ofList (List.leftpad width '0' (Nat.toDigits 10 number))

namespace Clock

/-- How a time is written. -/
def text (clock : Clock) : String :=
  padded 2 clock.hour ++ ":" ++ padded 2 clock.minute ++ ":" ++ padded 2 clock.second
    ++ if clock.micro = 0 then "" else "." ++ padded 6 clock.micro

/-- The numbers of a time, without zeros at the end. -/
def numbers (clock : Clock) : List Nat :=
  [clock.hour, clock.minute]
    ++ if clock.micro ≠ 0 then [clock.second, clock.micro] else if clock.second ≠ 0 then [clock.second] else []

end Clock

namespace Day

/-- How a day is written. -/
def text (day : Day) : String := padded 4 day.year ++ "-" ++ padded 2 day.month ++ "-" ++ padded 2 day.day

def numbers (day : Day) : List Nat := [day.year, day.month, day.day]

end Day

namespace Moment

/-- How minutes ahead are written. -/
def aheadText (minutes : Int) : String :=
  (if minutes < 0 then "-" else "+") ++ padded 2 (minutes.natAbs / 60) ++ ":" ++ padded 2 (minutes.natAbs % 60)

/-- Minutes ahead as a part of a display: in seconds, after a day back if they are behind. -/
def aheadName (minutes : Int) : String :=
  if minutes = 0 then "datetime.timezone.utc"
  else "datetime.timezone(datetime.timedelta("
    ++ (if minutes < 0 then "days=-1, seconds=" else "seconds=")
    ++ toString ((60 * minutes) % 86400) ++ "))"

/-- The name of a moment's type. -/
def kindName : Moment → String
  | date _ => "date"
  | time _ => "time"
  | both .. => "datetime"

/-- The name of a moment's type with that of its module. -/
def typeName (moment : Moment) : String := "datetime." ++ moment.kindName

/-- How a moment is written. -/
def text : Moment → String
  | date day => day.text
  | time clock => clock.text
  | both day clock ahead => day.text ++ " " ++ clock.text ++ (ahead.map aheadText).getD ""

/-- What a moment's type is called with. -/
def parts : Moment → List String
  | date day => day.numbers.map toString
  | time clock => clock.numbers.map toString
  | both day clock ahead =>
    (day.numbers ++ clock.numbers).map toString
      ++ (ahead.map fun minutes => "tzinfo=" ++ aheadName minutes).toList

/-- A moment as a part of a display. -/
def quoted (moment : Moment) : String := moment.typeName ++ "(" ++ ", ".intercalate moment.parts ++ ")"

end Moment

end DhtRecords.Toml
