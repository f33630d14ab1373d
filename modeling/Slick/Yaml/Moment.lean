import Slick.Yaml.Pieces

/-!
# Dates and times in YAML

A date is a year, a month and a day, and may be followed by a time of day with a fraction of a
second and a time zone. Dates are counted in days, times in microseconds, and times with a zone
at the prime meridian, so that equal ones have equal counts.
-/

namespace Slick.Yaml

/-- A time of day. -/
structure TimeOfDay where
  hour : Nat
  minute : Nat
  second : Nat
  microsecond : Nat
  /-- The distance from the prime meridian in minutes, if a zone is given. -/
  zone : Option Int
  deriving DecidableEq, Repr

/-- A date, and the time if one is given. -/
structure Moment where
  year : Nat
  month : Nat
  day : Nat
  time : Option TimeOfDay
  deriving DecidableEq, Repr

namespace Moment

/-- The number that one or two digits spell. -/
def short? (run : List Char) : Option Nat :=
  if (run.length = 1 ∨ run.length = 2) ∧ run.all Char.isDigit then
    some (Nat.ofDigitChars 10 run 0)
  else none

/-- The number that two digits spell. -/
def two? (run : List Char) : Option Nat := if run.length = 2 then short? run else none

/-- Hours, and minutes behind a colon, in minutes. -/
def distance? (text : List Char) : Option Nat :=
  match split ':' text with
  | [hours] => (short? hours).map (60 * ·)
  | [hours, minutes] => do return 60 * (← short? hours) + (← two? minutes)
  | _ => none

/-- The distance of a time zone in minutes, if a text names a zone or nothing. -/
def zone? (text : List Char) : Option (Option Int) :=
  match text.dropWhile fun c => c = ' ' || c = '\t' with
  | [] => if text = [] then some none else none
  | ['Z'] => some (some 0)
  | '-' :: rest => (distance? rest).map fun distance => some (-distance)
  | '+' :: rest => (distance? rest).map fun distance => some distance
  | _ => none

/-- The first six digits of a fraction of a second. -/
def microseconds (fraction : List Char) : Nat :=
  Nat.ofDigitChars 10 ((fraction ++ List.replicate 6 '0').take 6) 0

/-- The time of day with its zone that a text spells. -/
def time? (text : List Char) : Option TimeOfDay := do
  let hours := text.takeWhile (· ≠ ':')
  let rest := (text.dropWhile (· ≠ ':')).drop 1
  let minutes := rest.takeWhile (· ≠ ':')
  let rest := (rest.dropWhile (· ≠ ':')).drop 1
  let hour ← short? hours
  let minute ← two? minutes
  let second ← two? (rest.take 2)
  let rest := rest.drop 2
  let fraction := if rest.head? = some '.' then rest.tail.takeWhile Char.isDigit else []
  let rest := if rest.head? = some '.' then rest.tail.dropWhile Char.isDigit else rest
  return ⟨hour, minute, second, microseconds fraction, ← zone? rest⟩

/-- The date, and the time if there is one, that a text spells. In strict form a date alone has two
digits for month and day. -/
def ofText? (strict : Bool) (text : List Char) : Option Moment := do
  let year := text.take 4
  if year.length = 4 ∧ year.all Char.isDigit ∧ text[4]? = some '-' then
    let rest := text.drop 5
    let month := rest.takeWhile (· ≠ '-')
    let rest := (rest.dropWhile (· ≠ '-')).drop 1
    let day := rest.takeWhile Char.isDigit
    let rest := rest.dropWhile Char.isDigit
    let moment : Moment := ⟨Nat.ofDigitChars 10 year 0, ← short? month, ← short? day, none⟩
    match rest with
    | [] => if strict ∧ (month.length ≠ 2 ∨ day.length ≠ 2) then none else return moment
    | c :: more =>
      let isBlank := fun (c : Char) => c = ' ' || c = '\t'
      if c = 'T' ∨ c = 't' then return { moment with time := ← time? more }
      else if isBlank c then return { moment with time := ← time? (more.dropWhile isBlank) }
      else none
  else none

/-- Whether a year has a leap day. -/
def isLeap (year : Nat) : Bool :=
  year % 4 = 0 && (year % 100 ≠ 0 || year % 400 = 0)

/-- The days of a month. -/
def daysIn (year month : Nat) : Nat :=
  if month = 2 then if isLeap year then 29 else 28
  else if month ∈ [4, 6, 9, 11] then 30
  else 31

/-- Whether the date exists, the time is one of the day and the zone less than a day away. -/
def exists? (m : Moment) : Bool :=
  1 ≤ m.year && 1 ≤ m.month && m.month ≤ 12 && 1 ≤ m.day && m.day ≤ daysIn m.year m.month &&
    m.time.all fun t =>
      t.hour < 24 && t.minute < 60 && t.second < 60 && t.zone.all fun z => z.natAbs < 24 * 60

/-- The number of days from the start of the first year to the start of the date. -/
def dayNumber (m : Moment) : Nat :=
  let past := m.year - 1
  365 * past + past / 4 - past / 100 + past / 400 +
    (List.range (m.month - 1)).foldl (fun days i => days + daysIn m.year (i + 1)) 0 + (m.day - 1)

end Moment

/-- What tells dates and times apart. -/
inductive Instant where
  | day (number : Nat)
  /-- A time without a zone, in microseconds. -/
  | localTime (microseconds : Int)
  /-- A time with a zone, in microseconds at the prime meridian. -/
  | zonedTime (microseconds : Int)
  deriving DecidableEq, Repr

/-- The place of a date or a time among its like. -/
def Moment.instant (m : Moment) : Instant :=
  match m.time with
  | none => .day m.dayNumber
  | some t =>
    let minutes : Int := (24 * m.dayNumber + t.hour) * 60 + t.minute
    let count := fun (minutes : Int) => (minutes * 60 + t.second) * 1000000 + t.microsecond
    match t.zone with
    | none => .localTime (count minutes)
    | some zone => .zonedTime (count (minutes - zone))

end Slick.Yaml
