/-! The date and time of day of a count of seconds since the first of January 1970, in
universal time. Years begin in March here, so that a leap day is the last of its year. -/
namespace SeoAudit

structure Moment where
  year : Int
  month : Nat
  day : Nat
  hour : Nat
  minute : Nat
  second : Nat
  millisecond : Nat
deriving DecidableEq, Repr

namespace Moment

def epochDays : Int := 719468

/-- The year from March on, the month counted from March, and the day, of a count of
days since the first of March of the year 0. -/
def ofDays (days : Int) : Int × Nat × Nat :=
  let era := days.fdiv 146097
  let dayOfEra := (days.fmod 146097).toNat
  let yearOfEra :=
    (dayOfEra - dayOfEra / 1460 + dayOfEra / 36524 - dayOfEra / 146096) / 365
  let dayOfYear := dayOfEra - (365 * yearOfEra + yearOfEra / 4 - yearOfEra / 100)
  let month := (5 * dayOfYear + 2) / 153
  (era * 400 + yearOfEra, month, dayOfYear - (153 * month + 2) / 5 + 1)

def ofSeconds (seconds : Int) (millisecond : Nat) : Moment :=
  let (year, month, day) := ofDays (seconds.fdiv 86400 + epochDays)
  let rest := (seconds.fmod 86400).toNat
  { year := if month < 10 then year else year + 1
    month := if month < 10 then month + 3 else month - 9
    day, hour := rest / 3600, minute := rest / 60 % 60, second := rest % 60, millisecond }

def padded (width n : Nat) : String :=
  let digits := toString n
  String.ofList (List.replicate (width - digits.length) '0') ++ digits

def text (m : Moment) : String :=
  s!"{padded 4 m.year.toNat}-{padded 2 m.month}-{padded 2 m.day} " ++
  s!"{padded 2 m.hour}:{padded 2 m.minute}:{padded 2 m.second},{padded 3 m.millisecond}"

end Moment
end SeoAudit
