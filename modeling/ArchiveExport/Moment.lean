import ArchiveExport.Text.Basic

/-!
# Moments

A moment is a number of seconds since the start of 1970. Its text is the date in the Gregorian
calendar and the time of day, both in universal time.
-/

namespace ArchiveExport

/-- A point in time. -/
structure Moment where
  seconds : Nat
  deriving DecidableEq

namespace Moment

/-- A calendar date. -/
structure Date where
  year : Nat
  month : Nat
  day : Nat
  deriving DecidableEq

/-- The seconds of a day. -/
def secondsPerDay : Nat := 86400

/-- The date of a day counted from the start of 1970. Years are taken to begin in March, so that
the leap day comes last; four hundred of them always have the same number of days. -/
def dateOfDay (day : Nat) : Date :=
  let shifted := day + 719468
  let cycle := shifted / 146097
  let inCycle := shifted % 146097
  let yearInCycle := (inCycle - inCycle / 1460 + inCycle / 36524 - inCycle / 146096) / 365
  let inYear := inCycle - (365 * yearInCycle + yearInCycle / 4 - yearInCycle / 100)
  let monthFromMarch := (5 * inYear + 2) / 153
  let day := inYear - (153 * monthFromMarch + 2) / 5 + 1
  let month := if monthFromMarch < 10 then monthFromMarch + 3 else monthFromMarch - 9
  let year := cycle * 400 + yearInCycle
  ⟨if month ≤ 2 then year + 1 else year, month, day⟩

-- a year that ends a century has a leap day if it is divisible by 400
example : dateOfDay 11016 = ⟨2000, 2, 29⟩ := by decide

/-- A number with at least as many digits as asked for. -/
def padded (width n : Nat) : String :=
  let digits := toString n
  String.ofList (List.replicate (width - digits.length) '0') ++ digits

/-- The moment as date and time of day. -/
def text (m : Moment) : String :=
  let date := dateOfDay (m.seconds / secondsPerDay)
  let second := m.seconds % secondsPerDay
  s!"{padded 4 date.year}-{padded 2 date.month}-{padded 2 date.day} " ++
    s!"{padded 2 (second / 3600)}:{padded 2 (second / 60 % 60)}:{padded 2 (second % 60)}"

end Moment

end ArchiveExport
