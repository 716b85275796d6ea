import Mathlib.Data.Rat.Floor
import HomeBank.Lib.Histogram
import HomeBank.Spec.Models

/-! The weekly completion rates of `StatisticsPage` and `MyStatisticsPage`: the loop that
counts the jobs of the month by type and week, and the bars drawn from its counters. -/

namespace HomeBank

open Dart Firestore

/-- The two counters of one type, with an entry for each week. -/
structure Tally where
  total : List ℕ := [0, 0, 0, 0]
  finished : List ℕ := [0, 0, 0, 0]
  deriving DecidableEq

structure WeeklyCounts where
  work : Tally := {}
  house : Tally := {}
  sport : Tally := {}
  art : Tally := {}
  deriving DecidableEq

section Loop

variable (getWeekOfMonth : String → Except Exception ℤ)

/-- The body of each branch of the loop. -/
def Tally.count (tally : Tally) (job : JobModel) : Except Exception Tally := do
  let index := (← getWeekOfMonth job.date) - 1
  if 0 ≤ index ∧ index < 4 then
    let total := tally.total.modify index.toNat (· + 1)
    if job.finish then return ⟨total, tally.finished.modify index.toNat (· + 1)⟩
    else return ⟨total, tally.finished⟩
  else return tally

/-- One round of the loop. The date of a job of another type is not looked at. -/
def WeeklyCounts.count (counts : WeeklyCounts) (job : JobModel) : Except Exception WeeklyCounts :=
  if job.type = workType 0 then
    (counts.work.count getWeekOfMonth job).map fun work => { counts with work }
  else if job.type = workType 1 then
    (counts.house.count getWeekOfMonth job).map fun house => { counts with house }
  else if job.type = workType 2 then
    (counts.sport.count getWeekOfMonth job).map fun sport => { counts with sport }
  else if job.type = workType 3 then
    (counts.art.count getWeekOfMonth job).map fun art => { counts with art }
  else .ok counts

def countJobs (jobs : List JobModel) : Except Exception WeeklyCounts :=
  jobs.foldlM (WeeklyCounts.count getWeekOfMonth) {}

end Loop

/-- `toY` of the rod of a type in the group of a week, `none` where an index is out of range
or the divisor is zero -/
def Tally.toY (tally : Tally) (week : ℕ) : Option ℚ := do
  let total ← tally.total[week]?
  let finished ← tally.finished[week]?
  if total = 0 then return 0 else percentage finished total

/-- The sixteen bars, in four groups. -/
def WeeklyCounts.barGroups (counts : WeeklyCounts) : List (List (Option ℚ)) :=
  [0, 1, 2, 3].map fun week =>
    [counts.work.toY week, counts.house.toY week, counts.sport.toY week, counts.art.toY week]

namespace StatisticsPage

def getWeekOfMonth (dateString : String) : Except Exception ℤ := do
  let date ← parseDate dateString
  if date.day > 28 then return 4
  return ⌈(date.day / 7 : ℚ)⌉

def weeklyCounts (jobRecord : List JobModel) : Except Exception WeeklyCounts :=
  countJobs getWeekOfMonth jobRecord

end StatisticsPage

namespace MyStatisticsPage

def getWeekOfMonth (dateString : String) : Except Exception ℤ := do
  let date ← parseDate dateString
  if date.day > 28 then return 4
  return ⌈(date.day / 7 : ℚ)⌉

def weeklyCounts (jobRecord : List JobModel) : Except Exception WeeklyCounts :=
  countJobs getWeekOfMonth jobRecord

end MyStatisticsPage

/-- The counters of the type `workTypes[i]`. -/
def WeeklyCounts.tally (counts : WeeklyCounts) : Fin 4 → Tally
  | 0 => counts.work
  | 1 => counts.house
  | 2 => counts.sport
  | 3 => counts.art

/-- The date of the job falls on one of the days `7 * w - 6` to `7 * w` of its month, or
for the fourth week on one of the days 22 to 31. -/
def inWeek (w : ℕ) (job : JobModel) : Bool :=
  match parseDate job.date with
  | .error _ => false
  | .ok date => (7 * w - 6 ≤ date.day && date.day ≤ 7 * w) || (w == 4 && 29 ≤ date.day)

end HomeBank
