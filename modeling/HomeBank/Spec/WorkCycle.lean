import HomeBank.Spec.Family
import HomeBank.Spec.StoredDates

/-! The way of a job through the pages. It is added for the days that the date field names, the
child's home page shows it, and in the end it is confirmed or deleted. The pages take their jobs
and records from `AuthProvider`, where no method puts any; they are taken to show what
`getJobRecord` and `getPointRecord` read. -/

namespace HomeBank

open Dart Firestore Transaction Family

/-- What a date field shows. -/
def getDateString : List DateTime → String
  | [date] => splitFirst date.toString ' '
  | dates => dates.foldl (fun buf date => buf ++ (padLeft (toString date.month) 2 '0' ++ "-" ++
      padLeft (toString date.day) 2 '0' ++ " ")) ""

/-- A day on a tile, and in a date field with several days. -/
def shortDay (date : DateTime) : String :=
  padLeft (toString date.month) 2 '0' ++ "-" ++ padLeft (toString date.day) 2 '0'

/-- A text names days: a single one with its year, several one after another. -/
def NamesDays (text : String) : List DateTime → Prop
  | [day] => text = String.ofList (DateTime.yearText day.year) ++ "-" ++ shortDay day
  | days => text = String.join (days.map fun day => shortDay day ++ " ")

def WorkAddPage.dateField (selectedDate : List (Option DateTime × List Fate)) : String :=
  getDateString (selectedDate.map Prod.fst).reduceOption

def Job.tile (job : Job) : DetailTile := ⟨shortDay job.date, job.type, job.note, job.point⟩

/-- What becomes of a job in the end. -/
inductive Settlement where
  | delete (fates : List Fate)
  | confirm (finishFates : List Fate) (payFates : List (Fate × RecordScript))

namespace Settlement

/-- The button of the tile of the job. -/
def press (email : String) (tile : JobModel) : Settlement → Press
  | .delete fates => .delete email tile fates
  | .confirm finishFates payFates => .confirm email tile finishFates payFates

def pays : Settlement → Bool
  | .delete _ => false
  | .confirm .. => true

end Settlement

/-- The jobs of a plan that are confirmed. -/
def confirmed (plan : List (Job × Settlement)) : List Job :=
  (plan.filter fun entry => entry.2.pays).map Prod.fst

end HomeBank
