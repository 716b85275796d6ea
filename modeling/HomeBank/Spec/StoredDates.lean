import HomeBank.Spec.PointEntry
import HomeBank.Spec.WeeklyCounts

/-! The readers of stored dates: the texts that the pages show for a date, and the lists and
charts that they make of decoded records. -/

namespace HomeBank

open Dart Firestore

def getLongDate (dateString : String) : Except Exception String := do
  let date ← parseDate dateString
  return toString date.year ++ "/" ++ padLeft (toString date.month) 2 '0' ++ "/" ++
    padLeft (toString date.day) 2 '0'

def getShortDate (dateString : String) : Except Exception String := do
  let date ← parseDate dateString
  return padLeft (toString date.month) 2 '0' ++ "-" ++ padLeft (toString date.day) 2 '0'

/-- What `buildDetailTile` is given. -/
structure DetailTile where
  date : String
  type : String
  detail : String
  point : Int64
  deriving DecidableEq

/-- `ListView.builder` over the elements kept -/
def listView {α τ : Type} (kept : Except Exception (List α)) (tile : α → Except Exception τ) :
    Except Exception (List τ) := do
  let data ← kept
  data.mapM tile

/-- A tile of the pages that show all kinds of points. -/
def pointTile (model : PointModel) : Except Exception DetailTile := do
  let date ← parseDate model.date
  return ⟨toString date.month ++ "/" ++ toString date.day, model.type, model.note, model.point⟩

/-- A tile of the child's pages that show jobs. -/
def jobTile (job : JobModel) : Except Exception DetailTile := do
  return ⟨← getShortDate job.date, job.type, job.note, job.point⟩

section Lists

variable (contains : DateRange → DateTime → Bool)

def DetailPage.listTiles (s : Selection) (data : List PointModel) :=
  listView (buildList contains s data) pointTile

def AwardPage.listTiles (s : Selection) (data : List PointModel) :=
  listView (buildList contains s data) tile

def MyDetailPage.listTiles (s : Selection) (data : List PointModel) :=
  listView (buildList contains s data) pointTile

def MyWorksPage.listTiles (s : Selection) (finished : Bool) (data : List JobModel) :=
  listView (buildList contains s finished data) jobTile

/-- A tile shows the date, the note and the points. -/
def WorkDetailPage.tile (job : JobModel) : Except Exception (String × String × Int64) := do
  return (← getShortDate job.date, job.note, job.point)

def WorkDetailPage.listTiles (s : Selection) (type : ℕ) (data : List JobModel) :=
  listView (buildList contains s data type) tile

end Lists

/-- The home page of the child lists the open jobs of all months. -/
def MyHomePage.listTiles (data : List JobModel) :=
  listView (.ok (data.filter fun job => job.finish == false)) jobTile

/-- The dates under the line chart, if there is one. -/
def chartDates (pointRecord : List PointModel) : Except Exception (Option (String × String)) :=
  match pointRecord.head?, pointRecord.getLast? with
  | some first, some last => do return some (← getLongDate first.date, ← getLongDate last.date)
  | _, _ => .ok none

def StatisticsPage.chartDates := HomeBank.chartDates

def MyStatisticsPage.chartDates := HomeBank.chartDates

/-- The computation ends without an exception. -/
def Completes {α : Type} (x : Except Exception α) : Prop := ∃ r, x = .ok r

section Usable

variable (contains : DateRange → DateTime → Bool)

/-- Every reader of a date returns, whatever else it is given. -/
structure DateUsable (dateString : String) : Prop where
  isInMonth : ∀ compareDate, Completes (isInMonth dateString compareDate)
  isInRange : ∀ range, Completes (isInRange contains dateString range)
  getShortDate : Completes (getShortDate dateString)
  getLongDate : Completes (getLongDate dateString)
  getWeekOfMonth : Completes (StatisticsPage.getWeekOfMonth dateString)
  myGetWeekOfMonth : Completes (MyStatisticsPage.getWeekOfMonth dateString)

/-- Every list and chart that is made of the records is shown. -/
structure PointsUsable (data : List PointModel) : Prop where
  detail : ∀ s, Completes (DetailPage.listTiles contains s data)
  award : ∀ s, Completes (AwardPage.listTiles contains s data)
  myDetail : ∀ s, Completes (MyDetailPage.listTiles contains s data)
  chart : Completes (StatisticsPage.chartDates data)
  myChart : Completes (MyStatisticsPage.chartDates data)

structure JobsUsable (data : List JobModel) : Prop where
  workDetail : ∀ s type, Completes (WorkDetailPage.listTiles contains s type data)
  myWorks : ∀ s finished, Completes (MyWorksPage.listTiles contains s finished data)
  myHome : Completes (MyHomePage.listTiles data)
  weekly : Completes (StatisticsPage.weeklyCounts data)
  myWeekly : Completes (MyStatisticsPage.weeklyCounts data)

end Usable

end HomeBank
