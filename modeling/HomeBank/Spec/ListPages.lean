import HomeBank.Lib.Numerals
import HomeBank.Lib.Select
import HomeBank.Spec.Models

/-! The list pages. Each keeps the elements with its own type or finish condition whose date
lies in the current month, or in the picked range while there is one, and shows a tile for
each of them. The statistics pages select a month in another way: they look up the list under
its key. -/

namespace HomeBank

open Dart Firestore Select

/-- `records[getYearMonth(currentDate)] ?? []` of the statistics pages -/
def recordsAt {α : Type} (records : Records α) (currentDate : DateTime) : List α :=
  (records.lookup (getYearMonth currentDate)).getD []

/-- The loop of the list pages that keeps the elements of the current month. -/
def whereInMonth {α : Type} (date : α → String) (currentDate : DateTime) :
    List α → Except Exception (List α) :=
  whereM fun element => isInMonth (date element) currentDate

/-- The ends of a `DateRange` of the package `in_date_range`. -/
structure DateRange where
  start : DateTime
  stop : DateTime

/-- What a list page has selected: its month and its picked range. -/
structure Selection where
  currentDate : DateTime
  range : List DateTime := []

/-- What `onTap` does with the answer of the calendar dialog. -/
def Selection.onPicked (s : Selection) : Option (List (Option DateTime)) → Selection
  | none => s
  | some picked => if picked.isEmpty then s else { s with range := picked.reduceOption }

section Pages

-- `DateRange.contains` of the package
variable (contains : DateRange → DateTime → Bool)

def isInRange (dateString : String) (range : DateRange) : Except Exception Bool := do
  let date ← parseDate dateString
  return contains range date

/-- The date test of all list pages. -/
def Selection.passes (s : Selection) (dateString : String) : Except Exception Bool :=
  match s.range.head?, s.range.getLast? with
  | some first, some last => isInRange contains dateString ⟨first, last⟩
  | _, _ => isInMonth dateString s.currentDate

/-- `data.where(own).where(passes)` -/
def Selection.where {α : Type} (s : Selection) (own : α → Bool) (date : α → String) (data : List α) :
    Except Exception (List α) :=
  whereM (fun element => s.passes contains (date element)) (data.filter own)

namespace DetailPage

def own (element : PointModel) : Bool := element.type != allWorkTypes.getLast (by decide)

def buildList (s : Selection) (data : List PointModel) : Except Exception (List PointModel) :=
  s.where contains own PointModel.date data

/-- The amount on a tile. -/
def amount (point : Int64) : String := "  " ++ toString point ++ "點"

end DetailPage

namespace AwardPage

def own (element : PointModel) : Bool := element.type == allWorkTypes.getLast (by decide)

def buildList (s : Selection) (data : List PointModel) : Except Exception (List PointModel) :=
  s.where contains own PointModel.date data

def amount (point : Int64) : String := "  " ++ toString (-point) ++ "點"

end AwardPage

namespace MyDetailPage

def own (_ : PointModel) : Bool := true

def buildList (s : Selection) (data : List PointModel) : Except Exception (List PointModel) :=
  s.where contains own PointModel.date data

def amount (point : Int64) : String :=
  (if point > 0 then "+" else "-") ++ toString point ++ "點"

end MyDetailPage

namespace MyWorksPage

def own (finished : Bool) (job : JobModel) : Bool := job.finish == finished

def buildList (s : Selection) (finished : Bool) (data : List JobModel) :
    Except Exception (List JobModel) :=
  s.where contains (own finished) JobModel.date data

end MyWorksPage

namespace WorkDetailPage

/-- The loop of the four list builders, which differ in the type only. -/
def collect (s : Selection) (type : String) : List JobModel → List JobModel →
    Except Exception (List JobModel)
  | [], jobList => .ok jobList
  | job :: data, jobList =>
    if job.type = type then do
      if ← s.passes contains job.date then collect s type data (jobList ++ [job])
      else collect s type data jobList
    else collect s type data jobList

def buildHomeworkList (s : Selection) (data : List JobModel) : Except Exception (List JobModel) :=
  collect contains s (workType 0) data []

def buildWorkList (s : Selection) (data : List JobModel) : Except Exception (List JobModel) :=
  collect contains s (workType 1) data []

def buildSportList (s : Selection) (data : List JobModel) : Except Exception (List JobModel) :=
  collect contains s (workType 2) data []

def buildArtList (s : Selection) (data : List JobModel) : Except Exception (List JobModel) :=
  collect contains s (workType 3) data []

/-- The page of `widget.type`, which shows nothing for another number. -/
def buildList (s : Selection) (data : List JobModel) : ℕ → Except Exception (List JobModel)
  | 0 => buildHomeworkList contains s data
  | 1 => buildWorkList contains s data
  | 2 => buildSportList contains s data
  | 3 => buildArtList contains s data
  | _ => .ok []

end WorkDetailPage

end Pages

/-- The integer that the amount on a tile names. -/
def shownAmount (text : String) : Option ℤ :=
  if text.toList.getLast? = some '點' then integerOf (String.ofList text.toList.dropLast) else none

/-- The sum of the amounts on the tiles, if each of them is an integer. -/
def shownSum (amount : Int64 → String) (data : List PointModel) : Option ℤ :=
  (data.mapM fun model => shownAmount (amount model.point)).map List.sum

/-- The day of a stored date lies between two days, both included. -/
def dayBetween (first last : DateTime) (dateString : String) : Bool :=
  match parseDate dateString with
  | .error _ => false
  | .ok date => first.stamp ≤ date.midnight.stamp && date.midnight.stamp ≤ last.stamp

/-- A stored date lies in the month of another one. -/
def inMonthOf (currentDate : DateTime) (dateString : String) : Bool :=
  match parseDate dateString with
  | .error _ => false
  | .ok date => date.year = currentDate.year && date.month = currentDate.month

/-- The child's page shows every record of the month once, the detail and the award page share
the same records between them, and the sums of the amounts on the tiles agree with the sum of
the stored points. -/
def Reconciles (contains : DateRange → DateTime → Bool) (currentDate : DateTime)
    (data : List PointModel) : Prop :=
  ∃ child detail award, MyDetailPage.buildList contains ⟨currentDate, []⟩ data = .ok child ∧
    DetailPage.buildList contains ⟨currentDate, []⟩ data = .ok detail ∧
    AwardPage.buildList contains ⟨currentDate, []⟩ data = .ok award ∧
    child = data.filter (fun r => inMonthOf currentDate r.date) ∧
    (detail ++ award).Perm child ∧ detail.Disjoint award ∧
    ∃ c d a : ℤ, shownSum MyDetailPage.amount child = some c ∧
      shownSum DetailPage.amount detail = some d ∧ shownSum AwardPage.amount award = some a ∧
      c = d - a ∧ c = (child.map fun r => r.point.toInt).sum

end HomeBank
