import HomeBank.Spec.StoredDates

/-! `buildMonthNavigationRow`, which all list pages have: two arrows around a header, and the
calendar that opens on the header. -/

namespace HomeBank

open Dart Firestore Select

/-- `DateTime(year, month, 1)` for one of the arrows. It throws outside the range of `DateTime`,
after the range has been cleared. -/
def Selection.moveTo (s : Selection) (first : Date) : Selection :=
  ⟨(DateTime.ofParts first 0 0 false).getD s.currentDate, []⟩

def Selection.arrowLeft (s : Selection) : Selection := s.moveTo s.currentDate.previousMonth

def Selection.arrowRight (s : Selection) : Selection := s.moveTo s.currentDate.nextMonth

/-- A day as the header shows it. -/
def dayText (date : DateTime) : String :=
  toString date.year ++ "-" ++ toString date.month ++ "-" ++ toString date.day

def Selection.header (s : Selection) : String :=
  match s.range.head?, s.range.getLast? with
  | some first, some last => dayText first ++ " ~ " ++ dayText last
  | _, _ => toString s.currentDate.year ++ "年" ++ toString s.currentDate.month ++ "月"

/-- What can be done in the row. -/
inductive Gesture where
  | arrowLeft
  | arrowRight
  /-- the calendar is opened on the header and gives its answer -/
  | picked (answer : Option (List (Option DateTime)))

def Selection.onGesture (s : Selection) : Gesture → Selection
  | .arrowLeft => s.arrowLeft
  | .arrowRight => s.arrowRight
  | .picked answer => s.onPicked answer

/-- A page that has been opened at some time, after some gestures. -/
def Selection.after (now : DateTime) (gestures : List Gesture) : Selection :=
  gestures.foldl Selection.onGesture ⟨now, []⟩

/-- The calendar gives local midnights. -/
def Gesture.Delivered : Gesture → Prop
  | .picked (some dates) => ∀ date ∈ dates.reduceOption, date.midnight = date ∧ date.isUtc = false
  | _ => True

/-- The months counted through the years. -/
def monthNumber (date : Date) : ℤ := date.year * 12 + (date.month - 1)

/-- The month in which the range of `DateTime` ends. -/
def lastMonth : ℤ := 275760 * 12 + 8

/-- A list page: which elements are its own, what dates them, and the list that it builds. -/
structure ListPage (contains : DateRange → DateTime → Bool) (α : Type) where
  own : α → Bool
  date : α → String
  build : Selection → List α → Except Exception (List α)
  build_eq : ∀ s data, build s data = s.where contains own date data

section Turning

variable {contains : DateRange → DateTime → Bool} {α τ : Type}

/-- The month of an element that can be dated. -/
def ListPage.month (page : ListPage contains α) (a : α) : ℤ :=
  match parseDate (page.date a) with
  | .ok d => monthNumber d.toDate
  | .error _ => 0

/-- The lists that a page builds while the right arrow is pressed `n` times. -/
def ListPage.turned (page : ListPage contains α) (s : Selection) (data : List α) (n : ℕ) :
    Except Exception (List (List α)) :=
  (List.range n).mapM fun k => page.build (Selection.arrowRight^[k + 1] s) data

/-- The same with the tiles that are shown. -/
def ListPage.shown (page : ListPage contains α) (tile : α → Except Exception τ) (s : Selection)
    (data : List α) (n : ℕ) : Except Exception (List (List τ)) :=
  (List.range n).mapM fun k => listView (page.build (Selection.arrowRight^[k + 1] s) data) tile

/-- The own elements of the page can be dated, in one of the `n` months after the current one. -/
def ListPage.DatedWithin (page : ListPage contains α) (s : Selection) (data : List α) (n : ℕ) :
    Prop :=
  ∀ a ∈ data, page.own a = true → ∃ d, parseDate (page.date a) = .ok d ∧
    monthNumber s.currentDate.toDate < monthNumber d.toDate ∧
    monthNumber d.toDate ≤ monthNumber s.currentDate.toDate + n

/-- The own elements of the page come in the order of their months. -/
def ListPage.InOrder (page : ListPage contains α) (data : List α) : Prop :=
  (data.filter page.own).Pairwise fun a b => ∀ d d', parseDate (page.date a) = .ok d →
    parseDate (page.date b) = .ok d' → monthNumber d.toDate ≤ monthNumber d'.toDate

theorem parseDate_eq_ok {dateString : String} {d : DateTime} :
    parseDate dateString = .ok d ↔ DateTime.parse dateString = some d := by
  rw [parseDate]
  cases DateTime.parse dateString <;> simp

instance (page : ListPage contains α) (s : Selection) (data : List α) (n : ℕ) :
    Decidable (page.DatedWithin s data n) :=
  decidable_of_iff
    (∀ a ∈ data, page.own a = true → ∃ d ∈ DateTime.parse (page.date a),
      monthNumber s.currentDate.toDate < monthNumber d.toDate ∧
      monthNumber d.toDate ≤ monthNumber s.currentDate.toDate + n)
    (by simp only [ListPage.DatedWithin, parseDate_eq_ok, Option.mem_def])

instance (page : ListPage contains α) (data : List α) : Decidable (page.InOrder data) :=
  decidable_of_iff
    ((data.filter page.own).Pairwise fun a b => ∀ d ∈ DateTime.parse (page.date a),
      ∀ d' ∈ DateTime.parse (page.date b), monthNumber d.toDate ≤ monthNumber d'.toDate)
    (by
      simp only [ListPage.InOrder, parseDate_eq_ok, Option.mem_def]
      exact List.Pairwise.iff fun _ _ => ⟨fun h d d' hd hd' => h d hd d' hd',
        fun h d hd d' hd' => h d d' hd hd'⟩)

end Turning

end HomeBank
