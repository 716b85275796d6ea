import Mathlib.Data.Prod.Lex
import HomeBank.Lib.Filing
import HomeBank.Spec.Point

/-! What the point document of one child is for: a book of its payments in the order of
time, each with the balance that it led to. -/

namespace HomeBank

open Dart Firestore Transaction

/-- A record that `addRecord` has written, with the time of the writing. -/
structure Entry where
  args : PointArgs
  total : Int64
  today : DateTime

namespace Entry

def month (entry : Entry) : String := getYearMonth entry.today

def model (entry : Entry) : PointModel := recordModel entry.args entry.total entry.today

/-- The row that stands for the record in the document. -/
def stored (entry : Entry) : PointMap := entry.model.toJson

end Entry

/-- The document holds the records of the list: each in the list of its own month, in the
order of the list, and `value` under the key of the parent. -/
abbrev Holds (value : Option (Value PointMap)) (entries : List Entry) (doc : PointDoc) : Prop :=
  Files "parent" value Entry.month Entry.stored entries doc

/-- The transactions of `addRecord`. -/
def recordHandlers : Optimistic.Handlers Entry PointDoc (Update PointMap) Exception :=
  ⟨fun entry => addRecordBody entry.args entry.total entry.today, Update.apply⟩

/-- Such calls one after the other, up to the first that throws. -/
def changePoints (email : String) : List (PointArgs × DateTime) → Db → Except Exception Unit × Db
  | [], db => (.ok (), db)
  | (args, today) :: calls, db =>
    match changePoint email args (acceptedAt today) db with
    | (.error e, db') => (.error e, db')
    | (.ok (), db') => changePoints email calls db'

/-- A point document whose month lists, if it has any, are empty. -/
def WithoutRecords (doc : PointDoc) : Prop :=
  rows doc = 0 ∧ ∀ key, key ≠ "parent" → doc.lookup key = none ∨ doc.lookup key = some (.list [])

/-- The name of the list of a month. -/
def nameOf (month : ℤ ×ₗ ℕ) : String := monthKey (ofLex month).1 (ofLex month).2

/-- Months in the order of time, among them all that have records in the document. -/
structure Chronological (doc : PointDoc) (months : List (ℤ ×ₗ ℕ)) : Prop where
  sorted : months.Pairwise (· < ·)
  valid : ∀ month ∈ months, 1 ≤ (ofLex month).2 ∧ (ofLex month).2 ≤ 12
  complete : ∀ key, key ≠ "parent" → rowsAt doc key ≠ [] → ∃ month ∈ months, nameOf month = key

/-- The total of each record is the one before it plus the points of the record. -/
def RunningTotals : Int64 → List PointModel → Prop
  | _, [] => True
  | balance, record :: records =>
    record.total = balance + record.point ∧ RunningTotals record.total records

/-- The records `r1..rn` that the calls have left in the document. -/
structure Booked (b₀ : Int64) (calls : List (PointArgs × DateTime)) (users : UserDoc)
    (doc : PointDoc) (records : List PointModel) : Prop where
  per_call : records.map (fun r => PointArgs.mk r.type r.note r.point) = calls.map Prod.fst
  totals : RunningTotals b₀ records
  balance : intField (some users) "point" = .ok ((records.getLast?.map PointModel.total).getD b₀)
  months : ∃ months, Chronological doc months
  lists : ∀ months, Chronological doc months →
    (months.flatMap fun month => rowsAt doc (nameOf month)) = records.map PointModel.toJson
  own_month : ∀ key record, key ≠ "parent" → PointModel.toJson record ∈ rowsAt doc key →
    ∃ date, parseDate record.date = .ok date ∧ getYearMonth date = key
  dates : records.Pairwise fun r r' => ∃ date date', parseDate r.date = .ok date ∧
    parseDate r'.date = .ok date' ∧ date.stamp ≤ date'.stamp

end HomeBank
