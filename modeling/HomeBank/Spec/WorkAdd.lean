import Mathlib.Data.List.ReduceOption
import HomeBank.Lib.Numerals
import HomeBank.Spec.Job

/-! The add-work page: one job for each selected date, one transaction after another. -/

namespace HomeBank.WorkAddPage

open Dart Firestore Transaction

/-- The loop over `selectedDate`, with the fates of the call for each date. -/
def createJobs (email type note : String) (point : Int64) :
    List (Option DateTime × List Fate) → Db → Except Exception Unit × Db
  | [], db => (.ok (), db)
  | (none, _) :: dates, db => createJobs email type note point dates db
  | (some date, fates) :: dates, db =>
    match createJob email type note date point fates db with
    | (.error e, db') => (.error e, db')
    | (.ok (), db') => createJobs email type note point dates db'

/-- The message that the handler shows. -/
inductive Report where
  /-- "請選擇指派對象和工作類別" -/
  | nothingSelected
  /-- "點數必須大於 0" -/
  | pointNotPositive
  /-- "新增工作完成！" -/
  | success
  /-- "新增工作失敗！", with the exception -/
  | failure (e : Exception)
  deriving DecidableEq

def onTap (selectedChild selectedJob : Option String) (note pointText : String)
    (selectedDate : List (Option DateTime × List Fate)) (db : Db) : Report × Db :=
  let point := (tryParse pointText).getD 0
  match selectedChild, selectedJob with
  | some email, some type =>
    if point ≤ 0 then (.pointNotPositive, db)
    else
      match createJobs email type note point selectedDate db with
      | (.ok (), db') => (.success, db')
      | (.error e, db') => (.failure e, db')
  | _, _ => (.nothingSelected, db)

/-- A job is created with one of the types that the page offers. -/
def FromPage : JobOp → Prop
  | .createJob type _ _ _ => type ∈ workTypes
  | _ => True

/-- The rows of the jobs for those of the dates that lie in a month. -/
def addedRows (type note : String) (point : Int64) (dates : List DateTime) (key : String) :
    List JobMap :=
  (dates.filter fun date => getYearMonth date = key).map fun date =>
    (JobModel.mk type note (getDateTimeString date) point false).toJson

/-- The months of the dates have gained one row for each of their dates, behind the old ones;
the other fields are as they were. -/
structure Gained (type note : String) (point : Int64) (dates : List DateTime)
    (before after : Option JobDoc) : Prop where
  exists_iff : after.isSome = before.isSome
  others : ∀ key, addedRows type note point dates key = [] →
    after.bind (·.lookup key) = before.bind (·.lookup key)
  months : ∀ key, addedRows type note point dates key ≠ [] → after.bind (·.lookup key) =
    some (.list (before.elim [] (rowsAt · key) ++ addedRows type note point dates key))

/-- Success has added one unfinished job for each date that is not null, and nothing else;
failure has changed nothing. -/
def AllOrNothing (email type note : String) (point : Int64) (dates : List (Option DateTime))
    (before : Db) (outcome : Report × Db) : Prop :=
  (outcome.1 = .success → Gained type note point dates.reduceOption (before.job email)
    (outcome.2.job email)) ∧
  ∀ e, outcome.1 = .failure e → outcome.2.job email = before.job email

end HomeBank.WorkAddPage
