import HomeBank.Lib.Transaction
import HomeBank.Spec.Job

/-! `PointProvider`: the users transaction of `changePoint`, which runs the points
transaction of `addRecord` inside its handler, and the reader of a point document. -/

namespace HomeBank

open Dart Firestore Transaction

/-- The arguments of `changePoint` besides the email. -/
structure PointArgs where
  type : String
  note : String
  point : Int64
  deriving DecidableEq

/-- The new balance that the handler of `changePoint` buffers. -/
def newTotal (point : Int64) (snapshot : Option UserDoc) : Except Exception Int64 := do
  let balance ← intField snapshot "point"
  return balance + point

def totalUpdate (total : Int64) : Update Empty := ⟨"point", .int total⟩

/-- The handler of `addRecord`; `today` is its reading of the clock. -/
def addRecordBody {ρ : Type} [Codec ρ PointModel] (args : PointArgs) (total : Int64)
    (today : DateTime) (snapshot : Option (Document ρ)) : Except Exception (Option (Update ρ)) := do
  let yearMonth := toString today.year ++ "-" ++ padLeft (toString today.month) 2 '0'
  let datetime := splitFirst today.toString '.'
  let data ← listField snapshot yearMonth
  let model : PointModel := ⟨args.type, args.note, datetime, args.point, total⟩
  return some ⟨yearMonth, .list (data ++ [Codec.toJson model])⟩

/-- The record that the handler appends. -/
def recordModel (args : PointArgs) (total : Int64) (today : DateTime) : PointModel :=
  ⟨args.type, args.note, getDateTimeString today, args.point, total⟩

theorem addRecordBody_eq {ρ : Type} [Codec ρ PointModel] (args : PointArgs) (total : Int64)
    (today : DateTime) (doc : Option (Document ρ)) : addRecordBody args total today doc =
      (listField doc (getYearMonth today)).map fun data =>
        some ⟨getYearMonth today, .list (data ++ [Codec.toJson (recordModel args total today)])⟩ := by
  change (do
    let data ← listField doc (getYearMonth today)
    return some _) = _
  cases listField doc (getYearMonth today) <;> rfl

/-- The document with one more record, in the list of the month in which it is written. -/
def appended (args : PointArgs) (total : Int64) (today : DateTime) (doc : PointDoc) : PointDoc :=
  doc.insert (getYearMonth today)
    (.list (rowsAt doc (getYearMonth today) ++ [(recordModel args total today).toJson]))

/-- One record more for each of some times. -/
def appendedAll (args : PointArgs) (total : Int64) (times : List DateTime) (doc : PointDoc) : PointDoc :=
  times.foldl (fun doc today => appended args total today doc) doc

section Calls

variable {J P : Type}

def usersRef (email : String) : DocRef (Collections J P) UserDoc where
  get db := db.users email
  put d db := { db with users := Function.update db.users email (some d) }
  get_put _ _ := Function.update_self ..

def pointRef (email : String) : DocRef (Collections J P) (Document P) where
  get db := db.point email
  put d db := { db with point := Function.update db.point email (some d) }
  get_put _ _ := Function.update_self ..

/-- The attempts of an `addRecord` call, each with the time at which its handler runs. -/
abbrev RecordScript := List (Fate × DateTime)

variable [Codec P PointModel]

def addRecord (email : String) (args : PointArgs) (total : Int64) (fates : RecordScript)
    (db : Collections J P) : Except Exception Unit × Collections J P :=
  runTransaction errors (pointRef email) Update.apply (pureBody (addRecordBody args total)) fates db

/-- The handler of `changePoint`, with the script of the `addRecord` call that it makes. -/
def changePointBody (email : String) (args : PointArgs) (inner : RecordScript)
    (snapshot : Option UserDoc) (db : Collections J P) :
    Except Exception (Option (Update Empty)) × Collections J P :=
  match newTotal args.point snapshot with
  | .error e => (.error e, db)
  | .ok total =>
    match addRecord email args total inner db with
    | (.error e, db') => (.error e, db')
    | (.ok (), db') => (.ok (some (totalUpdate total)), db')

def changePoint (email : String) (args : PointArgs) (fates : List (Fate × RecordScript))
    (db : Collections J P) : Except Exception Unit × Collections J P :=
  runTransaction errors (usersRef email) Update.apply (changePointBody email args) fates db

/-- The fates of a `changePoint` call each of whose transactions commits at its first attempt,
with the time at which its record is written. -/
def acceptedAt (today : DateTime) : List (Fate × RecordScript) := [(.accepted, [(.accepted, today)])]

/-- `getPointRecord` on the document that it has read -/
def getPointRecord (doc : Option (Document P)) : Except Exception (Records PointModel) :=
  readRecords Codec.fromMap doc

end Calls

end HomeBank
