import HomeBank.Lib.Locality
import HomeBank.Spec.JobBag
import HomeBank.Spec.Payment
import HomeBank.Spec.PointEntry
import HomeBank.Spec.WorkAdd

/-! The collections of a whole family, and the five buttons by which its pages write to
them. One handler runs after another, and each of its transactions may fail at any place. -/

namespace HomeBank.Family

open Dart Firestore Transaction

/-- A button that a parent presses, with the fates of the attempts of its calls. -/
inductive Press where
  | addWork (selectedChild selectedJob : Option String) (note pointText : String)
      (selectedDate : List (Option DateTime × List Fate))
  | delete (email : String) (tile : JobModel) (fates : List Fate)
  | confirm (email : String) (tile : JobModel) (finishFates : List Fate)
      (payFates : List (Fate × RecordScript))
  | transfer (targetAccount noteText pointText : String) (fates : List (Fate × RecordScript))
  | redeem (form : AwardAddPage.Form) (fates : List (Fate × RecordScript))

/-- The add-work page catches its exceptions and shows a report, the others do not. -/
abbrev Answer := WorkAddPage.Report ⊕ Except Exception Unit

def Press.handle : Press → Db → Answer × Db
  | .addWork selectedChild selectedJob note pointText selectedDate, db =>
    (WorkAddPage.onTap selectedChild selectedJob note pointText selectedDate db).map .inl id
  | .delete email tile fates, db =>
    (deleteJob email tile.type tile.note tile.date tile.point fates db).map .inr id
  | .confirm email tile finishFates payFates, db =>
    (HomeBank.confirm email tile finishFates payFates db).map .inr id
  | .transfer targetAccount noteText pointText fates, db =>
    (TransferConfirmPage.onTap (TransferPage.onTap targetAccount noteText pointText) fates db).map
      .inr id
  | .redeem form fates, db => (AwardAddPage.onPressed form fates db).map .inr id

/-- The child that the press is about. -/
def Press.child? : Press → Option String
  | .addWork selectedChild .. => selectedChild
  | .delete email .. | .confirm email .. => some email
  | .transfer targetAccount .. => some targetAccount
  | .redeem form _ => some form.selectedChild

/-- The payment that the press asks for. -/
def Press.payment? : Press → Option PointArgs
  | .addWork .. | .delete .. => none
  | .confirm _ tile _ _ => some (Payment.payment tile)
  | .transfer targetAccount noteText pointText _ =>
    some (TransferPage.onTap targetAccount noteText pointText).2
  | .redeem form _ =>
    some ⟨"兌換獎勵", form.noteText, -((tryParse form.pointText).getD 0)⟩

/-- The presses one after another, each with its answer. -/
abbrev run : List Press → Db → List (Press × Answer) × Db := Locality.exec Press.handle

/-- The three documents of a child. -/
def documents (email : String) (db : Db) : Option UserDoc × Option PointDoc × Option JobDoc :=
  (db.users email, db.point email, db.job email)

/-- The payments of a child whose handlers have returned. -/
def paid (email : String) (log : List (Press × Answer)) : List PointArgs :=
  (Locality.answersAbout Press.child? email log).filterMap fun (press, answer) =>
    if answer = .inr (.ok ()) then press.payment? else none

/-- The accounts of a child after some presses: the point document has kept its records and
gained others, among them one for each payment that has returned; these are a chain of
balances that ends with the stored one, and no other field of the users document has changed. -/
structure Accounts (email : String) (users : UserDoc) (b₀ : Int64) (value : Option (Value PointMap))
    (old : List Entry) (log : List (Press × Answer)) (db : Db) (entries chain : List Entry) :
    Prop where
  users : ∃ users', db.users email = some users' ∧
    intField (some users') "point" = .ok (Ledger.lastTotal b₀ chain) ∧
    ∀ field, field ≠ "point" → users'.lookup field = users.lookup field
  point : ∃ point', db.point email = some point' ∧ Holds value (old ++ entries) point'
  within : chain.Sublist entries
  chosen : chain.map Entry.args = paid email log
  totals : RunningTotals b₀ (chain.map Entry.model)
  sum : Ledger.lastTotal b₀ chain = b₀ + ((paid email log).map PointArgs.point).sum
  asked : ∀ entry ∈ entries, ∃ answered ∈ log,
    answered.1.child? = some email ∧ answered.1.payment? = some entry.args

end HomeBank.Family
