import HomeBank.Spec.Ledger
import HomeBank.Spec.ListPages

/-! The two forms in which the parent types a number of points: the transfer with its
confirmation page, and the redemption of an award. No form runs the validator of the points
field, and nothing reads the date of the redemption. -/

namespace HomeBank

open Dart Firestore Transaction

namespace TransferPage

/-- What `onTap` of the first page hands to the confirmation page. -/
def onTap (targetAccount noteText pointText : String) : String × PointArgs :=
  let point := (tryParse pointText).getD 0
  (targetAccount, ⟨"", noteText, point⟩)

end TransferPage

namespace TransferConfirmPage

def onTap (page : String × PointArgs) (fates : List (Fate × RecordScript)) (db : Db) :
    Except Exception Unit × Db :=
  changePoint page.1 page.2 fates db

end TransferConfirmPage

namespace AwardAddPage

/-- The fields of the page. -/
structure Form where
  selectedDate : DateTime
  selectedChild : String
  noteText : String
  pointText : String

/-- `onPressed` of the dialog that asks for a confirmation. -/
def onPressed (form : Form) (fates : List (Fate × RecordScript)) (db : Db) :
    Except Exception Unit × Db :=
  let point := (tryParse form.pointText).getD 0
  changePoint form.selectedChild ⟨"兌換獎勵", form.noteText, -point⟩ fates db

end AwardAddPage

/-- The document has gained the record of one payment. -/
def OneNewRecord (args : PointArgs) (before after : Option PointDoc) : Prop :=
  ∃ doc doc', before = some doc ∧ after = some doc' ∧
    Ledger.recorded doc' = args ::ₘ Ledger.recorded doc

/-- A text that is no positive integer has moved nothing; a positive integer whose sum with the
balance fits in 64 bits has been added to the balance, or taken from it, with one new record. -/
def MovesPoints (email type note pointText : String) (sign : ℤ) (before after : Db) : Prop :=
  ((∀ n, integerOf pointText = some n → n ≤ 0) →
    intField (after.users email) "point" = intField (before.users email) "point" ∧
      after.point email = before.point email) ∧
  ∀ n balance, integerOf pointText = some n → 0 < n → n < 2 ^ 63 →
    intField (before.users email) "point" = .ok balance →
    -2 ^ 63 ≤ balance.toInt + sign * n → balance.toInt + sign * n < 2 ^ 63 →
    ∃ balance', intField (after.users email) "point" = .ok balance' ∧
      balance'.toInt = balance.toInt + sign * n ∧
      OneNewRecord ⟨type, note, .ofInt (sign * n)⟩ (before.point email) (after.point email)

namespace AwardPage

/-- A tile of the award page. -/
structure Tile where
  date : String
  detail : String
  amount : String
  deriving DecidableEq

def tile (model : PointModel) : Except Exception Tile := do
  let date ← parseDate model.date
  return ⟨toString date.month ++ "/" ++ toString date.day, model.note, amount model.point⟩

/-- The tiles of a child in the month of a date. The page takes the records from
`AuthProvider.points`, which no method fills; it is taken to show what `getPointRecord` reads. -/
def tiles (contains : DateRange → DateTime → Bool) (doc : Option PointDoc) (currentDate : DateTime) :
    Except Exception (List Tile) := do
  let records ← getPointRecord doc
  let data ← buildList contains ⟨currentDate, []⟩ records.all
  data.mapM tile

end AwardPage

/-- The month of the picked date shows one more entry, with the note, the cost and the picked
day; the other months show what they showed before. -/
def ShowsRedemption (contains : DateRange → DateTime → Bool) (picked : DateTime) (note : String)
    (cost : Int64) (before after : Option PointDoc) : Prop :=
  (∃ shown shown', AwardPage.tiles contains before picked = .ok shown ∧
    AwardPage.tiles contains after picked = .ok shown' ∧
    shown'.Perm (shown ++ [⟨toString picked.month ++ "/" ++ toString picked.day, note,
      "  " ++ toString cost ++ "點"⟩])) ∧
  ∀ other, getYearMonth other ≠ getYearMonth picked →
    ∃ shown shown', AwardPage.tiles contains before other = .ok shown ∧
      AwardPage.tiles contains after other = .ok shown' ∧ shown'.Perm shown

end HomeBank
