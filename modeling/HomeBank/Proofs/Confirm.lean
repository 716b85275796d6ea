import HomeBank.Lib.FirstMatch
import HomeBank.Proofs.Atomicity
import HomeBank.Spec.Payment

/-! What is left behind by a confirmation that throws. `finishJob` is all or nothing, but
once it has marked a job nothing takes the mark back when the payment fails. -/

namespace HomeBank

open Dart Firestore Transaction FirstMatch

/-- The fates let the call return. -/
def JobOp.returns (op : JobOp) (doc : Option JobDoc) (fates : List Fate) : Bool :=
  Returns (fun _ : Unit => op.body) doc (fates.map fun fate => (fate, ()))

/-- A call throws and changes nothing, or it returns: then its handler has returned, and
what it has buffered has been written to the job document, and nothing else. -/
theorem JobOp.call_cases (op : JobOp) (email : String) (fates : List Fate) (db : Db) :
    (op.returns (db.job email) fates = false ∧ ∃ e, op.call email fates db = (.error e, db)) ∨
    (op.returns (db.job email) fates = true ∧ ∃ db' u, op.call email fates db = (.ok (), db') ∧
      op.body (db.job email) = .ok u ∧ db'.users = db.users ∧ db'.point = db.point ∧
      ((u = none ∧ db'.job email = db.job email) ∨
        ∃ v d, u = some v ∧ db.job email = some d ∧ db'.job email = some (v.apply d))) := by
  have hiff := returns_iff errors Update.apply (fun _ : Unit => op.body) (db.job email)
    (fates.map fun fate => (fate, ()))
  rw [JobOp.call, runTransaction_pureBody, JobOp.returns,
    show (jobRef email).get db = db.job email from rfl]
  cases hres : result errors Update.apply (fun _ : Unit => op.body) (db.job email)
    (fates.map fun fate => (fate, ())) with
  | error e =>
    refine .inl ⟨?_, e, rfl⟩
    rw [← Bool.not_eq_true, hiff, hres]
    simp
  | ok d =>
    obtain ⟨⟨⟩, -, hatt⟩ := result_ok errors Update.apply _ hres
    rw [attempt] at hatt
    cases hu : op.body (db.job email) with
    | error e => simp [hu, Except.bind] at hatt
    | ok u =>
      rw [hu] at hatt
      refine .inr ⟨hiff.2 ⟨d, hres⟩, _, u, rfl, rfl, ?_⟩
      cases u with
      | none =>
        obtain rfl : none = d := by simpa [Except.bind, commit] using hatt
        exact ⟨rfl, rfl, .inl ⟨rfl, rfl⟩⟩
      | some v =>
        cases hdoc : db.job email with
        | none => simp [hdoc, Except.bind, commit] at hatt
        | some doc =>
          obtain rfl : some (v.apply doc) = d := by simpa [hdoc, Except.bind, commit] using hatt
          exact ⟨rfl, rfl, .inr ⟨v, doc, rfl, rfl, Function.update_self ..⟩⟩

/-- Marking a job changes the document. -/
theorem finishJobBody_ne {type note date : String} {point : Int64} {d : JobDoc} {u : Update JobMap}
    (h : finishJobBody type note date point (some d) = .ok (some u)) : u.apply d ≠ d := by
  obtain ⟨dateTime, data, -, hlist, hu⟩ := changeJobBody_eq_ok h
  obtain ⟨index, hfind, rfl⟩ := Option.map_eq_some_iff.1 hu.symm
  obtain ⟨l₁, row, l₂, hmatch, rfl, hchange⟩ := exists_of_findIdx? hfind
  intro hsame
  have hrows := congrArg (rowsAt · (getYearMonth dateTime)) hsame
  simp only [Update.apply, rowsAt_insert, Value.rows, listField_eq_ok hlist,
    modify_findIdx? hfind, hchange] at hrows
  have hrow : { row with finish := some true } = row := by simpa using hrows
  rw [(matchesDetail_iff rfl).1 hmatch] at hrow
  have hfinish := congrArg JobMap.finish hrow
  simp [JobModel.toJson] at hfinish

/-- The handlers buffer an update exactly when a stored unfinished job matches the tile. -/
theorem isSome_of_changeJobBody {change : List JobMap → ℕ → List JobMap} {tile : JobModel}
    {doc : Option JobDoc} {u : Option (Update JobMap)}
    (h : changeJobBody change tile.type tile.note tile.date tile.point doc = .ok u) :
    u.isSome = matchesTile tile doc := by
  obtain ⟨dateTime, data, hdate, hlist, rfl⟩ := changeJobBody_eq_ok h
  rw [Option.isSome_map, List.findIdx?_isSome, matchesTile, hdate]
  simp only [hlist]

/-- The fates let `finishJob` return. -/
def finishReturns (tile : JobModel) : Option JobDoc → List Fate → Bool :=
  (JobOp.finishJob tile.type tile.note tile.date tile.point).returns

/-- `finishJob` throws and changes nothing, or it returns: then the job document has changed
if a stored unfinished job matches the tile, and nothing else has. -/
theorem finishJob_cases (email : String) (tile : JobModel) (fates : List Fate) (db : Db) :
    (finishReturns tile (db.job email) fates = false ∧
      ∃ e, finishJob email tile.type tile.note tile.date tile.point fates db = (.error e, db)) ∨
    (finishReturns tile (db.job email) fates = true ∧ ∃ db',
      finishJob email tile.type tile.note tile.date tile.point fates db = (.ok (), db') ∧
      db'.users = db.users ∧ db'.point = db.point ∧
      (db'.job email = db.job email ↔ matchesTile tile (db.job email) = false)) := by
  rcases JobOp.call_cases (.finishJob tile.type tile.note tile.date tile.point) email fates db with
    hthrows | ⟨hreturns, db', u, hcall, hbody, husers, hpoint, hjob⟩
  · exact .inl hthrows
  · refine .inr ⟨hreturns, db', hcall, husers, hpoint, ?_⟩
    rw [← isSome_of_changeJobBody hbody]
    rcases hjob with ⟨rfl, hsame⟩ | ⟨v, d, rfl, hd, hnew⟩
    · simp [hsame]
    · rw [hd] at hbody
      simp [hnew, hd, finishJobBody_ne hbody]

/-- The confirmation leaves the three documents as they were whenever it throws, exactly
when `finishJob` itself throws, or the payment runs through, or no stored job matches the
tile and the payment fails before its first record. -/
theorem confirm_all_or_nothing_iff (email : String) (tile : JobModel) (finishFates : List Fate)
    (payFates : List (Fate × RecordScript)) (db : Db) :
    (∀ e db', confirm email tile finishFates payFates db = (.error e, db') →
      db'.job email = db.job email ∧ db'.users email = db.users email ∧
        db'.point email = db.point email) ↔
    finishReturns tile (db.job email) finishFates = false ∨
      runsThrough (db.users email) (db.point email) payFates = true ∨
      (matchesTile tile (db.job email) = false ∧
        firstRecordStored (db.users email) (db.point email) payFates = false) := by
  rcases finishJob_cases email tile finishFates db with
    ⟨hthrows, e, he⟩ | ⟨hreturns, db₁, he, husers, hpoint, hjob⟩
  · refine iff_of_true (fun e' db' h => ?_) (.inl hthrows)
    rw [confirm, he] at h
    cases h
    exact ⟨rfl, rfl, rfl⟩
  · have hcall : confirm email tile finishFates payFates db =
        changePoint email ⟨tile.type, tile.note, tile.point⟩ payFates db₁ := by
      rw [confirm, he]
    have hret := changePoint_returns ⟨tile.type, tile.note, tile.point⟩ email payFates db₁
    have hkept := changePoint_job ⟨tile.type, tile.note, tile.point⟩ email payFates db₁
    rw [husers, hpoint] at hret
    rw [hcall, ← hret, hreturns, ← hjob]
    cases hres : changePoint email ⟨tile.type, tile.note, tile.point⟩ payFates db₁ with
    | mk res db' =>
      rw [hres] at hkept
      cases res with
      | ok _ => simp
      | error e =>
        have hiff := changePoint_unchanged_iff _ hres
        rw [husers, hpoint] at hiff
        simp [← hiff, show db'.job = db₁.job from hkept]

def unpaidTile : JobModel := ⟨"家事類", "dishes", "2024-03-05 12:00:00", 7, false⟩

/-- One unfinished job, and an account on which nothing has been paid yet. -/
def unpaid : Db where
  users _ := some sampleUsers
  point _ := some samplePoint
  job _ := some ((parentOnly "parent@example.com").insert "2024-03" (.list [unpaidTile.toJson]))

/-- The tiles that the page shows. -/
def tiles (doc : Option JobDoc) : Option (List JobModel) :=
  (getJobRecord doc).toOption.map Records.all

/-- The job is marked, then the users document cannot be read. -/
def failedPayment : Except Exception Unit × Db :=
  confirm "child@example.com" unpaidTile [.accepted] [(.readFails, [])] unpaid

/-- Nothing is paid, and the only tile that is left opens no confirmation any more. -/
theorem confirm_leaves_job_finished :
    tiles (unpaid.job "child@example.com") = some [unpaidTile] ∧
    opensConfirmation unpaidTile = true ∧
    failedPayment.1 = .error .unavailable ∧
    failedPayment.2.job "child@example.com" ≠ unpaid.job "child@example.com" ∧
    intField (failedPayment.2.users "child@example.com") "point" = .ok 0 ∧
    tiles (failedPayment.2.job "child@example.com") = some [{ unpaidTile with finish := true }] ∧
    opensConfirmation { unpaidTile with finish := true } = false := by
  have hshown : tiles (unpaid.job "child@example.com") = some [unpaidTile] := by decide +kernel
  have hmarked : tiles (failedPayment.2.job "child@example.com") =
      some [{ unpaidTile with finish := true }] := by
    decide +kernel
  have hbalance : intField (failedPayment.2.users "child@example.com") "point" = .ok 0 := by
    decide +kernel
  refine ⟨hshown, rfl, by decide +kernel, fun hsame => ?_, hbalance, hmarked, rfl⟩
  rw [hsame, hshown] at hmarked
  exact absurd hmarked (by decide)

end HomeBank
