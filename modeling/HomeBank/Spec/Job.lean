import HomeBank.Lib.Optimistic
import HomeBank.Lib.Transaction
import HomeBank.Spec.Models

/-! `JobProvider`: the handlers of its three transactions, the calls themselves, and
the reader of a job document. -/

namespace HomeBank

open Dart Firestore Transaction

def createJobBody {ρ : Type} [Codec ρ JobModel] (type note : String) (date : DateTime)
    (point : Int64) (snapshot : Option (Document ρ)) : Except Exception (Option (Update ρ)) := do
  let yearMonth := getYearMonth date
  let datetime := getDateTimeString date
  let data ← listField snapshot yearMonth
  let detail : JobModel := ⟨type, note, datetime, point, false⟩
  return some ⟨yearMonth, .list (data ++ [Codec.toJson detail])⟩

/-- The test of the loops in `finishJob` and `deleteJob`. -/
def matchesDetail (detail : JobModel) (job : JobMap) : Bool :=
  job.type == some detail.type && job.note == some detail.note &&
    job.point == some detail.point && job.date == some detail.date && job.finish == some false

/-- The test recognises the row that stands for the unfinished detail, and no other. -/
theorem matchesDetail_iff {detail : JobModel} {row : JobMap} (h : detail.finish = false) :
    matchesDetail detail row = true ↔ row = detail.toJson := by
  obtain ⟨type, note, date, point, finish⟩ := row
  simp only [matchesDetail, JobModel.toJson, h, Bool.and_eq_true, beq_iff_eq, JobMap.mk.injEq]
  exact ⟨fun ⟨⟨⟨⟨ht, hn⟩, hp⟩, hd⟩, hf⟩ => ⟨ht, hn, hd, hp, hf⟩,
    fun ⟨ht, hn, hd, hp, hf⟩ => ⟨⟨⟨⟨ht, hn⟩, hp⟩, hd⟩, hf⟩⟩

/-- What `finishJob` and `deleteJob` have in common: they search the month list of the
parsed date and update it when the search has found an index. -/
def changeJobBody (change : List JobMap → ℕ → List JobMap) (type note date : String) (point : Int64)
    (snapshot : Option JobDoc) : Except Exception (Option (Update JobMap)) := do
  let dateTime ← parseDate date
  let yearMonth := getYearMonth dateTime
  let datetime := getDateTimeString dateTime
  let data ← listField snapshot yearMonth
  let detail : JobModel := ⟨type, note, datetime, point, false⟩
  match data.findIdx? (matchesDetail detail) with
  | none => return none
  | some index => return some ⟨yearMonth, .list (change data index)⟩

def finishJobBody :=
  changeJobBody fun data index => data.modify index fun job => { job with finish := some true }

def deleteJobBody := changeJobBody fun data deleteIndex => data.eraseIdx deleteIndex

theorem createJobBody_eq {ρ : Type} [Codec ρ JobModel] (type note : String) (date : DateTime)
    (point : Int64) (snapshot : Option (Document ρ)) : createJobBody type note date point snapshot =
      (listField snapshot (getYearMonth date)).map fun data => some ⟨getYearMonth date, .list
        (data ++ [Codec.toJson (JobModel.mk type note (getDateTimeString date) point false)])⟩ := by
  rw [createJobBody]
  cases listField snapshot (getYearMonth date) <;> rfl

theorem changeJobBody_eq (change : List JobMap → ℕ → List JobMap) (type note date : String)
    (point : Int64) (snapshot : Option JobDoc) :
    changeJobBody change type note date point snapshot =
      (parseDate date).bind fun dateTime =>
        (listField snapshot (getYearMonth dateTime)).map fun data =>
          (data.findIdx? (matchesDetail
            ⟨type, note, getDateTimeString dateTime, point, false⟩)).map fun index =>
              ⟨getYearMonth dateTime, .list (change data index)⟩ := by
  simp only [changeJobBody, bind]
  congr 1
  funext dateTime
  cases listField snapshot (getYearMonth dateTime) with
  | error e => rfl
  | ok data =>
    simp only [Except.bind, Except.map]
    cases data.findIdx? (matchesDetail ⟨type, note, getDateTimeString dateTime, point, false⟩) <;> rfl

theorem changeJobBody_eq_ok {change : List JobMap → ℕ → List JobMap} {type note date : String}
    {point : Int64} {snapshot : Option JobDoc} {u : Option (Update JobMap)}
    (h : changeJobBody change type note date point snapshot = .ok u) :
    ∃ dateTime data, parseDate date = .ok dateTime ∧
      listField snapshot (getYearMonth dateTime) = .ok data ∧
      u = (data.findIdx? (matchesDetail ⟨type, note, getDateTimeString dateTime, point, false⟩)).map
        fun index => ⟨getYearMonth dateTime, .list (change data index)⟩ := by
  rw [changeJobBody_eq] at h
  cases hd : parseDate date with
  | error e => rw [hd] at h; cases h
  | ok dateTime =>
    rw [hd, Except.bind] at h
    cases hl : listField snapshot (getYearMonth dateTime) with
    | error e => rw [hl] at h; cases h
    | ok data =>
      rw [hl] at h
      exact ⟨dateTime, data, rfl, hl, (Except.ok.inj h).symm⟩

/-- A call of `JobProvider` on the job document of one email. -/
inductive JobOp where
  | createJob (type note : String) (date : DateTime) (point : Int64)
  | finishJob (type note date : String) (point : Int64)
  | deleteJob (type note date : String) (point : Int64)

def JobOp.body : JobOp → Option JobDoc → Except Exception (Option (Update JobMap))
  | .createJob type note date point => createJobBody type note date point
  | .finishJob type note date point => finishJobBody type note date point
  | .deleteJob type note date point => deleteJobBody type note date point

def jobHandlers : Optimistic.Handlers JobOp JobDoc (Update JobMap) Exception :=
  ⟨JobOp.body, Update.apply⟩

/-- The rows of the finished jobs. -/
def finishedRows (doc : JobDoc) : Multiset JobMap :=
  (rows doc).filter fun row => row.finish = some true

def errors : Errors Exception := ⟨.unavailable, .aborted, .invalidArgument⟩

def jobRef {J P : Type} (email : String) : DocRef (Collections J P) (Document J) where
  get db := db.job email
  put d db := { db with job := Function.update db.job email (some d) }
  get_put _ _ := Function.update_self ..

/-- A call with the fates of its attempts. -/
def JobOp.call (op : JobOp) (email : String) (fates : List Fate) (db : Db) :
    Except Exception Unit × Db :=
  runTransaction errors (jobRef email) Update.apply (pureBody fun _ => op.body)
    (fates.map fun fate => (fate, ())) db

def createJob {J P : Type} [Codec J JobModel] (email type note : String) (date : DateTime)
    (point : Int64) (fates : List Fate) (db : Collections J P) :
    Except Exception Unit × Collections J P :=
  runTransaction errors (jobRef email) Update.apply
    (pureBody fun _ => createJobBody type note date point) (fates.map fun fate => (fate, ())) db

theorem createJob_eq_call (email type note : String) (date : DateTime) (point : Int64)
    (fates : List Fate) (db : Db) : createJob email type note date point fates db =
      (JobOp.createJob type note date point).call email fates db := rfl

def finishJob (email type note date : String) (point : Int64) :=
  (JobOp.finishJob type note date point).call email

def deleteJob (email type note date : String) (point : Int64) :=
  (JobOp.deleteJob type note date point).call email

/-- `getJobRecord` on the document that it has read -/
def getJobRecord {ρ : Type} [Codec ρ JobModel] (doc : Option (Document ρ)) :
    Except Exception (Records JobModel) :=
  readRecords Codec.fromMap doc

end HomeBank
