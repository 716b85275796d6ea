import HomeBank.Proofs.Atomicity
import HomeBank.Proofs.MonthPages

/-! The first write of an account, on documents of any contents. The handlers of `createJob` and
`changePoint` take a missing document for an empty one, but what they buffer is an update, which
the server rejects when there is no document. And they do not look at the rows that are there,
which the readers then may not be able to read. -/

namespace HomeBank

open Dart Firestore Select Transaction

/-- The month can be extended, and the reader can read all that is there. -/
structure Writable {ρ α : Type} (fromMap : ρ → Except Exception α) (d : Document ρ)
    (month : String) : Prop where
  extensible : monthReadable (some d) month = true
  rows : ∀ row ∈ rowsAt d month, ∃ model, fromMap row = .ok model
  others : ∀ key ∈ d, key ≠ "parent" → key ≠ month → Readable fromMap d key

/-- The reader finds the old records of every month, and behind those of one month a new one. -/
def ReadsOneMore {ρ α : Type} (fromMap : ρ → Except Exception α)
    (before after : Option (Document ρ)) (month : String) (record : α) : Prop :=
  ∃ list, readRecords fromMap after = .ok list ∧ ∀ key, key ≠ "parent" →
    ∃ old, (before.elim [] (rowsAt · key)).mapM fromMap = .ok old ∧
      (list.lookup key).getD [] = old ++ if key = month then [record] else []

/-- The collections with any contents, whoever has written them. -/
abbrev AnyDb := Collections Element Element

/-- A call of `createJob` returns, and the reader then finds the job once more. -/
def CreateJobWorks (email type note : String) (date : DateTime) (point : Int64) (db : AnyDb) : Prop :=
  ∃ db', createJob email type note date point [.accepted] db = (.ok (), db') ∧
    ReadsOneMore JobModel.fromMap (db.job email) (db'.job email) (getYearMonth date)
      ⟨type, note, getDateTimeString date, point, false⟩

/-- A call of `changePoint` returns, the balance has grown by the points, and the reader then
finds one more record of the payment. -/
def ChangePointWorks (email : String) (args : PointArgs) (today : DateTime) (db : AnyDb) : Prop :=
  ∃ db' balance, changePoint email args (acceptedAt today) db = (.ok (), db') ∧
    intField (db.users email) "point" = .ok balance ∧
    intField (db'.users email) "point" = .ok (balance + args.point) ∧
    ReadsOneMore PointModel.fromMap (db.point email) (db'.point email) (getYearMonth today)
      (recordModel args (balance + args.point) today)

/-- The document with one more row in the list of a month. -/
def appendRow {ρ : Type} (d : Document ρ) (month : String) (row : ρ) : Document ρ :=
  d.insert month (.list (rowsAt d month ++ [row]))

section Reading

variable {ρ α : Type} {fromMap : ρ → Except Exception α} {d : Document ρ} {month : String} {row : ρ}
  {record : α}

theorem collected_append (rows : List ρ) (hrow : fromMap row = .ok record) :
    collected fromMap (rows ++ [row]) = collected fromMap rows ++ [record] := by
  rw [collected, List.filterMap_append]
  simp [collected, hrow, Except.toOption]

theorem mem_appendRow_of_ne {key : String} (hne : key ≠ month) :
    key ∈ appendRow d month row ↔ key ∈ d := by
  simp [appendRow, hne]

theorem rowsAt_appendRow_ne {key : String} (hne : key ≠ month) :
    rowsAt (appendRow d month row) key = rowsAt d key := by
  rw [rowsAt, appendRow, AList.lookup_insert_ne hne]
  rfl

theorem readsOneMore_of_writable (hrow : fromMap row = .ok record) (hmonth : month ≠ "parent")
    (h : Writable fromMap d month) :
    ReadsOneMore fromMap (some d) (some (appendRow d month row)) month record := by
  have hrows : ∀ r ∈ rowsAt d month ++ [row], ∃ model, fromMap r = .ok model := by
    intro r hr
    rcases List.mem_append.1 hr with hr | hr
    · exact h.rows r hr
    · exact ⟨record, List.mem_singleton.1 hr ▸ hrow⟩
  obtain ⟨list, hread, hlookup⟩ := readRecords_eq_ok (readable_insert month hrows h.others)
  rw [← appendRow] at hread hlookup
  refine ⟨list, hread, fun key hparent => ?_⟩
  rw [hlookup, Option.elim_some]
  by_cases hne : key = month
  · subst hne
    refine ⟨_, mapM_eq_collected h.rows, ?_⟩
    simp [appendRow, hmonth, Value.rows, collected_append _ hrow]
  · simp only [rowsAt_appendRow_ne hne, mem_appendRow_of_ne hne]
    by_cases hmem : key ∈ d
    · obtain ⟨rows, hlist, hreadable⟩ := h.others key hmem hparent hne
      have hrowsAt : rowsAt d key = rows := by simp [rowsAt, hlist, Value.rows]
      exact ⟨_, mapM_eq_collected (hrowsAt ▸ hreadable), by simp [hmem, hparent, hne]⟩
    · have hnil : rowsAt d key = [] := by simp [rowsAt, AList.lookup_eq_none.2 hmem]
      exact ⟨[], by rw [hnil]; rfl, by simp [hmem, hne]⟩

/-- The reader accepts the document with one more row when it can read all the others. -/
theorem readsOneMore_iff (hrow : fromMap row = .ok record) (hmonth : month ≠ "parent")
    (hextensible : monthReadable (some d) month = true) :
    ReadsOneMore fromMap (some d) (some (appendRow d month row)) month record ↔
      Writable fromMap d month := by
  refine ⟨?_, readsOneMore_of_writable hrow hmonth⟩
  rintro ⟨list, hread, -⟩
  have hall := readable_of_readRecords hread
  refine ⟨hextensible, fun r hr => ?_, fun key hkey hparent hne => ?_⟩
  · obtain ⟨rows, hrows, hmodels⟩ := hall month ((AList.mem_insert _).2 (.inl rfl)) hmonth
    rw [appendRow, AList.lookup_insert] at hrows
    cases hrows
    exact hmodels r (List.mem_append_left _ hr)
  · have hkept := hall key ((AList.mem_insert _).2 (.inr hkey)) hparent
    rwa [Readable, appendRow, AList.lookup_insert_ne hne] at hkept

end Reading

section Calls

/-- The accepted attempt of a handler that appends a row to the list of a month. -/
theorem runTransaction_append {W τ ρ : Type} (ref : DocRef W (Document ρ))
    {body : τ → Option (Document ρ) → Except Exception (Option (Update ρ))}
    {month : τ → String} {row : τ → ρ} (hbody : ∀ t doc, body t doc =
      (listField doc (month t)).map fun data => some ⟨month t, .list (data ++ [row t])⟩)
    (t : τ) (w : W) :
    (∃ d, ref.get w = some d ∧ monthReadable (some d) (month t) = true ∧
      runTransaction errors ref Update.apply (pureBody body) [(.accepted, t)] w =
        (.ok (), ref.put (appendRow d (month t) (row t)) w)) ∨
    (¬ ∃ d, ref.get w = some d ∧ monthReadable (some d) (month t) = true) ∧
      ∃ e, runTransaction errors ref Update.apply (pureBody body) [(.accepted, t)] w =
        (.error e, w) := by
  rw [runTransaction_pureBody]
  simp only [result, reduceCtorEq, if_false, attempt, hbody]
  cases hl : listField (ref.get w) (month t) with
  | error e =>
    refine .inr ⟨?_, e, rfl⟩
    rintro ⟨d, hd, hmonth⟩
    rw [hd] at hl
    simp [monthReadable, hl] at hmonth
  | ok data =>
    cases hd : ref.get w with
    | none => exact .inr ⟨by simp, .invalidArgument, rfl⟩
    | some d =>
      rw [hd] at hl
      refine .inl ⟨d, rfl, by rw [monthReadable, hl], ?_⟩
      rw [appendRow, listField_eq_ok hl]
      rfl

/-- The row of a job that has been created. -/
def jobRow (type note : String) (date : DateTime) (point : Int64) : Element :=
  (JobModel.mk type note (getDateTimeString date) point false).toJson.toElement

/-- The transaction of `createJob` commits, or the call throws. -/
theorem createJob_accepted (email type note : String) (date : DateTime) (point : Int64)
    (db : AnyDb) :
    (∃ d db', db.job email = some d ∧ monthReadable (some d) (getYearMonth date) = true ∧
      createJob email type note date point [.accepted] db = (.ok (), db') ∧
      db'.job email = some (appendRow d (getYearMonth date) (jobRow type note date point))) ∨
    (¬ ∃ d, db.job email = some d ∧ monthReadable (some d) (getYearMonth date) = true) ∧
      ∃ e, createJob email type note date point [.accepted] db = (.error e, db) := by
  rcases runTransaction_append (jobRef email) (fun _ => createJobBody_eq type note date point) () db
    with ⟨d, hd, hmonth, hcall⟩ | hthrows
  · exact .inl ⟨d, _, hd, hmonth, hcall, (jobRef email).get_put _ db⟩
  · exact .inr hthrows

theorem addRecord_accepted (email : String) (args : PointArgs) (total : Int64) (today : DateTime)
    (db : AnyDb) :
    (∃ d, db.point email = some d ∧ monthReadable (some d) (getYearMonth today) = true ∧
      addRecord email args total [(.accepted, today)] db = (.ok (), (pointRef email).put
        (appendRow d (getYearMonth today) (Codec.toJson (recordModel args total today))) db)) ∨
    (¬ ∃ d, db.point email = some d ∧ monthReadable (some d) (getYearMonth today) = true) ∧
      ∃ e, addRecord email args total [(.accepted, today)] db = (.error e, db) :=
  runTransaction_append (pointRef email) (addRecordBody_eq args total) today db

/-- Both transactions of `changePoint` commit, or the call throws. -/
theorem changePoint_accepted (email : String) (args : PointArgs) (today : DateTime) (db : AnyDb) :
    (∃ users balance d db', db.users email = some users ∧
      intField (some users) "point" = .ok balance ∧ db.point email = some d ∧
      monthReadable (some d) (getYearMonth today) = true ∧
      changePoint email args (acceptedAt today) db = (.ok (), db') ∧
      intField (db'.users email) "point" = .ok (balance + args.point) ∧
      db'.point email = some (appendRow d (getYearMonth today)
        (recordModel args (balance + args.point) today).toJson.toElement)) ∨
    (¬ ((∃ users, db.users email = some users ∧ balanceReadable (some users) = true) ∧
        ∃ d, db.point email = some d ∧ monthReadable (some d) (getYearMonth today) = true)) ∧
      ∃ e db', changePoint email args (acceptedAt today) db = (.error e, db') := by
  have hget : (usersRef email).get db = db.users email := rfl
  simp only [changePoint, acceptedAt, runTransaction, reduceCtorEq, if_false, hget, changePointBody,
    newTotal]
  cases hbalance : intField (db.users email) "point" with
  | error e =>
    refine .inr ⟨?_, e, db, rfl⟩
    rintro ⟨⟨users, husers, hreadable⟩, -⟩
    rw [husers] at hbalance
    simp [balanceReadable, hbalance] at hreadable
  | ok balance =>
    simp only [bind, Except.bind, pure, Except.pure]
    rcases addRecord_accepted email args (balance + args.point) today db with
      ⟨d, hd, hmonth, hcall⟩ | ⟨hnone, e, hcall⟩
    · simp only [hcall]
      cases husers : db.users email with
      | none => exact .inr ⟨by simp, .invalidArgument, _, rfl⟩
      | some users =>
        rw [husers] at hbalance
        refine .inl ⟨users, balance, d, _, rfl, hbalance, hd, hmonth, rfl, ?_, ?_⟩
        · simp only [Option.elim_some, usersRef, Function.update_self]
          exact intField_insert users "point" _
        · exact (pointRef email).get_put _ db
    · simp only [hcall]
      exact .inr ⟨fun h => hnone h.2, e, db, rfl⟩

end Calls

theorem createJobWorks_iff (email type note : String) (date : DateTime) (point : Int64)
    (db : AnyDb) : CreateJobWorks email type note date point db ↔
      ∃ d, db.job email = some d ∧ Writable JobModel.fromMap d (getYearMonth date) := by
  rcases createJob_accepted email type note date point db with
    ⟨d, db', hd, hmonth, hcall, hafter⟩ | ⟨hnone, e, hcall⟩
  · have hiff := readsOneMore_iff (Codec.fromMap_toJson (ρ := Element)
      (JobModel.mk type note (getDateTimeString date) point false)) (month_ne_parent date) hmonth
    constructor
    · rintro ⟨db₁, hcall₁, hreads⟩
      rw [hcall] at hcall₁
      cases hcall₁
      rw [hd, hafter] at hreads
      exact ⟨d, hd, hiff.1 hreads⟩
    · rintro ⟨d₁, hd₁, hwritable⟩
      obtain rfl := Option.some.inj (hd.symm.trans hd₁)
      refine ⟨db', hcall, ?_⟩
      rw [hd, hafter]
      exact hiff.2 hwritable
  · refine iff_of_false ?_ ?_
    · rintro ⟨db', hcall₁, -⟩
      rw [hcall] at hcall₁
      cases hcall₁
    · rintro ⟨d, hd, hwritable⟩
      exact hnone ⟨d, hd, hwritable.extensible⟩

theorem changePointWorks_iff (email : String) (args : PointArgs) (today : DateTime) (db : AnyDb) :
    ChangePointWorks email args today db ↔
      (∃ users, db.users email = some users ∧ balanceReadable (some users) = true) ∧
        ∃ d, db.point email = some d ∧ Writable PointModel.fromMap d (getYearMonth today) := by
  rcases changePoint_accepted email args today db with
    ⟨users, balance, d, db', husers, hbalance, hd, hmonth, hcall, hbalance', hafter⟩ |
      ⟨hnone, e, db', hcall⟩
  · have hiff := readsOneMore_iff (Codec.fromMap_toJson (ρ := Element)
      (recordModel args (balance + args.point) today)) (month_ne_parent today) hmonth
    constructor
    · rintro ⟨db₁, balance₁, hcall₁, hbalance₁, -, hreads⟩
      rw [hcall] at hcall₁
      cases hcall₁
      rw [husers, hbalance] at hbalance₁
      cases hbalance₁
      rw [hd, hafter] at hreads
      exact ⟨⟨users, husers, by rw [balanceReadable, hbalance]⟩, d, hd, hiff.1 hreads⟩
    · rintro ⟨-, d₁, hd₁, hwritable⟩
      obtain rfl := Option.some.inj (hd.symm.trans hd₁)
      refine ⟨db', balance, hcall, husers ▸ hbalance, hbalance', ?_⟩
      rw [hd, hafter]
      exact hiff.2 hwritable
  · refine iff_of_false ?_ ?_
    · rintro ⟨db₁, balance, hcall₁, -⟩
      rw [hcall] at hcall₁
      cases hcall₁
    · rintro ⟨husers, d, hd, hwritable⟩
      exact hnone ⟨husers, d, hd, hwritable.extensible⟩

/-- Whatever the documents hold, the first write works exactly on documents that exist already:
the job document for a job, the users and the point document for a payment. The month has a list
or nothing, the other months have lists, and every row that is there can be read. -/
theorem first_write_works_iff (email : String) (db : AnyDb) (type note : String) (date : DateTime)
    (point : Int64) (args : PointArgs) (today : DateTime) :
    (CreateJobWorks email type note date point db ↔
      ∃ d, db.job email = some d ∧ Writable JobModel.fromMap d (getYearMonth date)) ∧
    (ChangePointWorks email args today db ↔
      (∃ users, db.users email = some users ∧ balanceReadable (some users) = true) ∧
        ∃ d, db.point email = some d ∧ Writable PointModel.fromMap d (getYearMonth today)) :=
  ⟨createJobWorks_iff email type note date point db, changePointWorks_iff email args today db⟩

/-- No collection has a document of any account. -/
def noDocuments : AnyDb := ⟨fun _ => none, fun _ => none, fun _ => none⟩

/-- The update of the missing document is rejected. -/
theorem first_write_rejected :
    (createJob "child@example.com" "家事類" "dishes" sampleTime 7 [.accepted] noDocuments).1 =
      .error .invalidArgument ∧
    (changePoint "child@example.com" ⟨"家事類", "dishes", 7⟩ (acceptedAt sampleTime) noDocuments).1 =
      .error .invalidArgument ∧
    ¬ CreateJobWorks "child@example.com" "家事類" "dishes" sampleTime 7 noDocuments ∧
    ¬ ChangePointWorks "child@example.com" ⟨"家事類", "dishes", 7⟩ sampleTime noDocuments := by
  have hjob : (createJob "child@example.com" "家事類" "dishes" sampleTime 7 [.accepted]
      noDocuments).1 = .error .invalidArgument := by decide +kernel
  have hpoint : (changePoint "child@example.com" ⟨"家事類", "dishes", 7⟩ (acceptedAt sampleTime)
      noDocuments).1 = .error .invalidArgument := by decide +kernel
  refine ⟨hjob, hpoint, ?_, ?_⟩
  · rintro ⟨db', hcall, -⟩
    rw [hcall] at hjob
    cases hjob
  · rintro ⟨db', balance, hcall, -⟩
    rw [hcall] at hpoint
    cases hpoint

/-- A document with a number among the jobs of another month. -/
def withNumber : AnyDb where
  users _ := none
  point _ := none
  job _ := some ((parentOnly "parent@example.com").insert "2024-02" (.list [.other "5"]))

-- the job is stored, and the reader stumbles over the number
example : (createJob "child@example.com" "家事類" "dishes" sampleTime 7 [.accepted] withNumber).1 =
      .ok () ∧
    getJobRecord ((createJob "child@example.com" "家事類" "dishes" sampleTime 7 [.accepted]
      withNumber).2.job "child@example.com") = .error .typeError := by
  decide +kernel

end HomeBank
