import HomeBank.Proofs.FirstWrite

/-! The collections as the app fills them, seen among those of any contents. `createJob` and
`changePoint` do there what they do here, and the readers read the same, since a row whose fields
have their types is a map that the decoders can use. -/

namespace HomeBank

open Dart Firestore Transaction

section Readers

variable {ρ σ α : Type} {f : ρ → σ} {fromMap : ρ → Except Exception α}
  {fromMap' : σ → Except Exception α}

theorem asList_map (value : Option (Value ρ)) :
    asList (value.map (Value.map f)) = (asList value).map (List.map f) := by
  cases value with
  | none => rfl
  | some v => cases v <;> rfl

theorem mapM_map_eq (h : ∀ row, fromMap' (f row) = fromMap row) (rows : List ρ) :
    (rows.map f).mapM fromMap' = rows.mapM fromMap := by
  rw [List.mapM_map]
  congr 1
  funext row
  exact h row

theorem readKeys_map (h : ∀ row, fromMap' (f row) = fromMap row) (data : Document ρ)
    (keys : List String) (list : Records α) :
    readKeys fromMap' (data.map f) keys list = readKeys fromMap data keys list := by
  induction keys generalizing list with
  | nil => rfl
  | cons key keys ih =>
    rw [readKeys, readKeys, lookup_map, asList_map]
    split
    · cases asList (data.lookup key) with
      | error e => rfl
      | ok rows =>
        simp only [Except.map, bind, Except.bind, mapM_map_eq h]
        cases rows.mapM fromMap with
        | error e => rfl
        | ok models => exact ih _
    · exact ih list

theorem readRecords_map (h : ∀ row, fromMap' (f row) = fromMap row) (doc : Option (Document ρ)) :
    readRecords fromMap' (doc.map (Document.map f)) = readRecords fromMap doc := by
  cases doc with
  | none => rfl
  | some data =>
    rw [Option.map_some, readRecords, readRecords, keys_map]
    exact readKeys_map h data _ ∅

end Readers

/-- The collections with each row as the map that it stands for. -/
def Db.toAny (db : Db) : AnyDb where
  users := db.users
  point email := (db.point email).map (Document.map PointMap.toElement)
  job email := (db.job email).map (Document.map JobMap.toElement)

theorem toAny_point (db : Db) (email : String) :
    db.toAny.point email = (db.point email).map (Document.map PointMap.toElement) := rfl

theorem toAny_job (db : Db) (email : String) :
    db.toAny.job email = (db.job email).map (Document.map JobMap.toElement) := rfl

theorem getJobRecord_toAny (db : Db) (email : String) :
    getJobRecord (db.toAny.job email) = getJobRecord (db.job email) :=
  readRecords_map (fun _ => rfl) (db.job email)

theorem getPointRecord_toAny (db : Db) (email : String) :
    getPointRecord (db.toAny.point email) = getPointRecord (db.point email) :=
  readRecords_map (fun _ => rfl) (db.point email)

section Calls

theorem toAny_put_job (email : String) (d : JobDoc) (db : Db) :
    Db.toAny ((jobRef email).put d db) = (jobRef email).put (d.map JobMap.toElement) db.toAny := by
  simp only [Db.toAny, jobRef, Collections.mk.injEq, true_and]
  funext other
  by_cases hother : other = email
  · subst hother
    simp
  · simp [hother]

theorem toAny_put_point (email : String) (d : PointDoc) (db : Db) :
    Db.toAny ((pointRef email).put d db) =
      (pointRef email).put (d.map PointMap.toElement) db.toAny := by
  simp only [Db.toAny, pointRef, Collections.mk.injEq, true_and, and_true]
  funext other
  by_cases hother : other = email
  · subst hother
    simp
  · simp [hother]

theorem createJobBody_map (type note : String) (date : DateTime) (point : Int64)
    (doc : Option JobDoc) :
    createJobBody type note date point (doc.map (Document.map JobMap.toElement)) =
      (createJobBody type note date point doc).map (Option.map (Update.map JobMap.toElement)) := by
  rw [createJobBody_eq, createJobBody_eq, listField_map]
  cases listField doc (getYearMonth date) with
  | error e => rfl
  | ok rows =>
    simp only [Except.map, Option.map_some, Update.map, Value.map, List.map_append]
    rfl

theorem addRecordBody_map (args : PointArgs) (total : Int64) (today : DateTime)
    (doc : Option PointDoc) :
    addRecordBody args total today (doc.map (Document.map PointMap.toElement)) =
      (addRecordBody args total today doc).map (Option.map (Update.map PointMap.toElement)) := by
  rw [addRecordBody_eq, addRecordBody_eq, listField_map]
  cases listField doc (getYearMonth today) with
  | error e => rfl
  | ok rows =>
    simp only [Except.map, Option.map_some, Update.map, Value.map, List.map_append]
    rfl

/-- What a call answers, and what it leaves behind, is the same in both. -/
theorem createJob_toAny (email type note : String) (date : DateTime) (point : Int64)
    (fates : List Fate) (db : Db) : createJob email type note date point fates db.toAny =
      (createJob email type note date point fates db).map id Db.toAny :=
  runTransaction_map errors (jobRef email) Update.apply (fun _ => rfl) (toAny_put_job email)
    (apply_map JobMap.toElement)
    (fun _ doc w => congrArg (·, Db.toAny w) (createJobBody_map type note date point doc)) _ db

theorem addRecord_toAny (email : String) (args : PointArgs) (total : Int64) (fates : RecordScript)
    (db : Db) : addRecord email args total fates db.toAny =
      (addRecord email args total fates db).map id Db.toAny :=
  runTransaction_map errors (pointRef email) Update.apply (fun _ => rfl) (toAny_put_point email)
    (apply_map PointMap.toElement)
    (fun today doc w => congrArg (·, Db.toAny w) (addRecordBody_map args total today doc)) fates db

/-- The handler makes the inner call in its world, so the same holds of both together. -/
theorem changePoint_toAny (email : String) (args : PointArgs) (fates : List (Fate × RecordScript))
    (db : Db) : changePoint email args fates db.toAny =
      (changePoint email args fates db).map id Db.toAny := by
  refine runTransaction_map errors (usersRef email) Update.apply (δ := id) (υ := id)
    (fun w => (congrFun Option.map_id (w.users email)).symm) (fun _ _ => rfl) (fun _ _ => rfl) ?_
    fates db
  intro inner doc db
  rw [Option.map_id, id_eq, changePointBody, changePointBody]
  cases newTotal args.point doc with
  | error e => rfl
  | ok total =>
    simp only [addRecord_toAny]
    obtain ⟨e | u, db'⟩ := addRecord email args total inner db <;> rfl

end Calls

/-- A document that files its items can be written in every month. -/
theorem writable_map {ρ σ α β : Type} {value : Option (Value ρ)} {key : β → String}
    {stored : β → ρ} {items : List β} {doc : Document ρ} {f : ρ → σ}
    {fromMap : σ → Except Exception α} (h : Files "parent" value key stored items doc)
    (hmodel : ∀ row, ∃ model, fromMap (f row) = .ok model) {month : String}
    (hne : month ≠ "parent") : Writable fromMap (doc.map f) month := by
  have hfield : ∀ k, k ≠ "parent" → listField (some (doc.map f)) k =
      .ok ((filed key stored items k).map f) := fun k hk => by
    have hlist := listField_map f (some doc) k
    rwa [Option.map_some, h.listField hk] at hlist
  have hrows : ∀ (rows : List ρ), ∀ row ∈ rows.map f, ∃ model, fromMap row = .ok model :=
    fun rows => List.forall_mem_map.2 fun row _ => hmodel row
  refine ⟨by rw [monthReadable, hfield month hne], ?_, fun k hk hparent _ => ?_⟩
  · rw [listField_eq_ok (hfield month hne)]
    exact hrows _
  · rcases h.list_eq k hparent with hlist | ⟨hnone, -⟩
    · exact ⟨_, by rw [lookup_map, hlist]; rfl, hrows _⟩
    · refine absurd hk (AList.lookup_eq_none.1 ?_)
      rw [lookup_map, hnone]
      rfl

/-- Once an account has its documents as the providers write them, jobs and payments work. -/
theorem writes_work (email parent : String) (db : Db) (users : UserDoc) (point : PointDoc)
    (job : JobDoc) (balance : Int64) (value : Option (Value PointMap)) (entries : List Entry)
    (jobs : List Job) (husers : db.users email = some users)
    (hbalance : intField (some users) "point" = .ok balance) (hpoint : db.point email = some point)
    (hholds : Holds value entries point) (hjob : db.job email = some job)
    (hkeeps : Keeps parent jobs job) (type note : String) (date : DateTime) (amount : Int64)
    (args : PointArgs) (today : DateTime) :
    CreateJobWorks email type note date amount db.toAny ∧
      ChangePointWorks email args today db.toAny := by
  refine ⟨(createJobWorks_iff ..).2 ⟨job.map JobMap.toElement, by rw [toAny_job, hjob]; rfl, ?_⟩,
    (changePointWorks_iff ..).2 ⟨⟨users, husers, by rw [balanceReadable, hbalance]⟩,
      point.map PointMap.toElement, by rw [toAny_point, hpoint]; rfl, ?_⟩⟩
  · exact writable_map hkeeps (fun row => ⟨_, JobModel.fromMap_toElement row⟩)
      (month_ne_parent date)
  · exact writable_map hholds (fun row => ⟨_, PointModel.fromMap_toElement row⟩)
      (month_ne_parent today)

end HomeBank
