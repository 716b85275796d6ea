import HomeBank.Proofs.Confirm
import HomeBank.Spec.WorkAdd

/-! The add handler commits one transaction for each date. When one of them fails, the jobs of
the dates before it stay in the document. -/

namespace HomeBank.WorkAddPage

open Dart Firestore Transaction

/-- The row of one job. -/
def rowOf (type note : String) (date : DateTime) (point : Int64) : JobMap :=
  (JobModel.mk type note (getDateTimeString date) point false).toJson

/-- The fates let the call for the date return. -/
def callReturns (type note : String) (point : Int64) (doc : Option JobDoc) :
    Option DateTime × List Fate → Bool
  | (none, _) => true
  | (some date, fates) => (JobOp.createJob type note date point).returns doc fates

/-- There is a date that is not null, and the call for the first such date returns. -/
def firstReturns (type note : String) (point : Int64) (doc : Option JobDoc) :
    List (Option DateTime × List Fate) → Bool
  | [] => false
  | (none, _) :: dates => firstReturns type note point doc dates
  | (some date, fates) :: _ => callReturns type note point doc (some date, fates)

section Calls

variable {email type note : String} {date : DateTime} {point : Int64} {fates : List Fate} {db : Db}

theorem storable_createJobBody (doc : Option JobDoc) :
    Storable (fun _ : Unit => (JobOp.createJob type note date point).body) doc () =
      (doc.isSome && monthReadable doc (getYearMonth date)) := by
  rw [Storable, JobOp.body, createJobBody_eq, monthReadable]
  cases listField doc (getYearMonth date) <;> simp [Except.map]

/-- One call throws and changes nothing, or it returns and has appended its row to the list
of its month. -/
theorem createJob_cases (email : String) (fates : List Fate) (db : Db) :
    (callReturns type note point (db.job email) (some date, fates) = false ∧
      ∃ e, createJob email type note date point fates db = (.error e, db)) ∨
    (callReturns type note point (db.job email) (some date, fates) = true ∧ ∃ doc db',
      db.job email = some doc ∧ monthReadable (some doc) (getYearMonth date) = true ∧
      createJob email type note date point fates db = (.ok (), db') ∧
      db'.job email = some (doc.insert (getYearMonth date)
        (.list (rowsAt doc (getYearMonth date) ++ [rowOf type note date point])))) := by
  rcases JobOp.call_cases (.createJob type note date point) email fates db with
    hthrows | ⟨hreturns, db', u, hcall, hbody, -, -, hjob⟩
  · exact .inl hthrows
  · refine .inr ⟨hreturns, ?_⟩
    rw [JobOp.body, createJobBody_eq] at hbody
    cases hl : listField (db.job email) (getYearMonth date) with
    | error e => simp [hl, Except.map] at hbody
    | ok data =>
      rw [hl] at hbody
      cases hbody
      rcases hjob with ⟨hnone, -⟩ | ⟨v, doc, hv, hdoc, hafter⟩
      · cases hnone
      · cases hv
        rw [hdoc] at hl
        refine ⟨doc, db', hdoc, by rw [monthReadable, hl], hcall, ?_⟩
        rw [hafter, listField_eq_ok hl]
        rfl

/-- What an earlier call has appended makes no difference to a later one. -/
theorem callReturns_insert {doc : JobDoc} {month : String} (data : List JobMap)
    (h : monthReadable (some doc) month = true) :
    callReturns type note point (some (doc.insert month (.list data))) =
      callReturns type note point (some doc) := by
  funext ⟨date?, fates⟩
  obtain _ | date := date?
  · rfl
  · refine returns_congr _ (fun _ => ?_) _
    rw [storable_createJobBody, storable_createJobBody, monthReadable_insert data h]
    rfl

end Calls

section Loop

variable {email type note : String} {point : Int64}

theorem addedRows_cons (date : DateTime) (dates : List DateTime) (key : String) :
    addedRows type note point (date :: dates) key =
      if getYearMonth date = key then
        rowOf type note date point :: addedRows type note point dates key
      else addedRows type note point dates key := by
  unfold addedRows
  split
  · next hkey =>
    rw [List.filter_cons_of_pos (by simpa using hkey)]
    rfl
  · next hkey =>
    rw [List.filter_cons_of_neg (by simpa using hkey)]

theorem Gained.refl (doc : Option JobDoc) : Gained type note point [] doc doc :=
  ⟨rfl, fun _ _ => rfl, fun _ h => absurd rfl h⟩

/-- The row of the first date comes before those of the others. -/
theorem Gained.cons {date : DateTime} {dates : List DateTime} {doc : JobDoc} {after : Option JobDoc}
    (h : Gained type note point dates (some (doc.insert (getYearMonth date)
      (.list (rowsAt doc (getYearMonth date) ++ [rowOf type note date point])))) after) :
    Gained type note point (date :: dates) (some doc) after := by
  refine ⟨h.exists_iff, fun key hnil => ?_, fun key hne => ?_⟩
  · rw [addedRows_cons] at hnil
    split at hnil
    · cases hnil
    · next hkey =>
      rw [h.others key hnil, Option.bind_some, AList.lookup_insert_ne (Ne.symm hkey),
        Option.bind_some]
  · rw [addedRows_cons] at hne ⊢
    by_cases hkey : getYearMonth date = key
    · subst hkey
      rw [if_pos rfl]
      by_cases hlast : addedRows type note point dates (getYearMonth date) = []
      · rw [h.others _ hlast, hlast, Option.bind_some, AList.lookup_insert]
        rfl
      · rw [h.months _ hlast, Option.elim_some, rowsAt_insert]
        simp [Value.rows]
    · rw [if_neg hkey] at hne ⊢
      rw [h.months key hne, Option.elim_some, Option.elim_some, rowsAt, rowsAt,
        AList.lookup_insert_ne (Ne.symm hkey)]
      rfl

/-- The number of jobs in the document of an email. -/
def jobCount (email : String) (db : Db) : ℕ := (db.job email).elim 0 fun doc => (rows doc).card

theorem jobCount_append {date : DateTime} {doc : JobDoc} {db db' : Db} (hdoc : db.job email = some doc)
    (hafter : db'.job email = some (doc.insert (getYearMonth date)
      (.list (rowsAt doc (getYearMonth date) ++ [rowOf type note date point])))) :
    jobCount email db' = jobCount email db + 1 := by
  simp [jobCount, hdoc, hafter, rows_append]

/-- The loop takes no job out of the document. -/
theorem jobCount_le {dates : List (Option DateTime × List Fate)} {db db' : Db}
    {res : Except Exception Unit} (h : createJobs email type note point dates db = (res, db')) :
    jobCount email db ≤ jobCount email db' := by
  induction dates generalizing db with
  | nil =>
    cases h
    exact le_rfl
  | cons call dates ih =>
    obtain ⟨_ | date, fates⟩ := call
    · exact ih h
    · rw [createJobs] at h
      rcases createJob_cases email fates db with
        ⟨-, e, he⟩ | ⟨-, doc, db₁, hdoc, -, hcall, hafter⟩
      · rw [he] at h
        cases h
        exact le_rfl
      · rw [hcall] at h
        have hcount := jobCount_append hdoc hafter
        have hle := ih h
        omega

/-- The loop returns when all its calls do, and has then added its jobs. -/
theorem createJobs_ok {dates : List (Option DateTime × List Fate)} {db : Db}
    (h : dates.all (callReturns type note point (db.job email)) = true) :
    ∃ db', createJobs email type note point dates db = (.ok (), db') ∧
      Gained type note point (dates.map Prod.fst).reduceOption (db.job email) (db'.job email) := by
  induction dates generalizing db with
  | nil => exact ⟨db, rfl, .refl _⟩
  | cons call dates ih =>
    rw [List.all_cons, Bool.and_eq_true] at h
    obtain ⟨hcall, hrest⟩ := h
    obtain ⟨_ | date, fates⟩ := call
    · exact ih hrest
    · rcases createJob_cases email fates db with
        ⟨hthrows, -⟩ | ⟨-, doc, db', hdoc, hmonth, hok, hafter⟩
      · rw [hcall] at hthrows
        cases hthrows
      · rw [hdoc] at hrest
        have hrest' : dates.all (callReturns type note point (db'.job email)) = true := by
          rwa [hafter, callReturns_insert _ hmonth]
        obtain ⟨db₂, hloop, hgained⟩ := ih hrest'
        refine ⟨db₂, ?_, ?_⟩
        · rw [createJobs, hok]
          exact hloop
        · rw [hdoc]
          rw [hafter] at hgained
          exact hgained.cons

/-- The loop throws when one of its calls does. The document is as before only if that was
the first one. -/
theorem createJobs_error {dates : List (Option DateTime × List Fate)} {db : Db}
    (h : dates.all (callReturns type note point (db.job email)) = false) :
    ∃ e db', createJobs email type note point dates db = (.error e, db') ∧
      (db'.job email = db.job email ↔ firstReturns type note point (db.job email) dates = false) := by
  induction dates generalizing db with
  | nil => cases h
  | cons call dates ih =>
    obtain ⟨_ | date, fates⟩ := call
    · exact ih h
    · rw [List.all_cons, Bool.and_eq_false_iff] at h
      rcases createJob_cases email fates db with
        ⟨hthrows, e, he⟩ | ⟨hreturns, doc, db', hdoc, hmonth, hok, hafter⟩
      · refine ⟨e, db, by rw [createJobs, he], ?_⟩
        exact iff_of_true rfl hthrows
      · have hrest := h.resolve_left (by rw [hreturns]; decide)
        rw [hdoc] at hrest
        have hrest' : dates.all (callReturns type note point (db'.job email)) = false := by
          rwa [hafter, callReturns_insert _ hmonth]
        obtain ⟨e, db₂, hloop, -⟩ := ih hrest'
        have hcount := jobCount_append hdoc hafter
        have hle := jobCount_le hloop
        refine ⟨e, db₂, by rw [createJobs, hok]; exact hloop, iff_of_false (fun hsame => ?_) ?_⟩
        · have hsize : jobCount email db₂ = jobCount email db := by rw [jobCount, hsame, jobCount]
          omega
        · rw [firstReturns, hreturns]
          decide

variable {dates : List (Option DateTime × List Fate)} {pointText : String} {db db' : Db}

/-- What the handler makes of the end of the loop. -/
theorem onTap_success (hparse : tryParse pointText = some point) (hpos : 0 < point)
    (hloop : createJobs email type note point dates db = (.ok (), db')) :
    onTap (some email) (some type) note pointText dates db = (.success, db') := by
  unfold onTap
  rw [hparse, Option.getD_some]
  refine (if_neg (Int64.not_le.2 hpos)).trans ?_
  rw [hloop]

theorem onTap_failure (hparse : tryParse pointText = some point) (hpos : 0 < point) {e : Exception}
    (hloop : createJobs email type note point dates db = (.error e, db')) :
    onTap (some email) (some type) note pointText dates db = (.failure e, db') := by
  unfold onTap
  rw [hparse, Option.getD_some]
  refine (if_neg (Int64.not_le.2 hpos)).trans ?_
  rw [hloop]

end Loop

/-- Adding work is all or nothing, for dates that need any number of calls, exactly when all
calls return or the first one does not. -/
theorem all_or_nothing_iff (email type note pointText : String) (point : Int64)
    (hparse : tryParse pointText = some point) (hpos : 0 < point)
    (selectedDate : List (Option DateTime × List Fate)) (db : Db) :
    AllOrNothing email type note point (selectedDate.map Prod.fst) db
        (onTap (some email) (some type) note pointText selectedDate db) ↔
      selectedDate.all (callReturns type note point (db.job email)) = true ∨
        firstReturns type note point (db.job email) selectedDate = false := by
  cases hall : selectedDate.all (callReturns type note point (db.job email)) with
  | true =>
    obtain ⟨db', hloop, hgained⟩ := createJobs_ok hall
    rw [onTap_success hparse hpos hloop]
    exact iff_of_true ⟨fun _ => hgained, fun e h => by cases h⟩ (.inl rfl)
  | false =>
    obtain ⟨e, db', hloop, hsame⟩ := createJobs_error hall
    rw [onTap_failure hparse hpos hloop]
    simp [AllOrNothing, ← hsame]

def nextDay : DateTime := timeOf "2024-03-06 12:00:00" (by decide +kernel)

/-- Two days are selected, and the document cannot be read for the second of them. -/
def twoDays : List (Option DateTime × List Fate) :=
  [(some sampleTime, [.accepted]), (some nextDay, [.readFails])]

def emptyJobs : Db := ⟨fun _ => none, fun _ => none, fun _ => some (parentOnly "parent@example.com")⟩

/-- The button is pressed. -/
def press (selectedDate : List (Option DateTime × List Fate)) (db : Db) : Report × Db :=
  onTap (some "child@example.com") (some "家事類") "dishes" "7" selectedDate db

theorem all_or_nothing_iff_twoDays : ¬ AllOrNothing "child@example.com" "家事類" "dishes" 7
    (twoDays.map Prod.fst) emptyJobs (press twoDays emptyJobs) := by
  have hiff := all_or_nothing_iff "child@example.com" "家事類" "dishes" "7" 7 (by decide +kernel)
    (by decide) twoDays emptyJobs
  rw [press, hiff]
  decide +kernel

/-- How a run with a given report is taken apart. -/
theorem exists_of_fst {α β : Type} {x : α × β} {a : α} {p : β → Prop} (h : x.1 = a) (hp : p x.2) :
    ∃ b, x = (a, b) ∧ p b :=
  ⟨x.2, Prod.ext h rfl, hp⟩

/-- The first press reports a failure and leaves the job of the first day behind; the second
one creates that job again. -/
theorem failure_leaves_first_job :
    (press twoDays emptyJobs).1 = .failure .unavailable ∧
    (press twoDays emptyJobs).2.job "child@example.com" ≠ emptyJobs.job "child@example.com" ∧
    ∃ db, press (twoDays.map fun day => (day.1, [.accepted])) (press twoDays emptyJobs).2 =
        (.success, db) ∧
      tiles (db.job "child@example.com") =
        some [⟨"家事類", "dishes", "2024-03-05 12:00:00", 7, false⟩,
          ⟨"家事類", "dishes", "2024-03-05 12:00:00", 7, false⟩,
          ⟨"家事類", "dishes", "2024-03-06 12:00:00", 7, false⟩] := by
  have hagain : (press (twoDays.map fun day => (day.1, [.accepted])) (press twoDays emptyJobs).2).1 =
      .success := by decide +kernel
  refine ⟨by decide +kernel, fun hsame => ?_, exists_of_fst hagain (by decide +kernel)⟩
  have hcount := congrArg tiles hsame
  revert hcount
  decide +kernel

end HomeBank.WorkAddPage
