import HomeBank.Proofs.Family
import HomeBank.Proofs.WorkAdd
import HomeBank.Spec.WorkCycle

/-! From the date field to the tiles of the home page, and from the tiles to the balance. -/

namespace HomeBank

open Dart Decimal Firestore Transaction Family Locality Select

section DateField

theorem toList_shortDay (d : DateTime) :
    (shortDay d).toList = padded 2 d.month ++ '-' :: padded 2 d.day := by
  simp [shortDay, padLeft, padded, Nat.toList_repr]

theorem ne_space_of_mem_padded {k n : ℕ} {c : Char} (h : c ∈ padded k n) : c ≠ ' ' := by
  rintro rfl
  have := isDigit_of_mem_padded h
  revert this
  decide

theorem ne_space_of_mem_yearText {year : ℤ} {c : Char} (h : c ∈ DateTime.yearText year) : c ≠ ' ' := by
  rw [DateTime.yearText, List.mem_append] at h
  rcases h with h | h
  · split at h
    · rw [List.mem_singleton.1 h]
      decide
    · cases h
  · exact ne_space_of_mem_padded h

/-- The text of a single day is that of the date-time up to its first blank. -/
theorem getDateString_singleton (d : DateTime) : getDateString [d] =
    String.ofList (DateTime.yearText d.year) ++ "-" ++ shortDay d := by
  have htext : d.toText = (DateTime.yearText d.year ++ '-' :: (shortDay d).toList) ++
      ' ' :: (padded 2 d.hour ++ ':' :: (padded 2 d.minute ++ ':' :: (padded 2 d.second ++
        '.' :: (padded 3 d.millisecond ++ ((if d.microsecond = 0 then [] else padded 3 d.microsecond) ++
          if d.isUtc then ['Z'] else []))))) := by
    simp only [DateTime.toText, DateTime.secondsText, toList_shortDay, List.append_assoc,
      List.cons_append]
  have hblank : ∀ c ∈ DateTime.yearText d.year ++ '-' :: (shortDay d).toList, decide (c ≠ ' ') = true := by
    intro c hc
    rw [toList_shortDay] at hc
    simp only [List.mem_append, List.mem_cons] at hc
    rcases hc with hc | rfl | hc | rfl | hc
    · simpa using ne_space_of_mem_yearText hc
    · decide
    · simpa using ne_space_of_mem_padded hc
    · decide
    · simpa using ne_space_of_mem_padded hc
  rw [getDateString, splitFirst, DateTime.toString, String.toList_ofList, htext,
    List.takeWhile_append_of_pos hblank, List.takeWhile_cons_of_neg (by decide), List.append_nil,
    ← String.toList_inj]
  simp

theorem getDateString_of_length_ne {dates : List DateTime} (h : dates.length ≠ 1) :
    getDateString dates = String.join (dates.map fun date => shortDay date ++ " ") := by
  have hfold : getDateString dates = dates.foldl (fun buf date => buf ++ (shortDay date ++ " ")) "" := by
    match dates, h with
    | [], _ => rfl
    | _ :: _ :: _, _ => rfl
  rw [hfold, String.join, List.foldl_map]

theorem namesDays_getDateString (dates : List DateTime) :
    NamesDays (getDateString dates) dates := by
  match dates with
  | [d] => exact getDateString_singleton d
  | [] => exact getDateString_of_length_ne (by simp)
  | _ :: _ :: _ => exact getDateString_of_length_ne (by simp)

theorem length_shortDay (d : DateTime) : (shortDay d).toList.length = 5 := by
  have hbounds := d.bounds
  rw [toList_shortDay, List.length_append, List.length_cons,
    length_padded_of_lt (by decide) (by omega), length_padded_of_lt (by decide) (by omega)]

theorem shortDay_inj {a b : DateTime} :
    shortDay a = shortDay b ↔ (a.month, a.day) = (b.month, b.day) := by
  have ha := a.bounds
  have hb := b.bounds
  rw [Prod.mk.injEq, ← String.toList_inj, toList_shortDay, toList_shortDay]
  refine ⟨fun h => ?_, fun ⟨hmonth, hday⟩ => by rw [hmonth, hday]⟩
  have hlen : (padded 2 a.month).length = (padded 2 b.month).length := by
    rw [length_padded_of_lt (by decide) (by omega), length_padded_of_lt (by decide) (by omega)]
  obtain ⟨hmonth, hday⟩ := List.append_inj h hlen
  exact ⟨padded_inj.1 hmonth, padded_inj.1 (List.cons.inj hday).2⟩

/-- Days one after another, each with the blank behind it, can be told apart. -/
theorem join_shortDay_inj {dates dates' : List DateTime} :
    String.join (dates.map fun date => shortDay date ++ " ") =
        String.join (dates'.map fun date => shortDay date ++ " ") ↔
      dates.map shortDay = dates'.map shortDay := by
  have hcons : ∀ (d : DateTime) (dates : List DateTime),
      String.join ((d :: dates).map fun date => shortDay date ++ " ") ≠ "" := fun d dates h => by
    have hl := congrArg (fun s => s.toList.length) h
    simp [length_shortDay] at hl
  refine ⟨fun h => ?_, fun h => ?_⟩
  · induction dates generalizing dates' with
    | nil =>
      cases dates' with
      | nil => rfl
      | cons d' dates' => exact absurd h.symm (hcons d' dates')
    | cons d dates ih =>
      cases dates' with
      | nil => exact absurd h (hcons d dates)
      | cons d' dates' =>
        rw [← String.toList_inj] at h
        simp only [List.map_cons, String.join_cons, String.toList_append, List.append_assoc] at h
        obtain ⟨hday, hrest⟩ := List.append_inj h (by rw [length_shortDay, length_shortDay])
        rw [List.map_cons, List.map_cons, String.toList_inj.1 hday,
          ih (String.toList_inj.1 (List.append_cancel_left hrest))]
  · have hmap : ∀ l : List DateTime, (l.map fun date => shortDay date ++ " ") =
        (l.map shortDay).map (· ++ " ") := fun l => by rw [List.map_map]; rfl
    rw [hmap, hmap, h]

theorem yearText_injective : Function.Injective DateTime.yearText := by
  have hminus : ∀ n cs, padded 4 n ≠ '-' :: cs := fun n cs h => by
    have := isDigit_of_mem_padded (h ▸ List.mem_cons_self : '-' ∈ padded 4 n)
    revert this
    decide
  intro y y' h
  rw [DateTime.yearText, DateTime.yearText] at h
  split at h <;> split at h
  · have := padded_inj.1 (List.append_cancel_left h)
    omega
  · exact absurd h.symm (hminus _ _)
  · exact absurd h (hminus _ _)
  · have := padded_inj.1 h
    omega

theorem getDateString_singleton_inj {a b : DateTime} :
    getDateString [a] = getDateString [b] ↔ a.toDate = b.toDate := by
  rw [getDateString_singleton, getDateString_singleton]
  refine ⟨fun h => ?_, fun h => ?_⟩
  · rw [← String.toList_inj] at h
    simp only [String.toList_append, String.toList_ofList] at h
    obtain ⟨hyear, hday⟩ := List.append_inj' h (by rw [length_shortDay, length_shortDay])
    have hmd := Prod.mk.inj (shortDay_inj.1 (String.toList_inj.1 hday))
    exact Date.ext (yearText_injective (List.append_cancel_right hyear)) hmd.1 hmd.2
  · have hday : shortDay a = shortDay b := shortDay_inj.2 (by rw [h])
    rw [hday, h]

/-- A text of one day has no blank in it, a text of several days ends with one. -/
theorem getDateString_singleton_ne {d : DateTime} {dates : List DateTime} (h : dates.length ≠ 1) :
    getDateString [d] ≠ getDateString dates := by
  intro htext
  rw [getDateString_singleton, getDateString_of_length_ne h, ← String.toList_inj] at htext
  cases dates with
  | nil =>
    have hlen := congrArg List.length htext
    rw [List.map_nil, String.join_nil, String.toList_append, List.length_append, length_shortDay,
      String.toList_empty, List.length_nil] at hlen
    omega
  | cons d' dates =>
    have hblank : ' ' ∈ (String.join ((d' :: dates).map fun date => shortDay date ++ " ")).toList := by
      simp
    rw [← htext] at hblank
    simp only [String.toList_append, String.toList_ofList, toList_shortDay, List.mem_append,
      List.mem_cons] at hblank
    rcases hblank with (hc | hc) | hc | hc | hc
    · exact ne_space_of_mem_yearText hc rfl
    · revert hc
      decide
    · exact ne_space_of_mem_padded hc rfl
    · revert hc
      decide
    · exact ne_space_of_mem_padded hc rfl

/-- Two selections have the same text in a date field when both are of the same single day, or
neither is of a single day and their days are the same up to the year. -/
theorem date_field_tells_days (dates dates' : List DateTime) :
    getDateString dates = getDateString dates' ↔
      (∃ d d', dates = [d] ∧ dates' = [d'] ∧ d.toDate = d'.toDate) ∨
        dates.length ≠ 1 ∧ dates'.length ≠ 1 ∧
          dates.map (fun d => (d.month, d.day)) = dates'.map fun d => (d.month, d.day) := by
  by_cases h : dates.length = 1 <;> by_cases h' : dates'.length = 1
  · obtain ⟨d, rfl⟩ := List.length_eq_one_iff.1 h
    obtain ⟨d', rfl⟩ := List.length_eq_one_iff.1 h'
    rw [getDateString_singleton_inj]
    simp
  · obtain ⟨d, rfl⟩ := List.length_eq_one_iff.1 h
    refine iff_of_false (getDateString_singleton_ne h') ?_
    rintro (⟨-, d', -, rfl, -⟩ | ⟨hne, -⟩)
    · exact h' rfl
    · exact hne rfl
  · obtain ⟨d', rfl⟩ := List.length_eq_one_iff.1 h'
    refine iff_of_false (getDateString_singleton_ne h).symm ?_
    rintro (⟨d, -, rfl, -⟩ | ⟨-, hne, -⟩)
    · exact h rfl
    · exact hne rfl
  · have hdays : dates.map shortDay = dates'.map shortDay ↔
        dates.map (fun d => (d.month, d.day)) = dates'.map fun d => (d.month, d.day) := by
      simp only [← List.forall₂_eq_eq_eq, List.forall₂_map_left_iff, List.forall₂_map_right_iff,
        shortDay_inj]
    rw [getDateString_of_length_ne h, getDateString_of_length_ne h', join_shortDay_inj, hdays]
    refine ⟨fun hsame => .inr ⟨h, h', hsame⟩, ?_⟩
    rintro (⟨d, -, rfl, -⟩ | ⟨-, -, hsame⟩)
    · exact absurd rfl h
    · exact hsame

end DateField

section HomePage

variable {parent : String} {jobs : List Job} {doc : JobDoc}

theorem Keeps.read (h : Keeps parent jobs doc) :
    ∃ list, getJobRecord (some doc) = .ok list ∧ list.all.Perm (jobs.map Job.model) := by
  obtain ⟨list, hread, hreads, -⟩ := h.exists_list
  refine ⟨list, hread, Multiset.coe_eq_coe.1 ?_⟩
  rw [hreads.all, h.bag, Multiset.map_map, Multiset.map_coe]
  rfl

theorem jobTile_model (job : Job) : jobTile job.model = .ok job.tile := by
  have hdate : getShortDate job.model.date = .ok (shortDay job.date) := by
    rw [getShortDate, Job.model, parseDate_getDateTimeString]
    rfl
  rw [jobTile, hdate]
  rfl

theorem Job.model_opened (type note : String) (date : DateTime) (point : Int64) :
    (Job.opened type note date point).model = ⟨type, note, getDateTimeString date, point, false⟩ := by
  rw [Job.model, ← getDateTimeString_toSecond date]
  rfl

/-- The home page shows the tiles of the unfinished jobs. -/
theorem Keeps.home (h : Keeps parent jobs doc) : ∃ list tiles, getJobRecord (some doc) = .ok list ∧
    list.all.Perm (jobs.map Job.model) ∧ MyHomePage.listTiles list.all = .ok tiles ∧
    tiles.Perm ((jobs.filter fun job => job.finish = false).map Job.tile) := by
  obtain ⟨list, hread, hperm⟩ := h.read
  have hopen : (list.all.filter fun job => job.finish == false).Perm
      ((jobs.filter fun job => job.finish = false).map Job.model) := by
    refine (hperm.filter _).trans (List.Perm.of_eq ?_)
    rw [List.filter_map]
    rfl
  have htile : ∀ model ∈ list.all.filter fun job => job.finish == false,
      jobTile model = .ok ((jobTile model).toOption.getD ⟨"", "", "", 0⟩) := by
    intro model hmodel
    obtain ⟨job, -, rfl⟩ := List.mem_map.1 (hopen.subset hmodel)
    rw [jobTile_model]
    rfl
  refine ⟨list, _, hread, hperm, mapM_eq_ok htile, (hopen.map _).trans (List.Perm.of_eq ?_)⟩
  rw [List.map_map]
  exact List.map_congr_left fun job _ => by simp [jobTile_model, Except.toOption]

/-- The handler leaves what the loop leaves, and reports whether it has returned. -/
theorem onTap_createJobs (email type note : String) {pointText : String} {point : Int64}
    (hparse : tryParse pointText = some point) (hpos : 0 < point)
    (selectedDate : List (Option DateTime × List Fate)) (db : Db) :
    (WorkAddPage.onTap (some email) (some type) note pointText selectedDate db).2 =
        (WorkAddPage.createJobs email type note point selectedDate db).2 ∧
      ((WorkAddPage.onTap (some email) (some type) note pointText selectedDate db).1 = .success ↔
        (WorkAddPage.createJobs email type note point selectedDate db).1 = .ok ()) := by
  obtain ⟨result, db', hloop⟩ : ∃ result db',
      WorkAddPage.createJobs email type note point selectedDate db = (result, db') := ⟨_, _, rfl⟩
  cases result with
  | ok _ =>
    rw [WorkAddPage.onTap_success hparse hpos hloop, hloop]
    exact ⟨rfl, iff_of_true rfl rfl⟩
  | error e =>
    rw [WorkAddPage.onTap_failure hparse hpos hloop, hloop]
    exact ⟨rfl, iff_of_false (fun h => by cases h) fun h => by cases h⟩

end HomePage

/-- Whatever happens to the transactions of the add-work page, when a child, a type and a positive
number of points have been given: the days that its date field names get their jobs one after
another, up to some day, all of them exactly if it reports a success, and the child's home page
gains the tiles of these days and no others. A form with anything else in it is refused before the
first transaction. -/
theorem work_added_day_by_day (email parent type note pointText : String) (point : Int64)
    (hparse : tryParse pointText = some point) (hpos : 0 < point)
    (selectedDate : List (Option DateTime × List Fate)) (db : Db) (job : JobDoc) (jobs : List Job)
    (hjob : db.job email = some job) (hkeeps : Keeps parent jobs job) :
    ∃ (dates : List DateTime) (k : ℕ) (job' : JobDoc) (list list' : Records JobModel)
      (tiles tiles' : List DetailTile),
      dates = (selectedDate.map Prod.fst).reduceOption ∧ k ≤ dates.length ∧
      NamesDays (WorkAddPage.dateField selectedDate) dates ∧
      ((WorkAddPage.onTap (some email) (some type) note pointText selectedDate db).1 = .success ↔
        k = dates.length) ∧
      (WorkAddPage.onTap (some email) (some type) note pointText selectedDate db).2.job email =
        some job' ∧
      getJobRecord (some job) = .ok list ∧ MyHomePage.listTiles list.all = .ok tiles ∧
      getJobRecord (some job') = .ok list' ∧ MyHomePage.listTiles list'.all = .ok tiles' ∧
      list'.all.Perm (list.all ++ (dates.take k).map
        fun date => ⟨type, note, getDateTimeString date, point, false⟩) ∧
      tiles'.Perm (tiles ++ (dates.take k).map fun date => ⟨shortDay date, type, note, point⟩) := by
  obtain ⟨k, hk, job', hjob', hkeeps', hiff⟩ :=
    createJobs_keeps email type note point selectedDate hjob hkeeps
  obtain ⟨hleaves, hreports⟩ :=
    onTap_createJobs email type note hparse hpos selectedDate db
  obtain ⟨list, tiles, hread, hall, htiles, hopen⟩ := hkeeps.home
  obtain ⟨list', tiles', hread', hall', htiles', hopen'⟩ := hkeeps'.home
  rw [← hleaves] at hjob'
  refine ⟨_, k, job', list, list', tiles, tiles', rfl, hk, namesDays_getDateString _,
    hreports.trans hiff, hjob', hread, htiles, hread', htiles', hall'.trans ?_, hopen'.trans ?_⟩
  · rw [List.map_append, List.map_map]
    refine hall.symm.append (List.Perm.of_eq (List.map_congr_left fun date _ => ?_))
    exact Job.model_opened type note date point
  · have hadded : ∀ dates : List DateTime,
        (dates.map fun date => Job.opened type note date point).filter (fun job => job.finish = false) =
          dates.map fun date => Job.opened type note date point := fun dates =>
      List.filter_eq_self.2 (List.forall_mem_map.2 fun _ _ => rfl)
    rw [List.filter_append, List.map_append, hadded, List.map_map]
    exact hopen.symm.append (List.Perm.of_eq rfl)

/-- The first of two days has got its job, and the second has not. -/
theorem work_added_day_by_day_twoDays : ∃ k ≠ 2, ∃ (job' : JobDoc) (list' : Records JobModel)
    (tiles' : List DetailTile),
    (WorkAddPage.press WorkAddPage.twoDays WorkAddPage.emptyJobs).2.job "child@example.com" =
      some job' ∧ getJobRecord (some job') = .ok list' ∧ MyHomePage.listTiles list'.all = .ok tiles' ∧
    tiles'.Perm ((["03-05", "03-06"].take k).map fun day => ⟨day, "家事類", "dishes", 7⟩) := by
  obtain ⟨dates, k, job', list, list', tiles, tiles', hdates, -, -, hreport, hjob', hread, htiles,
      hread', htiles', -, hperm⟩ :=
    work_added_day_by_day "child@example.com" "parent@example.com" "家事類" "dishes" "7" 7
      (by decide +kernel) (by decide) WorkAddPage.twoDays WorkAddPage.emptyJobs _ [] rfl
      (Keeps.init "parent@example.com")
  have hfails : (WorkAddPage.press WorkAddPage.twoDays WorkAddPage.emptyJobs).1 ≠ .success := by
    decide +kernel
  obtain rfl : (∅ : Records JobModel) = list := Except.ok.inj hread
  obtain rfl : [] = tiles := Except.ok.inj htiles
  subst hdates
  refine ⟨k, fun hk => hfails (hreport.2 hk), job', list', tiles', hjob', hread', htiles', ?_⟩
  have hdays : (WorkAddPage.twoDays.map Prod.fst).reduceOption.map shortDay = ["03-05", "03-06"] := by
    decide +kernel
  rw [← hdays, ← List.map_take, List.map_map]
  exact hperm

section Settlement

variable {email parent : String} {jobs : List Job} {doc : JobDoc} {db : Db} {job : Job}

theorem parseDate_model (job : Job) : parseDate job.model.date = .ok job.date := by
  rw [Job.model, parseDate_getDateTimeString, job.date.2]

theorem opened_model (h : job.finish = false) :
    Job.opened job.model.type job.model.note job.date job.model.point = job := by
  obtain ⟨type, note, date, point, finish⟩ := job
  exact Job.ext rfl rfl (Subtype.ext date.2) rfl h.symm

theorem perform_delete (bag : Multiset Job) (h : job.finish = false) :
    (Payment.deleteTile job.model).perform bag = bag.erase job := by
  simp only [Payment.deleteTile, JobOp.perform, parseDate_model, opened_model h]

theorem perform_finish {bag : Multiset Job} (h : job.finish = false) (hmem : job ∈ bag) :
    (Payment.finishTile job.model).perform bag = job.finished ::ₘ bag.erase job := by
  simp only [Payment.finishTile, JobOp.perform, parseDate_model, opened_model h, if_pos hmem]

/-- The jobs that one settlement adds to those of the child. -/
def Settlement.left (job : Job) (settlement : Settlement) : Multiset Job :=
  if settlement.pays then {job.finished} else 0

/-- A press that returns takes its job away, or finishes and pays it. -/
theorem handle_settlement (hjob : db.job email = some doc) (hkeeps : Keeps parent jobs doc)
    (hopen : job.finish = false) (hmem : job ∈ jobs) (settlement : Settlement) {b : Int64}
    (hb : intField (db.users email) "point" = .ok b)
    (hok : ((settlement.press email job.model).handle db).1 = .inr (.ok ())) :
    ∃ jobs' doc', ((settlement.press email job.model).handle db).2.job email = some doc' ∧
      Keeps parent jobs' doc' ∧
      (jobs' : Multiset Job) = settlement.left job + (jobs : Multiset Job).erase job ∧
      intField (((settlement.press email job.model).handle db).2.users email) "point" =
        .ok (if settlement.pays then b + job.point else b) := by
  cases settlement with
  | delete fates =>
    rcases Keeps.call hjob hkeeps (Payment.deleteTile job.model) fates with
      ⟨e, he⟩ | ⟨db', doc', he, husers, -, hjob', hkeeps'⟩
    · rw [Payment.deleteTile] at he
      simp [Settlement.press, Press.handle, deleteJob, he] at hok
    · have hhandle : ((Settlement.delete fates).press email job.model).handle db = (.inr (.ok ()), db') := by
        rw [Payment.deleteTile] at he
        simp only [Settlement.press, Press.handle, deleteJob, he, Prod.map_apply, id_eq]
      rw [hhandle]
      refine ⟨_, doc', hjob', hkeeps', ?_, ?_⟩
      · rw [coe_arrange, perform_delete _ hopen]
        exact (zero_add _).symm
      · rw [husers]
        exact hb
  | confirm finishFates payFates =>
    rcases Keeps.call hjob hkeeps (Payment.finishTile job.model) finishFates with
      ⟨e, he⟩ | ⟨db₁, doc', he, husers, -, hjob', hkeeps'⟩
    · rw [Payment.finishTile] at he
      simp [Settlement.press, Press.handle, confirm, finishJob, he] at hok
    · have hhandle : ((Settlement.confirm finishFates payFates).press email job.model).handle db =
          (changePoint email (Payment.payment job.model) payFates db₁).map .inr id := by
        rw [Payment.finishTile] at he
        simp only [Settlement.press, Press.handle, confirm, finishJob, he, Payment.payment]
      rw [hhandle] at hok ⊢
      have hpays : changePoint email (Payment.payment job.model) payFates db₁ =
          (.ok (), (changePoint email (Payment.payment job.model) payFates db₁).2) :=
        Prod.ext (Sum.inr.inj hok) rfl
      obtain ⟨d, p, balance, hd, -, hbalance, husers', -⟩ :=
        changePoint_ok (Payment.payment job.model) hpays
      obtain rfl : b = balance := by
        rw [← hd, husers, hb] at hbalance
        exact Except.ok.inj hbalance
      refine ⟨_, doc', ?_, hkeeps', ?_, ?_⟩
      · rw [← hjob']
        exact congrFun (changePoint_job _ email payFates db₁) email
      · rw [coe_arrange, perform_finish hopen hmem]
        rfl
      · refine (congrArg (intField · "point") husers').trans ?_
        exact intField_insert d "point" (b + job.point)

theorem confirmed_cons (entry : Job × Settlement) (plan : List (Job × Settlement)) :
    ((confirmed (entry :: plan)).map Job.finished : Multiset Job) =
      entry.2.left entry.1 + (confirmed plan).map Job.finished := by
  cases hpays : entry.2.pays <;> simp [confirmed, Settlement.left, hpays]

/-- Over a plan each job is taken out once, whatever else the document keeps. -/
theorem run_plan (hjob : db.job email = some doc) (hkeeps : Keeps parent jobs doc) {b : Int64}
    (hb : intField (db.users email) "point" = .ok b) (plan : List (Job × Settlement))
    (hopen : ∀ entry ∈ plan, entry.1.finish = false)
    (hplan : (plan.map Prod.fst : Multiset Job) ≤ jobs)
    (hok : ∀ entry ∈ (run (plan.map fun entry => entry.2.press email entry.1.model) db).1,
      entry.2 = .inr (.ok ())) :
    ∃ jobs' doc', (run (plan.map fun entry => entry.2.press email entry.1.model) db).2.job email =
        some doc' ∧ Keeps parent jobs' doc' ∧
      (jobs' + plan.map Prod.fst : Multiset Job) = jobs + (confirmed plan).map Job.finished ∧
      intField ((run (plan.map fun entry => entry.2.press email entry.1.model) db).2.users email)
        "point" = .ok (b + ((confirmed plan).map Job.point).sum) := by
  induction plan generalizing db jobs doc b with
  | nil =>
    refine ⟨jobs, doc, hjob, hkeeps, by simp [confirmed], hb.trans ?_⟩
    simp [confirmed]
  | cons entry plan ih =>
    rw [List.forall_mem_cons] at hopen
    rw [List.map_cons, ← Multiset.cons_coe] at hplan
    have hmem : entry.1 ∈ (jobs : Multiset Job) :=
      Multiset.subset_of_le hplan (Multiset.mem_cons_self _ _)
    have hjobs := Multiset.cons_erase hmem
    rw [← hjobs, Multiset.cons_le_cons_iff] at hplan
    obtain ⟨hfirst, hrest⟩ := List.forall_mem_cons.1 hok
    obtain ⟨jobs₁, doc₁, hjob₁, hkeeps₁, hleft, hb₁⟩ :=
      handle_settlement hjob hkeeps hopen.1 hmem entry.2 hb hfirst
    have hplan₁ : (plan.map Prod.fst : Multiset Job) ≤ jobs₁ :=
      hleft ▸ hplan.trans (Multiset.le_add_left _ _)
    obtain ⟨jobs', doc', hjob', hkeeps', hsame, hb'⟩ := ih hjob₁ hkeeps₁ hb₁ hopen.2 hplan₁ hrest
    refine ⟨jobs', doc', hjob', hkeeps', ?_, hb'.trans (congrArg _ ?_)⟩
    · calc (jobs' + (entry :: plan).map Prod.fst : Multiset Job)
          = entry.1 ::ₘ (jobs' + plan.map Prod.fst : Multiset Job) := by
            rw [List.map_cons, ← Multiset.cons_coe, Multiset.add_cons]
        _ = entry.1 ::ₘ (entry.2.left entry.1 + (jobs : Multiset Job).erase entry.1 +
              (confirmed plan).map Job.finished) := by rw [hsame, hleft]
        _ = (entry.1 ::ₘ (jobs : Multiset Job).erase entry.1) + (entry.2.left entry.1 +
              (confirmed plan).map Job.finished) := by
            rw [Multiset.cons_add, add_left_comm, add_assoc]
        _ = jobs + (confirmed (entry :: plan)).map Job.finished := by rw [hjobs, confirmed_cons]
    · cases hpays : entry.2.pays <;> simp [confirmed, hpays, add_assoc]

end Settlement

/-- Whatever is pressed for the other children meanwhile: when some of the open jobs of a child,
each once and in any order, are confirmed or deleted and all these presses return, exactly their
tiles are gone from the home page, the confirmed ones are its new finished jobs, and the balance
has grown by their points. The job document is as the provider writes it, and the balance can be
read. -/
theorem jobs_settled_once (email parent : String) (db : Db) (job : JobDoc) (jobs : List Job)
    (b : Int64) (hjob : db.job email = some job) (hkeeps : Keeps parent jobs job)
    (hb : intField (db.users email) "point" = .ok b) (plan : List (Job × Settlement))
    (hopen : ∀ entry ∈ plan, entry.1.finish = false) (hplan : (plan.map Prod.fst).Subperm jobs)
    (presses : List Press) (hpresses : about Press.child? email presses =
      plan.map fun entry => entry.2.press email entry.1.model)
    (hok : ∀ entry ∈ answersAbout Press.child? email (run presses db).1, entry.2 = .inr (.ok ())) :
    ∃ (job' : JobDoc) (list list' : Records JobModel) (tiles tiles' : List DetailTile),
      (run presses db).2.job email = some job' ∧
      getJobRecord (some job) = .ok list ∧ MyHomePage.listTiles list.all = .ok tiles ∧
      getJobRecord (some job') = .ok list' ∧ MyHomePage.listTiles list'.all = .ok tiles' ∧
      (list'.all ++ plan.map fun entry => entry.1.model).Perm
        (list.all ++ (confirmed plan).map fun job => job.finished.model) ∧
      (tiles' ++ plan.map fun entry => entry.1.tile).Perm tiles ∧
      intField ((run presses db).2.users email) "point" =
        .ok (b + ((confirmed plan).map Job.point).sum) := by
  obtain ⟨hanswers, hdocuments⟩ : answersAbout Press.child? email (run presses db).1 =
      (run (about Press.child? email presses) db).1 ∧ documents email (run presses db).2 =
        documents email (run (about Press.child? email presses) db).2 :=
    exec_about local_handle idle_handle presses rfl
  obtain ⟨husers, -, hdoc⟩ := documents_eq_iff.1 hdocuments
  rw [hpresses] at hanswers husers hdoc
  rw [hanswers] at hok
  obtain ⟨jobs', job', hjob', hkeeps', hsame, hb'⟩ :=
    run_plan hjob hkeeps hb plan hopen (Multiset.coe_le.2 hplan) hok
  obtain ⟨list, tiles, hread, hall, htiles, hshown⟩ := hkeeps.home
  obtain ⟨list', tiles', hread', hall', htiles', hshown'⟩ := hkeeps'.home
  rw [Multiset.coe_add, Multiset.coe_add, Multiset.coe_eq_coe] at hsame
  refine ⟨job', list, list', tiles, tiles', hdoc.trans hjob', hread, htiles, hread', htiles', ?_, ?_,
    (congrArg (intField · "point") husers).trans hb'⟩
  · have hmodels := hsame.map Job.model
    rw [List.map_append, List.map_append, List.map_map, List.map_map] at hmodels
    exact (hall'.append_right _).trans (hmodels.trans (hall.symm.append_right _))
  · have htodo : (plan.map Prod.fst).filter (fun job => job.finish = false) = plan.map Prod.fst :=
      List.filter_eq_self.2 (List.forall_mem_map.2 fun entry hentry => by simpa using hopen entry hentry)
    have hfinished : ((confirmed plan).map Job.finished).filter (fun job => job.finish = false) = [] :=
      List.filter_eq_nil_iff.2 (List.forall_mem_map.2 fun _ _ => by simp [Job.finished])
    have hunfinished := (hsame.filter fun job => job.finish = false).map Job.tile
    rw [List.filter_append, List.filter_append, htodo, hfinished, List.append_nil, List.map_append,
      List.map_map] at hunfinished
    exact (hshown'.append_right _).trans (hunfinished.trans hshown.symm)

def dishes (date : DateTime) : Job := .opened "家事類" "dishes" date 7

/-- The dishes of two days are to be done. -/
def withDishes : Db :=
  { siblings with
    job := fun _ => [sampleTime, WorkAddPage.nextDay].foldl (fun doc date => jobHandlers.effect
      (.createJob "家事類" "dishes" date 7) doc) (some (parentOnly "parent@example.com")) }

/-- Those of the second day are confirmed, then those of the first day deleted. -/
def dishesPlan : List (Job × Settlement) :=
  [(dishes WorkAddPage.nextDay,
      .confirm [.refused, .accepted] [(.accepted, [(.accepted, sampleTime)])]),
    (dishes sampleTime, .delete [.accepted])]

def dishesPresses : List Press :=
  [.confirm "child@example.com" (dishes WorkAddPage.nextDay).model [.refused, .accepted]
      [(.accepted, [(.accepted, sampleTime)])],
    siblingsTransfer, .delete "child@example.com" (dishes sampleTime).model [.accepted]]

/-- One of the two jobs is left, finished and paid. -/
theorem jobs_settled_once_dishes :
    intField ((run dishesPresses withDishes).2.users "child@example.com") "point" = .ok 7 ∧
      ∃ list', getJobRecord ((run dishesPresses withDishes).2.job "child@example.com") = .ok list' ∧
        list'.all.length = 1 := by
  obtain ⟨job, hjob, hkeeps⟩ := keeps_foldl "parent@example.com"
    [.createJob "家事類" "dishes" sampleTime 7, .createJob "家事類" "dishes" WorkAddPage.nextDay 7]
  obtain ⟨job', list, list', tiles, tiles', hjob', hread, -, hread', -, hperm, -, hb⟩ :=
    jobs_settled_once "child@example.com" "parent@example.com" withDishes job _ 0 hjob hkeeps rfl
      dishesPlan (by decide +kernel) (List.Perm.subperm (List.Perm.swap _ _ _)) dishesPresses rfl
      (by decide +kernel)
  have hbefore : (getJobRecord (some job)).toOption.map (fun list => list.all.length) = some 2 := by
    rw [← hjob]
    decide +kernel
  rw [hread] at hbefore
  have htwo : list.all.length = 2 := Option.some.inj hbefore
  have hlength := hperm.length_eq
  rw [List.length_append, List.length_append, htwo] at hlength
  refine ⟨hb, list', by rw [hjob', hread'], ?_⟩
  exact Nat.add_right_cancel (m := 2) hlength

end HomeBank
