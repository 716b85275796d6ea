import HomeBank.Proofs.ListPages
import HomeBank.Proofs.WeeklyCounts
import HomeBank.Spec.Job
import HomeBank.Spec.StoredDates

/-! Stored dates. The text of a date-time is read back up to its second and names its month,
so jobs are found by it. The text that the decoders put in for a missing date cannot be read
at all, and one such record takes its whole list down. -/

namespace HomeBank

open Dart Firestore Select

/-- The text of a date-time is read back as the same civil time without its sub-second part
and its UTC mark, and gives the same text and the same month key again. Two date-times have
the same month key exactly when they lie in the same month of the same year. -/
theorem stored_date_stable_key (d a b : DateTime) :
    (∃ r, parseDate (getDateTimeString d) = .ok r ∧
      (r.year = d.year ∧ r.month = d.month ∧ r.day = d.day) ∧
      (r.hour = d.hour ∧ r.minute = d.minute ∧ r.second = d.second) ∧
      (r.millisecond = 0 ∧ r.microsecond = 0 ∧ r.isUtc = false) ∧
      getDateTimeString r = getDateTimeString d ∧ getYearMonth r = getYearMonth d) ∧
    (getYearMonth a = getYearMonth b ↔ a.year = b.year ∧ a.month = b.month) :=
  ⟨⟨d.toSecond, parseDate_getDateTimeString d, ⟨rfl, rfl, rfl⟩, ⟨rfl, rfl, rfl⟩, ⟨rfl, rfl, rfl⟩,
    getDateTimeString_toSecond d, getYearMonth_toSecond d⟩, getYearMonth_inj⟩

example : parseDate (getDateTimeString sampleTime) = .ok sampleTime := by decide +kernel

/-- `finishJob` and `deleteJob` called with the stored text search the month list in which
`createJob` has put the job, for that very text. -/
theorem changeJobBody_stored (change : List JobMap → ℕ → List JobMap) (type note : String)
    (d : DateTime) (point : Int64) (snapshot : Option JobDoc) :
    changeJobBody change type note (getDateTimeString d) point snapshot =
      (listField snapshot (getYearMonth d)).map fun data =>
        (data.findIdx? (matchesDetail ⟨type, note, getDateTimeString d, point, false⟩)).map
          fun index => ⟨getYearMonth d, .list (change data index)⟩ := by
  rw [changeJobBody_eq, parseDate_getDateTimeString, Except.bind, getYearMonth_toSecond,
    getDateTimeString_toSecond]

/-- An unfinished job in the list of its month is found by the text of its date. -/
theorem changeJobBody_finds (change : List JobMap → ℕ → List JobMap) {type note : String}
    {d : DateTime} {point : Int64} {snapshot : Option JobDoc} {data : List JobMap}
    (hdata : listField snapshot (getYearMonth d) = .ok data)
    (hmem : (JobModel.mk type note (getDateTimeString d) point false).toJson ∈ data) :
    ∃ index, data[index]? = some (JobModel.mk type note (getDateTimeString d) point false).toJson ∧
      changeJobBody change type note (getDateTimeString d) point snapshot =
        .ok (some ⟨getYearMonth d, .list (change data index)⟩) := by
  obtain ⟨index, hindex⟩ : ∃ index, data.findIdx?
      (matchesDetail ⟨type, note, getDateTimeString d, point, false⟩) = some index := by
    rw [← Option.isSome_iff_exists, List.findIdx?_isSome, List.any_eq_true]
    exact ⟨_, hmem, (matchesDetail_iff rfl).2 rfl⟩
  obtain ⟨hlt, hmatch, -⟩ := List.findIdx?_eq_some_iff_getElem.1 hindex
  refine ⟨index, ?_, ?_⟩
  · rw [List.getElem?_eq_getElem hlt, (matchesDetail_iff rfl).1 hmatch]
  · rw [changeJobBody_stored, hdata, Except.map, hindex]
    rfl

section Readers

variable {α β : Type} {x : Except Exception α} {f : α → Except Exception β}

theorem completes_bind_iff (hf : ∀ a, Completes (f a)) : Completes (x >>= f) ↔ Completes x := by
  cases x with
  | error e => simp [Completes, bind, Except.bind]
  | ok a => exact iff_of_true (hf a) ⟨a, rfl⟩

theorem completes_map_iff (g : α → β) : Completes (x >>= fun a => pure (g a)) ↔ Completes x :=
  completes_bind_iff fun a => ⟨g a, rfl⟩

theorem completes_getShortDate_iff {s : String} :
    Completes (getShortDate s) ↔ Completes (parseDate s) := completes_map_iff _

theorem completes_getLongDate_iff {s : String} :
    Completes (getLongDate s) ↔ Completes (parseDate s) := completes_map_iff _

theorem completes_getWeekOfMonth_iff {s : String} :
    Completes (StatisticsPage.getWeekOfMonth s) ↔ Completes (parseDate s) := by
  refine completes_bind_iff fun date => ?_
  split
  · exact ⟨4, rfl⟩
  · exact ⟨_, rfl⟩

/-- All readers of a date throw together. -/
theorem dateUsable_iff {contains : DateRange → DateTime → Bool} {s : String} :
    DateUsable contains s ↔ Completes (parseDate s) := by
  refine ⟨fun h => completes_getShortDate_iff.1 h.getShortDate, fun h => ?_⟩
  exact {
    isInMonth := fun _ => (completes_map_iff _).2 h
    isInRange := fun _ => (completes_map_iff _).2 h
    getShortDate := completes_getShortDate_iff.2 h
    getLongDate := completes_getLongDate_iff.2 h
    getWeekOfMonth := completes_getWeekOfMonth_iff.2 h
    myGetWeekOfMonth := completes_getWeekOfMonth_iff.2 h }

end Readers

section Lists

variable {contains : DateRange → DateTime → Bool} {α τ : Type} {tile : α → Except Exception τ}
  {own : α → Bool} {date : α → String}

theorem completes_listView_iff {kept : Except Exception (List α)} :
    Completes (listView kept tile) ↔ ∃ data, kept = .ok data ∧ ∀ a ∈ data, Completes (tile a) := by
  cases kept with
  | error e => simp [Completes, listView, bind, Except.bind]
  | ok data =>
    refine exists_mapM_iff.trans ⟨fun h => ⟨data, rfl, h⟩, ?_⟩
    intro ⟨data', hdata, h⟩
    obtain rfl := Except.ok.inj hdata
    exact h

theorem completes_passes_iff (contains : DateRange → DateTime → Bool) (s : Selection)
    (dateString : String) :
    Completes (s.passes contains dateString) ↔ Completes (parseDate dateString) := by
  unfold Selection.passes
  split <;> exact completes_map_iff _

/-- A list page is shown exactly when every element of its own can be dated: a single one that
cannot takes the whole list down, in any month and with any range. -/
theorem completes_listTiles_iff (htile : ∀ a, Completes (tile a) ↔ Completes (parseDate (date a)))
    (s : Selection) (data : List α) : Completes (listView (s.where contains own date data) tile) ↔
      ∀ a ∈ data, own a = true → Completes (parseDate (date a)) := by
  rw [completes_listView_iff]
  refine ⟨fun ⟨kept, hkept, _⟩ a ha hown => ?_, fun h => ?_⟩
  · have hmem : a ∈ data.filter own := List.mem_filter.2 ⟨ha, hown⟩
    exact (completes_passes_iff contains s (date a)).1 (exists_ok_of_whereM hkept a hmem)
  · have hdated : ∀ a ∈ data.filter own, Completes (parseDate (date a)) := by
      intro a ha
      obtain ⟨hmem, hown⟩ := List.mem_filter.1 ha
      exact h a hmem hown
    obtain ⟨kept, hkept⟩ := exists_whereM_iff.2 fun a ha =>
      (completes_passes_iff contains s (date a)).2 (hdated a ha)
    exact ⟨kept, hkept, fun a ha => (htile a).2 (hdated a (subset_of_whereM hkept ha))⟩

theorem completes_pointTile_iff (model : PointModel) :
    Completes (pointTile model) ↔ Completes (parseDate model.date) := completes_map_iff _

theorem completes_awardTile_iff (model : PointModel) :
    Completes (AwardPage.tile model) ↔ Completes (parseDate model.date) := completes_map_iff _

theorem completes_jobTile_iff (job : JobModel) :
    Completes (jobTile job) ↔ Completes (parseDate job.date) :=
  (completes_map_iff _).trans completes_getShortDate_iff

theorem completes_workDetailTile_iff (job : JobModel) :
    Completes (WorkDetailPage.tile job) ↔ Completes (parseDate job.date) :=
  (completes_map_iff _).trans completes_getShortDate_iff

theorem completes_chartDates {data : List PointModel} (h : ∀ r ∈ data, Completes (parseDate r.date)) :
    Completes (chartDates data) := by
  unfold chartDates
  split
  · next first last hfirst hlast =>
    obtain ⟨text, htext⟩ := completes_getLongDate_iff.2 (h first (List.mem_of_head? hfirst))
    obtain ⟨text', htext'⟩ := completes_getLongDate_iff.2 (h last (List.mem_of_getLast? hlast))
    exact ⟨some (text, text'), by rw [htext, htext']; rfl⟩
  · exact ⟨none, rfl⟩

theorem pointsUsable {data : List PointModel} (h : ∀ r ∈ data, Completes (parseDate r.date)) :
    PointsUsable contains data where
  detail s := (completes_listTiles_iff completes_pointTile_iff s data).2 fun r hr _ => h r hr
  award s := (completes_listTiles_iff completes_awardTile_iff s data).2 fun r hr _ => h r hr
  myDetail s := (completes_listTiles_iff completes_pointTile_iff s data).2 fun r hr _ => h r hr
  chart := completes_chartDates h
  myChart := completes_chartDates h

theorem completes_workDetail {data : List JobModel} (h : ∀ job ∈ data, Completes (parseDate job.date))
    (s : Selection) (type : ℕ) : Completes (WorkDetailPage.listTiles contains s type data) := by
  by_cases htype : type < 4
  · have hbuild := workDetail_buildList contains s data ⟨type, htype⟩
    rw [WorkDetailPage.listTiles, hbuild]
    exact (completes_listTiles_iff completes_workDetailTile_iff s data).2 fun job hjob _ => h job hjob
  · obtain ⟨n, rfl⟩ : ∃ n, type = n + 4 := ⟨type - 4, by omega⟩
    exact ⟨[], rfl⟩

theorem jobsUsable {data : List JobModel} (h : ∀ job ∈ data, Completes (parseDate job.date)) :
    JobsUsable contains data where
  workDetail := completes_workDetail h
  myWorks s _ :=
    (completes_listTiles_iff completes_jobTile_iff s data).2 fun job hjob _ => h job hjob
  myHome := completes_listView_iff.2 ⟨_, rfl, fun job hjob =>
    (completes_jobTile_iff job).2 (h job (List.mem_filter.1 hjob).1)⟩
  weekly := ⟨_, countJobs_eq fun job hjob => getWeekOfMonth_eq (h job hjob)⟩
  myWeekly := ⟨_, countJobs_eq fun job hjob => getWeekOfMonth_eq (h job hjob)⟩

end Lists

/-- The text that the decoders put in for a missing date is not a date. -/
theorem parseDate_default : parseDate "" = .error .formatException := by decide +kernel

/-- A date is readable when decoded exactly when the stored map has one. -/
theorem completes_decoded_iff {date : Option String} (h : ∀ s ∈ date, ∃ d, s = getDateTimeString d) :
    Completes (parseDate (date.getD "")) ↔ date ≠ none := by
  cases date with
  | none => simp [Completes, parseDate_default]
  | some s =>
    obtain ⟨d, rfl⟩ := h s rfl
    exact iff_of_true ⟨d.toSecond, parseDate_getDateTimeString d⟩ (Option.some_ne_none _)

/-- The jobs of some stored maps are usable when each of the maps has its date. -/
theorem jobs_usable_iff (contains : DateRange → DateTime → Bool) {jobs : List JobMap}
    (hjobs : ∀ m ∈ jobs, ∀ s ∈ m.date, ∃ d, s = getDateTimeString d) :
    ((∀ job ∈ jobs.map JobMap.toModel, DateUsable contains job.date) ∧
      JobsUsable contains (jobs.map JobMap.toModel)) ↔ ∀ m ∈ jobs, m.date ≠ none := by
  simp only [dateUsable_iff, List.forall_mem_map]
  have hdates : (∀ m ∈ jobs, Completes (parseDate m.toModel.date)) ↔ ∀ m ∈ jobs, m.date ≠ none :=
    forall₂_congr fun m hm => completes_decoded_iff (hjobs m hm)
  rw [← hdates]
  exact and_iff_left_of_imp fun h => jobsUsable (List.forall_mem_map.2 h)

theorem points_usable_iff (contains : DateRange → DateTime → Bool) {points : List PointMap}
    (hpoints : ∀ m ∈ points, ∀ s ∈ m.date, ∃ d, s = getDateTimeString d) :
    ((∀ r ∈ points.map PointMap.toModel, DateUsable contains r.date) ∧
      PointsUsable contains (points.map PointMap.toModel)) ↔ ∀ m ∈ points, m.date ≠ none := by
  simp only [dateUsable_iff, List.forall_mem_map]
  have hdates : (∀ m ∈ points, Completes (parseDate m.toModel.date)) ↔
      ∀ m ∈ points, m.date ≠ none :=
    forall₂_congr fun m hm => completes_decoded_iff (hpoints m hm)
  rw [← hdates]
  exact and_iff_left_of_imp fun h => pointsUsable (List.forall_mem_map.2 h)

/-- A list of stored maps is decoded, and its records can be shown, each of them by every reader
of its date and all together in every list and chart, if and only if no map lacks its date. -/
theorem decoded_dates_usable_iff (contains : DateRange → DateTime → Bool) (jobs : List JobMap)
    (points : List PointMap) (hjobs : ∀ m ∈ jobs, ∀ s ∈ m.date, ∃ d, s = getDateTimeString d)
    (hpoints : ∀ m ∈ points, ∀ s ∈ m.date, ∃ d, s = getDateTimeString d) :
    (∃ models, jobs.mapM (fun m => JobModel.fromMap m.toElement) = .ok models ∧
      (((∀ job ∈ models, DateUsable contains job.date) ∧ JobsUsable contains models) ↔
        ∀ m ∈ jobs, m.date ≠ none)) ∧
    ∃ models, points.mapM (fun m => PointModel.fromMap m.toElement) = .ok models ∧
      (((∀ r ∈ models, DateUsable contains r.date) ∧ PointsUsable contains models) ↔
        ∀ m ∈ points, m.date ≠ none) :=
  ⟨⟨_, mapM_eq_ok fun m _ => JobModel.fromMap_toElement m, jobs_usable_iff contains hjobs⟩,
    _, mapM_eq_ok fun m _ => PointModel.fromMap_toElement m, points_usable_iff contains hpoints⟩

def datedJob : JobMap :=
  ⟨some "家事類", some "dishes", some (getDateTimeString sampleTime), some 7, some false⟩

def datedPoint : PointMap :=
  ⟨some "家事類", some "dishes", some (getDateTimeString sampleTime), some 7, some 7⟩

def undatedJob : JobMap := { datedJob with date := none }

def undatedPoint : PointMap := { datedPoint with date := none }

theorem decoded_dates_usable_iff_dated :
    (∃ jobs, [datedJob].mapM (fun m => JobModel.fromMap m.toElement) = .ok jobs ∧
      JobsUsable betweenEnds jobs) ∧
    ∃ points, [datedPoint].mapM (fun m => PointModel.fromMap m.toElement) = .ok points ∧
      PointsUsable betweenEnds points := by
  obtain ⟨⟨jobs, hjobs, hjobsIff⟩, points, hpoints, hpointsIff⟩ :=
    decoded_dates_usable_iff betweenEnds [datedJob] [datedPoint] (by simp [datedJob])
      (by simp [datedPoint])
  exact ⟨⟨jobs, hjobs, (hjobsIff.2 (by simp [datedJob])).2⟩,
    points, hpoints, (hpointsIff.2 (by simp [datedPoint])).2⟩

/-- A record that lacks nothing but its date is decoded, cannot be dated, and takes the lists and
the chart of the dated ones down. -/
theorem undated_record_fails :
    (∀ m ∈ [datedJob, undatedJob], ∀ s ∈ m.date, ∃ d, s = getDateTimeString d) ∧
    (∀ m ∈ [datedPoint, undatedPoint], ∀ s ∈ m.date, ∃ d, s = getDateTimeString d) ∧
    (∃ job, JobModel.fromMap undatedJob.toElement = .ok job ∧ ¬ DateUsable betweenEnds job.date) ∧
    (∃ r, PointModel.fromMap undatedPoint.toElement = .ok r ∧ ¬ DateUsable betweenEnds r.date) ∧
    (∃ jobs, [datedJob, undatedJob].mapM (fun m => JobModel.fromMap m.toElement) = .ok jobs ∧
      MyWorksPage.listTiles betweenEnds ⟨sampleTime, []⟩ false jobs = .error .formatException ∧
      StatisticsPage.weeklyCounts jobs = .error .formatException) ∧
    ∃ points, [datedPoint, undatedPoint].mapM (fun m => PointModel.fromMap m.toElement) =
        .ok points ∧
      MyDetailPage.listTiles betweenEnds ⟨sampleTime, []⟩ points = .error .formatException := by
  have hdefault : ¬ DateUsable betweenEnds "" := by
    rw [dateUsable_iff, parseDate_default]
    simp [Completes]
  refine ⟨by simp [datedJob, undatedJob], by simp [datedPoint, undatedPoint],
    ⟨_, JobModel.fromMap_toElement _, hdefault⟩, ⟨_, PointModel.fromMap_toElement _, hdefault⟩,
    ⟨_, mapM_eq_ok fun m _ => JobModel.fromMap_toElement m, ?_, ?_⟩,
    _, mapM_eq_ok fun m _ => PointModel.fromMap_toElement m, ?_⟩ <;> decide +kernel

end HomeBank
