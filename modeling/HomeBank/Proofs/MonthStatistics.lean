import HomeBank.Proofs.JobViews
import HomeBank.Proofs.Reconcile
import HomeBank.Proofs.WeeklyCounts

/-! The statistics pages against the list pages. They select the jobs of a month in two ways and
count them in two ways, and on every document that the calls can produce they agree. -/

namespace HomeBank

open Dart Firestore Select Histogram Optimistic Transition

/-- The counters of a list of jobs say of each type what the list of this type shows. -/
structure CountsTiles (counts : WeeklyCounts) (tiles : Fin 4 → List JobModel) : Prop where
  total : ∀ i w, 1 ≤ w → w ≤ 4 →
    (counts.tally i).total[w - 1]? = some ((tiles i).countP fun job => inWeek w job)
  finished : ∀ i w, 1 ≤ w → w ≤ 4 → (counts.tally i).finished[w - 1]? =
    some ((tiles i).countP fun job => job.finish && inWeek w job)
  total_sum : ∀ i, (counts.tally i).total.sum = (tiles i).length
  finished_sum : ∀ i, (counts.tally i).finished.sum = (tiles i).countP fun job => job.finish

theorem tally_countsOf (jobs : List JobModel) (i : Fin 4) :
    (countsOf jobs).tally i = tallyOf jobs workTypes[i] := by
  match i with
  | 0 | 1 | 2 | 3 => rfl

theorem countsTiles {jobs : List JobModel} (h : ∀ job ∈ jobs, ∃ date, parseDate job.date = .ok date) :
    CountsTiles (countsOf jobs) fun i => jobs.filter fun job => job.type = workTypes[i] where
  total i w hpos hle := by
    rw [tally_countsOf, tallyOf, getElem?_histogram 4 jobWeek (by omega), countP_jobWeek h _ hpos hle,
      List.countP_filter]
    exact congrArg some (List.countP_congr fun job _ => by rw [Bool.and_comm])
  finished i w hpos hle := by
    rw [tally_countsOf, tallyOf, getElem?_histogram 4 jobWeek (by omega), List.filter_filter,
      countP_jobWeek h _ hpos hle, List.countP_filter]
    refine congrArg some (List.countP_congr fun job _ => ?_)
    rw [Bool.and_comm (job.finish && inWeek w job), Bool.and_assoc]
  total_sum i := by
    rw [tally_countsOf, tallyOf, sum_histogram 4 jobWeek fun job _ => jobWeek_lt job]
  finished_sum i := by
    rw [tally_countsOf, tallyOf, sum_histogram 4 jobWeek fun job _ => jobWeek_lt job,
      List.filter_filter, List.countP_filter, List.countP_eq_length_filter]
    congr 1
    exact List.filter_congr fun job _ => Bool.and_comm ..

/-- Jobs that all have one of the four types are in the lists of the types. -/
theorem sum_types {jobs : List JobModel} (htypes : ∀ job ∈ jobs, job.type ∈ workTypes)
    (p : JobModel → Bool) : ((List.finRange 4).map fun i =>
      (jobs.filter fun job => job.type = workTypes[i]).countP p).sum = jobs.countP p := by
  have hperm := flatMap_filter_perm JobModel.type (by decide : workTypes.Nodup) htypes
  have hcount := hperm.countP_eq p
  rw [List.countP_flatMap] at hcount
  rw [← hcount]
  rfl

theorem recordsAt_eq {list : Records JobModel} {currentDate : DateTime}
    (hdates : ∀ job ∈ list.all, ∃ d, parseDate job.date = .ok d)
    (h : whereInMonth JobModel.date currentDate list.all = .ok (recordsAt list currentDate)) :
    recordsAt list currentDate = list.all.filter fun job => inMonthOf currentDate job.date := by
  rw [whereInMonth, whereM_eq_ok (p := fun job => inMonthOf currentDate job.date)] at h
  · exact (Except.ok.inj h).symm
  · intro job hjob
    obtain ⟨d, hd⟩ := hdates job hjob
    rw [isInMonth, inMonthOf, hd]
    rfl

/-- On every document that any interleaving of calls leaves, if each job is created through the
add-work page, and in every month: the counters of the bar chart are those of the tiles that the
work detail pages show, week by week, and all of them together those of the child's two lists.
The detail and the list pages take their jobs from `AuthProvider.jobs`, which no method fills; they
are taken to show what `getJobRecord` reads, as the statistics pages do. -/
theorem statistics_agree_with_pages {ι : Type} [DecidableEq ι] (op : ι → JobOp) (parent : String)
    (hop : ∀ i, WorkAddPage.FromPage (op i)) (es : List (Event ι)) (s : State ι JobDoc)
    (h : run (step jobHandlers op) (State.init (some (parentOnly parent))) es = some s)
    (contains : DateRange → DateTime → Bool) (currentDate : DateTime) :
    ∃ doc list counts tiles, ∃ part : Bool → List JobModel,
      s.doc.val = some doc ∧ getJobRecord (some doc) = .ok list ∧ Reads JobMap.toModel doc list ∧
      StatisticsPage.weeklyCounts (recordsAt list currentDate) = .ok counts ∧
      MyStatisticsPage.weeklyCounts (recordsAt list currentDate) = .ok counts ∧
      (∀ i : Fin 4, WorkDetailPage.buildList contains ⟨currentDate, []⟩ list.all i = .ok (tiles i)) ∧
      (∀ finished, MyWorksPage.buildList contains ⟨currentDate, []⟩ finished list.all =
        .ok (part finished)) ∧
      CountsTiles counts tiles ∧
      ((List.finRange 4).map fun i => (counts.tally i).total.sum).sum =
        (part true).length + (part false).length ∧
      ((List.finRange 4).map fun i => (counts.tally i).finished.sum).sum = (part true).length := by
  obtain ⟨doc, hdoc, hkeeps⟩ := keeps_run h
  obtain ⟨list, hread, hreads, hmodels⟩ := hkeeps.exists_list
  obtain ⟨list', hread', -, hselect⟩ := selections_agree hkeeps JobMap.fromMap_eq JobModel.date
    (fun job => job.date) (fun _ => rfl) (fun _ => rfl) currentDate
  obtain rfl : list = list' := Except.ok.inj (hread.symm.trans hread')
  have hdates : ∀ job ∈ list.all, ∃ d, parseDate job.date = .ok d := by
    intro job hjob
    obtain ⟨kept, -, rfl⟩ := hmodels job hjob
    exact ⟨_, parseDate_getDateTimeString kept.date⟩
  have htypes : ∀ job ∈ list.all, job.type ∈ workTypes := by
    intro job hjob
    obtain ⟨kept, hkept, rfl⟩ := hmodels job hjob
    refine type_mem_workTypes (fun op' hop' => ?_) kept hkept
    obtain ⟨i, -, rfl⟩ := List.mem_map.1 hop'
    exact hop i
  -- the jobs of the month, as the statistics pages look them up
  have hmonth := recordsAt_eq hdates hselect
  have hsub : recordsAt list currentDate ⊆ list.all := hmonth ▸ List.filter_subset_self ..
  have hcounts : StatisticsPage.weeklyCounts (recordsAt list currentDate) =
      .ok (countsOf (recordsAt list currentDate)) :=
    countJobs_eq fun job hjob => getWeekOfMonth_eq (hdates job (hsub hjob))
  have htiles := countsTiles fun job hjob => hdates job (hsub hjob)
  have hmonthTypes : ∀ job ∈ recordsAt list currentDate, job.type ∈ workTypes :=
    fun job hjob => htypes job (hsub hjob)
  have hall := sum_types hmonthTypes
  refine ⟨doc, list, _, _, fun finished => (recordsAt list currentDate).filter fun job =>
    job.finish == finished, hdoc, hread, hreads, hcounts, hcounts, fun i => ?_, fun finished => ?_,
    htiles, ?_, ?_⟩
  · rw [workDetail_buildList, where_month hdates, hmonth]
  · rw [MyWorksPage.buildList, where_month hdates, hmonth]
    rfl
  · have hsum := hall fun _ => true
    simp only [List.countP_true] at hsum
    simp only [htiles.total_sum, hsum]
    rw [List.length_eq_countP_add_countP fun job => job.finish, List.countP_eq_length_filter,
      List.countP_eq_length_filter]
    simp
  · simp only [htiles.finished_sum, hall]
    rw [List.countP_eq_length_filter]
    simp

/-- In March the dishes of the first week are finished, and of the other jobs of the document one
has another type, one another week and one another month. -/
theorem statistics_agree_with_pages_severalJobs : ∃ counts tiles,
    StatisticsPage.weeklyCounts marchJobs = .ok counts ∧ CountsTiles counts tiles ∧
      (∀ i : Fin 4, tiles i = marchJobs.filter fun job => job.type = workTypes[i]) ∧
      counts = ⟨⟨[0, 1, 0, 0], [0, 0, 0, 0]⟩, ⟨[1, 0, 0, 1], [1, 0, 0, 0]⟩,
        ⟨[0, 0, 0, 0], [0, 0, 0, 0]⟩, ⟨[0, 0, 0, 0], [0, 0, 0, 0]⟩⟩ := by
  obtain ⟨s, hrun, hlist⟩ := exists_severalCalls
  obtain ⟨doc, list, counts, tiles, part, hdoc, hread, -, hcounts, -, htiles, -, hagree, -⟩ :=
    statistics_agree_with_pages severalOps "parent@example.com" fromPage_severalOps severalCalls s
      hrun betweenEnds sampleTime
  rw [hdoc, hread] at hlist
  obtain ⟨hall, hmonth⟩ := Prod.mk.inj (Except.ok.inj hlist)
  rw [hmonth] at hcounts
  rw [hall] at htiles
  refine ⟨counts, tiles, hcounts, hagree, fun i => ?_, ?_⟩
  · refine Except.ok.inj ((htiles i).symm.trans ?_)
    revert i
    decide +kernel
  · exact Except.ok.inj (hcounts.symm.trans (by decide +kernel))

end HomeBank
