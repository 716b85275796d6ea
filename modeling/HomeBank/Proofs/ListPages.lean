import HomeBank.Spec.ListPages

/-! What the list pages show of a picked range and of a month. A range ends at the midnight
with which its last day begins, so the rest of that day is outside. -/

namespace HomeBank

open Dart Firestore Select

theorem onPicked_ends {first last : DateTime} {picked : List (Option DateTime)}
    (h : picked.reduceOption = [first] ∧ last = first ∨ picked.reduceOption = [first, last])
    (s : Selection) : (s.onPicked (some picked)).range.head? = some first ∧
      (s.onPicked (some picked)).range.getLast? = some last := by
  have hne : picked.isEmpty = false := by
    cases picked with
    | nil => rcases h with ⟨h, -⟩ | h <;> cases h
    | cons d ds => rfl
  rw [Selection.onPicked, hne]
  rcases h with ⟨h, rfl⟩ | h <;> simp [h]

section Range

variable {contains : DateRange → DateTime → Bool} {first last : DateTime} {s : Selection}

/-- The own elements can be dated, and those of the picked days are neither later than the
midnight with which the last day begins nor refused by `contains`. -/
def RangeKept {α : Type} (contains : DateRange → DateTime → Bool) (first last : DateTime)
    (own : α → Bool) (date : α → String) (data : List α) : Prop :=
  ∀ element ∈ data, own element = true → ∃ d, parseDate (date element) = .ok d ∧
    (first.stamp ≤ d.midnight.stamp → d.midnight.stamp ≤ last.stamp →
      d.stamp ≤ last.stamp ∧ contains ⟨first, last⟩ d = true)

/-- The date test with a range says for one element whether its day is a picked one. -/
theorem passes_eq_iff
    (hcontains : ∀ range d, contains range d = true →
      range.start.stamp ≤ d.stamp ∧ d.stamp ≤ range.stop.stamp)
    (hfirst : first.midnight = first) (hhead : s.range.head? = some first)
    (hlast : s.range.getLast? = some last) (dateString : String) :
    s.passes contains dateString = .ok (dayBetween first last dateString) ↔
      ∃ d, parseDate dateString = .ok d ∧ (first.stamp ≤ d.midnight.stamp →
        d.midnight.stamp ≤ last.stamp → d.stamp ≤ last.stamp ∧ contains ⟨first, last⟩ d = true) := by
  rw [Selection.passes, hhead, hlast]
  simp only [isInRange, dayBetween]
  cases hd : parseDate dateString with
  | error e => simp [bind, Except.bind]
  | ok d =>
    have hends := hcontains ⟨first, last⟩ d
    simp only [bind, Except.bind, pure, Except.pure, Except.ok.injEq, exists_eq_left']
    cases hc : contains ⟨first, last⟩ d with
    | false => simp
    | true =>
      obtain ⟨hlo, hhi⟩ := hends hc
      have hin : first.stamp ≤ d.midnight.stamp ∧ d.midnight.stamp ≤ last.stamp :=
        ⟨DateTime.stamp_le_midnight hfirst hlo, d.midnight_stamp_le.trans hhi⟩
      simp [hin, hhi]

theorem rangeKept_iff {α : Type}
    (hcontains : ∀ range d, contains range d = true →
      range.start.stamp ≤ d.stamp ∧ d.stamp ≤ range.stop.stamp)
    (hfirst : first.midnight = first) (hhead : s.range.head? = some first)
    (hlast : s.range.getLast? = some last) (own : α → Bool) (date : α → String) (data : List α) :
    RangeKept contains first last own date data ↔ ∀ element ∈ data, own element = true →
      s.passes contains (date element) = .ok (dayBetween first last (date element)) := by
  simp only [passes_eq_iff hcontains hfirst hhead hlast, RangeKept]

theorem where_range_iff {α : Type}
    (hcontains : ∀ range d, contains range d = true →
      range.start.stamp ≤ d.stamp ∧ d.stamp ≤ range.stop.stamp)
    (hfirst : first.midnight = first) (hhead : s.range.head? = some first)
    (hlast : s.range.getLast? = some last) (own : α → Bool) (date : α → String) (data : List α) :
    s.where contains own date data =
        .ok (data.filter fun element => own element && dayBetween first last (date element)) ↔
      RangeKept contains first last own date data := by
  have hsplit : (data.filter fun element => own element && dayBetween first last (date element)) =
      (data.filter own).filter fun element => dayBetween first last (date element) := by
    rw [List.filter_filter]
    exact List.filter_congr fun _ _ => Bool.and_comm ..
  rw [rangeKept_iff hcontains hfirst hhead hlast, Selection.where, hsplit, whereM_eq_ok_iff]
  simp only [List.mem_filter, and_imp]

end Range

/-- Where the date test says `p` of every element, a page shows its own among those with `p`. -/
theorem where_eq_ok {α : Type} {contains : DateRange → DateTime → Bool} {s : Selection}
    {own : α → Bool} {date : α → String} {data : List α} {p : String → Bool}
    (h : ∀ element ∈ data, s.passes contains (date element) = .ok (p (date element))) :
    s.where contains own date data =
      .ok ((data.filter fun element => p (date element)).filter own) := by
  have hown : ∀ element ∈ data.filter own,
      s.passes contains (date element) = .ok (p (date element)) :=
    fun element helement => h element (List.mem_filter.1 helement).1
  rw [Selection.where, whereM_eq_ok hown, List.filter_filter, List.filter_filter]
  exact congrArg Except.ok (List.filter_congr fun _ _ => Bool.and_comm ..)

/-- The loop of the work detail page is a selection like those of the other pages. -/
theorem collect_eq (contains : DateRange → DateTime → Bool) (s : Selection) (type : String)
    (data jobList : List JobModel) : WorkDetailPage.collect contains s type data jobList =
      (s.where contains (fun job => job.type = type) JobModel.date data).map (jobList ++ ·) := by
  induction data generalizing jobList with
  | nil => simp [WorkDetailPage.collect, Selection.where, whereM, Except.map]
  | cons job data ih =>
    rw [WorkDetailPage.collect]
    split
    · next htype =>
      rw [Selection.where, List.filter_cons_of_pos (by simpa using htype), whereM]
      cases hpass : s.passes contains job.date with
      | error e => rfl
      | ok b =>
        simp only [bind, Except.bind, ih]
        rw [Selection.where]
        cases hrest : whereM (fun element => s.passes contains (JobModel.date element))
          (data.filter fun job => job.type = type) with
        | error e => cases b <;> rfl
        | ok rest => cases b <;> simp [Except.map, pure, Except.pure]
    · next htype =>
      rw [ih, Selection.where, Selection.where, List.filter_cons_of_neg (by simpa using htype)]

theorem workDetail_buildList (contains : DateRange → DateTime → Bool) (s : Selection)
    (data : List JobModel) (i : Fin 4) : WorkDetailPage.buildList contains s data i =
      s.where contains (fun job => job.type = workTypes[i]) JobModel.date data := by
  have hbuild : WorkDetailPage.buildList contains s data i =
      WorkDetailPage.collect contains s workTypes[i] data [] := by
    match i with
    | 0 | 1 | 2 | 3 => rfl
  rw [hbuild, collect_eq]
  simp only [List.nil_append]
  cases s.where contains (fun job => job.type = workTypes[i]) JobModel.date data <;> rfl

/-- With a picked range each of the five pages shows exactly its own elements of the picked
days, if and only if these can be dated, no element of the last day is later than its
midnight, and `contains` refuses none of them. -/
theorem range_pages_iff (contains : DateRange → DateTime → Bool)
    (hcontains : ∀ range d, contains range d = true →
      range.start.stamp ≤ d.stamp ∧ d.stamp ≤ range.stop.stamp)
    (first last : DateTime) (hfirst : first.midnight = first) (picked : List (Option DateTime))
    (hpicked : picked.reduceOption = [first] ∧ last = first ∨ picked.reduceOption = [first, last])
    (s₀ : Selection) (points : List PointModel) (jobs : List JobModel) (finished : Bool)
    (type : Fin 4) :
    let s := s₀.onPicked (some picked)
    (DetailPage.buildList contains s points =
        .ok (points.filter fun r => DetailPage.own r && dayBetween first last r.date) ↔
      RangeKept contains first last DetailPage.own PointModel.date points) ∧
    (AwardPage.buildList contains s points =
        .ok (points.filter fun r => AwardPage.own r && dayBetween first last r.date) ↔
      RangeKept contains first last AwardPage.own PointModel.date points) ∧
    (MyDetailPage.buildList contains s points =
        .ok (points.filter fun r => dayBetween first last r.date) ↔
      RangeKept contains first last (fun _ => true) PointModel.date points) ∧
    (MyWorksPage.buildList contains s finished jobs =
        .ok (jobs.filter fun job => job.finish == finished && dayBetween first last job.date) ↔
      RangeKept contains first last (fun job => job.finish == finished) JobModel.date jobs) ∧
    (WorkDetailPage.buildList contains s jobs type =
        .ok (jobs.filter fun job =>
          job.type = workTypes[type] && dayBetween first last job.date) ↔
      RangeKept contains first last (fun job => job.type = workTypes[type]) JobModel.date jobs) := by
  intro s
  obtain ⟨hhead, hend⟩ := onPicked_ends hpicked s₀
  have hpage : ∀ {α : Type} (own : α → Bool) (date : α → String) (data : List α),
      s.where contains own date data =
          .ok (data.filter fun element => own element && dayBetween first last (date element)) ↔
        RangeKept contains first last own date data := fun own date data =>
    where_range_iff hcontains hfirst hhead hend own date data
  rw [workDetail_buildList]
  exact ⟨hpage .., hpage .., hpage (fun _ => true) .., hpage .., hpage ..⟩

/-- A `contains` that takes in both ends. -/
def betweenEnds (range : DateRange) (date : DateTime) : Bool :=
  range.start.stamp ≤ date.stamp && date.stamp ≤ range.stop.stamp

def sampleDay : DateTime := timeOf "2024-03-05 00:00:00" (by decide +kernel)

def noonRecord : PointModel := ⟨"家事類", "dishes", "2024-03-05 12:00:00", 7, 7⟩

/-- The selection of a page on which one day has been picked. -/
def pickedDay : Selection := Selection.onPicked ⟨sampleTime, []⟩ (some [some sampleDay])

theorem betweenEnds_ends (range : DateRange) (date : DateTime) (h : betweenEnds range date = true) :
    range.start.stamp ≤ date.stamp ∧ date.stamp ≤ range.stop.stamp := by
  simpa [betweenEnds] using h

def dayAfter : DateTime := timeOf "2024-03-06 00:00:00" (by decide +kernel)

/-- The selection of a page on which that day and the next have been picked. -/
def pickedDays : Selection :=
  Selection.onPicked ⟨sampleTime, []⟩ (some [some sampleDay, some dayAfter])

def redemption : PointModel := ⟨"兌換獎勵", "cinema", "2024-03-05 20:15:00", -3, 4⟩

/-- Two records of the first of these days and one of two days later. -/
def weekRecords : List PointModel :=
  [noonRecord, redemption, ⟨"作業類", "reading", "2024-03-07 18:30:00", 5, 9⟩]

def finishedJob : JobModel := ⟨"家事類", "dishes", "2024-03-05 12:00:00", 7, true⟩

def readingJob : JobModel := ⟨"作業類", "reading", "2024-03-05 09:30:00", 5, false⟩

def weekJobs : List JobModel :=
  [finishedJob, readingJob, ⟨"作業類", "drawing", "2024-03-09 08:00:00", 3, true⟩]

theorem kept_pickedDays {α : Type} {own : α → Bool} {date : α → String} {data : List α}
    (h : ∀ element ∈ data, own element = true →
      pickedDays.passes betweenEnds (date element) =
        .ok (dayBetween sampleDay dayAfter (date element))) :
    RangeKept betweenEnds sampleDay dayAfter own date data :=
  (rangeKept_iff betweenEnds_ends (by decide +kernel) rfl rfl own date data).2 h

/-- All that has been written on the picked days lies before the last midnight, so each page
shows its own of it. -/
theorem range_pages_iff_picked_days :
    DetailPage.buildList betweenEnds pickedDays weekRecords = .ok [noonRecord] ∧
    AwardPage.buildList betweenEnds pickedDays weekRecords = .ok [redemption] ∧
    MyDetailPage.buildList betweenEnds pickedDays weekRecords = .ok [noonRecord, redemption] ∧
    MyWorksPage.buildList betweenEnds pickedDays true weekJobs = .ok [finishedJob] ∧
    WorkDetailPage.buildList betweenEnds pickedDays weekJobs 0 = .ok [readingJob] := by
  obtain ⟨hdetail, haward, hchild, hworks, htype⟩ := range_pages_iff betweenEnds betweenEnds_ends
    sampleDay dayAfter (by decide +kernel) [some sampleDay, some dayAfter] (.inr rfl)
    ⟨sampleTime, []⟩ weekRecords weekJobs true 0
  refine ⟨(hdetail.2 (kept_pickedDays (by decide +kernel))).trans ?_,
    (haward.2 (kept_pickedDays (by decide +kernel))).trans ?_,
    (hchild.2 (kept_pickedDays (by decide +kernel))).trans ?_,
    (hworks.2 (kept_pickedDays (by decide +kernel))).trans ?_,
    (htype.2 (kept_pickedDays (by decide +kernel))).trans ?_⟩
  all_goals decide +kernel

/-- The record of the picked day is missing, since it was written at noon. -/
theorem picked_day_loses_record :
    (∀ range date, betweenEnds range date = true →
      range.start.stamp ≤ date.stamp ∧ date.stamp ≤ range.stop.stamp) ∧
    ([noonRecord].filter fun r => DetailPage.own r && dayBetween sampleDay sampleDay r.date) =
      [noonRecord] ∧
    DetailPage.buildList betweenEnds pickedDay [noonRecord] ≠ .ok [noonRecord] := by
  refine ⟨betweenEnds_ends, by decide +kernel, ?_⟩
  have hempty : DetailPage.buildList betweenEnds pickedDay [noonRecord] = .ok [] := by decide +kernel
  rw [hempty]
  simp

end HomeBank
