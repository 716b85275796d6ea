import HomeBank.Spec.WeeklyCounts

/-! The counters are histograms. The loop keeps, for each type, the histogram of the weeks of
the jobs of that type it has seen and the histogram of the finished ones among them. -/

namespace HomeBank

open Dart Firestore Histogram

/-- The index of the counter for a day of a month. -/
def weekIndex (day : ℕ) : ℕ := min 3 ((day - 1) / 7)

theorem ceil_div_seven {day : ℕ} (hpos : 1 ≤ day) :
    ⌈(day / 7 : ℚ)⌉ = ((day - 1) / 7 : ℕ) + 1 := by
  obtain ⟨q, r, hr, rfl⟩ : ∃ q r, r < 7 ∧ day = 7 * q + r + 1 :=
    ⟨(day - 1) / 7, (day - 1) % 7, by omega, by omega⟩
  have hq : (7 * q + r + 1 - 1) / 7 = q := by omega
  have hr' : (r : ℚ) + 1 ≤ 7 := by exact_mod_cast hr
  have hr0 : (0 : ℚ) ≤ r := by positivity
  rw [hq, Int.ceil_eq_iff]
  push_cast
  constructor <;> linarith

theorem inWeek_iff {job : JobModel} {date : DateTime} (h : parseDate job.date = .ok date) {w : ℕ}
    (hpos : 1 ≤ w) (hle : w ≤ 4) : inWeek w job = true ↔ weekIndex date.day = w - 1 := by
  obtain ⟨-, -, hday, -⟩ := date.bounds
  simp only [inWeek, h, weekIndex, Bool.or_eq_true, Bool.and_eq_true, decide_eq_true_eq, beq_iff_eq]
  omega

/-- The week of a job, as an index. -/
def jobWeek (job : JobModel) : ℕ :=
  match parseDate job.date with
  | .error _ => 0
  | .ok date => weekIndex date.day

theorem jobWeek_lt (job : JobModel) : jobWeek job < 4 := by
  unfold jobWeek weekIndex
  split <;> omega

/-- The histograms of the jobs of one type. -/
def tallyOf (jobs : List JobModel) (type : String) : Tally where
  total := histogram 4 jobWeek (jobs.filter fun job => job.type = type)
  finished := histogram 4 jobWeek ((jobs.filter (·.finish)).filter fun job => job.type = type)

def countsOf (jobs : List JobModel) : WeeklyCounts where
  work := tallyOf jobs (workType 0)
  house := tallyOf jobs (workType 1)
  sport := tallyOf jobs (workType 2)
  art := tallyOf jobs (workType 3)

theorem tallyOf_snoc_of_ne (jobs : List JobModel) {job : JobModel} {type : String}
    (h : job.type ≠ type) : tallyOf (jobs ++ [job]) type = tallyOf jobs type := by
  simp [tallyOf, h]

section Loop

variable {getWeekOfMonth : String → Except Exception ℤ} {job : JobModel}

/-- A branch of the loop counts the job of its type. -/
theorem tally_count_eq (jobs : List JobModel)
    (h : getWeekOfMonth job.date = .ok (jobWeek job + 1 : ℕ)) :
    (tallyOf jobs job.type).count getWeekOfMonth job = .ok (tallyOf (jobs ++ [job]) job.type) := by
  have hlt := jobWeek_lt job
  have hindex : 0 ≤ ((jobWeek job + 1 : ℕ) : ℤ) - 1 ∧ ((jobWeek job + 1 : ℕ) : ℤ) - 1 < 4 := by omega
  have htoNat : (((jobWeek job + 1 : ℕ) : ℤ) - 1).toNat = jobWeek job := by omega
  rw [Tally.count, h]
  simp only [bind, Except.bind, pure, Except.pure, if_pos hindex, htoNat]
  cases hfinish : job.finish <;> simp [tallyOf, histogram_snoc, hfinish]

/-- One round of the loop: the branches compare with four different types. -/
theorem counts_count_eq (jobs : List JobModel)
    (h : getWeekOfMonth job.date = .ok (jobWeek job + 1 : ℕ)) :
    (countsOf jobs).count getWeekOfMonth job = .ok (countsOf (jobs ++ [job])) := by
  have hself := tally_count_eq jobs h
  unfold WeeklyCounts.count
  split_ifs with h0 h1 h2 h3
  · rw [h0] at hself
    simp only [countsOf, hself, Except.map]
    simp [tallyOf_snoc_of_ne jobs, h0]
  · rw [h1] at hself
    simp only [countsOf, hself, Except.map]
    simp [tallyOf_snoc_of_ne jobs, h1]
  · rw [h2] at hself
    simp only [countsOf, hself, Except.map]
    simp [tallyOf_snoc_of_ne jobs, h2]
  · rw [h3] at hself
    simp only [countsOf, hself, Except.map]
    simp [tallyOf_snoc_of_ne jobs, h3]
  · simp only [countsOf, tallyOf_snoc_of_ne jobs h0, tallyOf_snoc_of_ne jobs h1,
      tallyOf_snoc_of_ne jobs h2, tallyOf_snoc_of_ne jobs h3]

theorem countJobs_eq {jobs : List JobModel}
    (h : ∀ job ∈ jobs, getWeekOfMonth job.date = .ok (jobWeek job + 1 : ℕ)) :
    countJobs getWeekOfMonth jobs = .ok (countsOf jobs) := by
  induction jobs using List.reverseRecOn with
  | nil => rfl
  | append_singleton jobs job ih =>
    have hjobs := ih fun job' hmem => h job' (List.mem_append_left _ hmem)
    have hjob := h job (by simp)
    rw [countJobs] at hjobs ⊢
    rw [List.foldlM_append, hjobs]
    simp [bind, Except.bind, counts_count_eq jobs hjob, pure, Except.pure]

end Loop

theorem getWeekOfMonth_eq {job : JobModel} (h : ∃ date, parseDate job.date = .ok date) :
    StatisticsPage.getWeekOfMonth job.date = .ok (jobWeek job + 1 : ℕ) := by
  obtain ⟨date, hdate⟩ := h
  obtain ⟨-, -, hday, -⟩ := date.bounds
  simp only [StatisticsPage.getWeekOfMonth, jobWeek, hdate, weekIndex, bind, Except.bind, pure,
    Except.pure]
  split
  · next hlate =>
    have hmin : min 3 ((date.day - 1) / 7) = 3 := by omega
    rw [hmin]
    rfl
  · next hearly =>
    have hmin : min 3 ((date.day - 1) / 7) = (date.day - 1) / 7 := by omega
    rw [hmin, ceil_div_seven hday]
    rfl

/-- A rod shows the share of the finished jobs, or zero where there are no jobs. -/
theorem Tally.toY_eq {tally : Tally} {week total finished : ℕ}
    (htotal : tally.total[week]? = some total) (hfinished : tally.finished[week]? = some finished) :
    tally.toY week = some (if total = 0 then 0 else (finished * 100 / total : ℚ)) := by
  rw [Tally.toY, htotal, hfinished]
  simp only [Option.bind_eq_bind, Option.bind_some]
  split
  · rfl
  · next hpos => exact if_neg hpos

theorem toY_tallyOf (jobs : List JobModel) (type : String) {week : ℕ} (h : week < 4) :
    ∃ y, (tallyOf jobs type).toY week = some y ∧ 0 ≤ y ∧ y ≤ 100 := by
  have hsub : ((jobs.filter (·.finish)).filter fun job => job.type = type).Sublist
      (jobs.filter fun job => job.type = type) := List.filter_sublist.filter _
  have hle := hsub.countP_le (p := fun job => jobWeek job = week)
  simp only [Tally.toY, tallyOf, getElem?_histogram 4 jobWeek h, Option.bind_eq_bind,
    Option.bind_some]
  split
  · exact ⟨0, rfl, by norm_num⟩
  · next hpos => exact percentage_le hpos hle

/-- The bar of a type in the group of a week. -/
theorem getElem?_barGroups (counts : WeeklyCounts) {w : ℕ} (hpos : 1 ≤ w) (hle : w ≤ 4) :
    ∃ group, counts.barGroups[w - 1]? = some group ∧ group.length = 4 ∧
      ∀ i : Fin 4, group[(i : ℕ)]? = some ((counts.tally i).toY (w - 1)) := by
  have hweek : [0, 1, 2, 3][w - 1]? = some (w - 1) := by
    obtain rfl | rfl | rfl | rfl : w = 1 ∨ w = 2 ∨ w = 3 ∨ w = 4 := by omega
    all_goals rfl
  refine ⟨_, by rw [WeeklyCounts.barGroups, List.getElem?_map, hweek, Option.map_some], rfl,
    fun i => ?_⟩
  match i with
  | 0 | 1 | 2 | 3 => rfl

theorem countP_jobWeek {jobs : List JobModel} (h : ∀ job ∈ jobs, ∃ date, parseDate job.date = .ok date)
    (p : JobModel → Bool) {w : ℕ} (hpos : 1 ≤ w) (hle : w ≤ 4) :
    ((jobs.filter p).countP fun job => jobWeek job = w - 1) =
      jobs.countP fun job => p job && inWeek w job := by
  rw [List.countP_filter]
  refine List.countP_congr fun job hjob => ?_
  obtain ⟨date, hdate⟩ := h job hjob
  have hweek := inWeek_iff hdate hpos hle
  simp only [jobWeek, hdate, Bool.and_eq_true, decide_eq_true_eq, hweek]
  exact and_comm

theorem tallyOf_sum (jobs : List JobModel) (type : String) :
    (tallyOf jobs type).total.sum = jobs.countP fun job => job.type = type := by
  rw [tallyOf, sum_histogram 4 jobWeek fun job _ => jobWeek_lt job, List.countP_eq_length_filter]

/-- The counters, the sums and the bars of both pages on jobs whose dates can be read. -/
theorem weekly_counts_exact (jobs : List JobModel)
    (h : ∀ job ∈ jobs, ∃ date, parseDate job.date = .ok date) :
    ∃ counts, StatisticsPage.weeklyCounts jobs = .ok counts ∧
      MyStatisticsPage.weeklyCounts jobs = .ok counts ∧
      (∀ i : Fin 4, (counts.tally i).total.length = 4 ∧ (counts.tally i).finished.length = 4 ∧
        (∀ w, 1 ≤ w → w ≤ 4 →
          (counts.tally i).total[w - 1]? =
            some (jobs.countP fun job => job.type = workTypes[i] && inWeek w job) ∧
          (counts.tally i).finished[w - 1]? =
            some (jobs.countP fun job => job.type = workTypes[i] && job.finish && inWeek w job)) ∧
        (counts.tally i).total.sum = jobs.countP fun job => job.type = workTypes[i]) ∧
      (∀ group ∈ counts.barGroups, ∀ height ∈ group, ∃ y, height = some y ∧ 0 ≤ y ∧ y ≤ 100) ∧
      counts.barGroups.length = 4 ∧
      ∀ w, 1 ≤ w → w ≤ 4 → ∃ group, counts.barGroups[w - 1]? = some group ∧ group.length = 4 ∧
        ∀ i : Fin 4, ∃ total finished : ℕ, (counts.tally i).total[w - 1]? = some total ∧
          (counts.tally i).finished[w - 1]? = some finished ∧
          group[(i : ℕ)]? = some (some (if total = 0 then 0 else (finished * 100 / total : ℚ))) := by
  have hcounts : StatisticsPage.weeklyCounts jobs = .ok (countsOf jobs) :=
    countJobs_eq fun job hjob => getWeekOfMonth_eq (h job hjob)
  have htally : ∀ i, (countsOf jobs).tally i = tallyOf jobs workTypes[i] := by
    intro i
    match i with
    | 0 | 1 | 2 | 3 => rfl
  have hweeks : ∀ i w, 1 ≤ w → w ≤ 4 → ((countsOf jobs).tally i).total[w - 1]? =
        some (jobs.countP fun job => job.type = workTypes[i] && inWeek w job) ∧
      ((countsOf jobs).tally i).finished[w - 1]? =
        some (jobs.countP fun job => job.type = workTypes[i] && job.finish && inWeek w job) := by
    intro i w hpos hle
    have hw : w - 1 < 4 := by omega
    rw [htally, tallyOf, getElem?_histogram 4 jobWeek hw, getElem?_histogram 4 jobWeek hw,
      List.filter_filter, countP_jobWeek h _ hpos hle, countP_jobWeek h _ hpos hle]
    exact ⟨rfl, rfl⟩
  refine ⟨countsOf jobs, hcounts, hcounts, fun i => ⟨?_, ?_, hweeks i, ?_⟩, ?_, rfl,
    fun w hpos hle => ?_⟩
  · simp [htally, tallyOf, histogram]
  · simp [htally, tallyOf, histogram]
  · rw [htally]
    exact tallyOf_sum jobs workTypes[i]
  · intro group hgroup height hheight
    obtain ⟨week, hweek, rfl⟩ := List.mem_map.1 hgroup
    have hlt : week < 4 := by
      simp only [List.mem_cons, List.not_mem_nil, or_false] at hweek
      omega
    simp only [countsOf, List.mem_cons, List.not_mem_nil, or_false] at hheight
    rcases hheight with rfl | rfl | rfl | rfl <;> exact toY_tallyOf jobs _ hlt
  · obtain ⟨group, hgroup, hlength, hbars⟩ := getElem?_barGroups (countsOf jobs) hpos hle
    refine ⟨group, hgroup, hlength, fun i => ?_⟩
    obtain ⟨htotal, hfinished⟩ := hweeks i w hpos hle
    exact ⟨_, _, htotal, hfinished, by rw [hbars, Tally.toY_eq htotal hfinished]⟩

/-- Two jobs of one type in the first week, one of which is finished, and jobs of other weeks and
types. -/
def jobsOfMarch : List JobModel :=
  [⟨"家事類", "dishes", "2024-03-05 12:00:00", 7, true⟩,
    ⟨"家事類", "windows", "2024-03-07 08:00:00", 3, false⟩,
    ⟨"作業類", "reading", "2024-03-12 09:30:00", 5, false⟩,
    ⟨"家事類", "floor", "2024-03-29 12:00:00", 4, true⟩]

/-- Half of the jobs of the first week are finished, and the one of the last. -/
theorem weekly_counts_exact_jobsOfMarch : ∃ counts,
    StatisticsPage.weeklyCounts jobsOfMarch = .ok counts ∧ (counts.tally 1).total.sum = 3 ∧
    (∃ group, counts.barGroups[0]? = some group ∧ group[1]? = some (some 50)) ∧
    ∃ group, counts.barGroups[3]? = some group ∧ group[1]? = some (some 100) := by
  have hparse : ∀ job ∈ jobsOfMarch, (parseDate job.date).isOk = true := by decide +kernel
  have hdates : ∀ job ∈ jobsOfMarch, ∃ date, parseDate job.date = .ok date := by
    intro job hjob
    have hok := hparse job hjob
    cases hdate : parseDate job.date with
    | error e => rw [hdate] at hok; cases hok
    | ok date => exact ⟨date, rfl⟩
  obtain ⟨counts, hcounts, -, htallies, -, -, hbars⟩ := weekly_counts_exact jobsOfMarch hdates
  have hheight : ∀ w, 1 ≤ w → w ≤ 4 → ∃ group, counts.barGroups[w - 1]? = some group ∧
      group[1]? = some (some (if (jobsOfMarch.countP fun job => job.type = "家事類" && inWeek w job) = 0
        then 0 else ((jobsOfMarch.countP fun job =>
          job.type = "家事類" && job.finish && inWeek w job : ℕ) * 100 /
            (jobsOfMarch.countP fun job => job.type = "家事類" && inWeek w job : ℕ) : ℚ))) := by
    intro w hpos hle
    obtain ⟨group, hgroup, -, hheights⟩ := hbars w hpos hle
    obtain ⟨total, finished, htotal, hfinished, hheight⟩ := hheights 1
    obtain ⟨htotal', hfinished'⟩ := (htallies 1).2.2.1 w hpos hle
    rw [htotal] at htotal'
    rw [hfinished] at hfinished'
    cases htotal'
    cases hfinished'
    exact ⟨group, hgroup, hheight⟩
  obtain ⟨first, hfirst, hfirst'⟩ := hheight 1 (by decide) (by decide)
  obtain ⟨last, hlast, hlast'⟩ := hheight 4 (by decide) (by decide)
  refine ⟨counts, hcounts, ?_, ⟨first, hfirst, hfirst'.trans ?_⟩, last, hlast, hlast'.trans ?_⟩
  · rw [(htallies 1).2.2.2]
    decide +kernel
  · decide +kernel
  · decide +kernel

end HomeBank
