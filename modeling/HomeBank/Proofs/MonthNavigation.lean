import HomeBank.Lib.Filing
import HomeBank.Lib.Joined
import HomeBank.Proofs.StoredDates
import HomeBank.Spec.MonthNavigation

/-! The row above the lists. Its arrows turn over the months one by one, so that every record
comes by once; and what its header says determines what the list below it shows. -/

namespace HomeBank

open Dart Firestore Select

section Months

theorem monthNumber_inj {a b : Date} :
    monthNumber a = monthNumber b ↔ a.year = b.year ∧ a.month = b.month := by
  have ha := a.month_pos
  have ha' := a.month_le
  have hb := b.month_pos
  have hb' := b.month_le
  simp only [monthNumber]
  omega

theorem monthNumber_nextMonth (d : Date) : monthNumber d.nextMonth = monthNumber d + 1 := by
  have hle := d.month_le
  unfold Date.nextMonth
  split
  · simp only [monthNumber, Date.first]
    omega
  · simp only [monthNumber, Date.first]
    omega

theorem nextMonth_day (d : Date) : d.nextMonth.day = 1 := by
  unfold Date.nextMonth
  split <;> rfl

/-- The midnight of a day that lies in the range of `DateTime`. -/
theorem exists_ofParts {first : Date}
    (h : InRange (stampOf first.year first.month first.day 0 0 0 0)) :
    ∃ d, DateTime.ofParts first 0 0 false = some d ∧ d.toDate = first := by
  unfold DateTime.ofParts
  split
  · exact ⟨_, rfl, rfl⟩
  · next hnot => exact absurd ⟨by decide, by decide, h⟩ hnot

/-- An arrow goes to the next month, unless there is none, and forgets the picked range. -/
theorem arrowRight_eq {s : Selection} (h : monthNumber s.currentDate.toDate < lastMonth) :
    ∃ d, s.arrowRight = ⟨d, []⟩ ∧
      monthNumber d.toDate = monthNumber s.currentDate.toDate + 1 := by
  have hmonth := monthNumber_nextMonth s.currentDate.toDate
  have hday := nextMonth_day s.currentDate.toDate
  have hpos := s.currentDate.toDate.nextMonth.month_pos
  have hle := s.currentDate.toDate.nextMonth.month_le
  have hcur := s.currentDate.bounds
  have hyear := s.currentDate.year_bounds
  have hrange : InRange (stampOf s.currentDate.nextMonth.year s.currentDate.nextMonth.month
      s.currentDate.nextMonth.day 0 0 0 0) := by
    obtain ⟨hlo, -⟩ := s.currentDate.inRange
    rw [hday]
    simp only [monthNumber, lastMonth] at h hmonth
    simp only [InRange, stampOf] at hlo ⊢
    push_cast at hlo ⊢
    omega
  obtain ⟨d, hd, hdate⟩ := exists_ofParts hrange
  refine ⟨d, ?_, ?_⟩
  · rw [Selection.arrowRight, Selection.moveTo, hd]
    rfl
  · rw [hdate, hmonth]

/-- Pressing the arrow again and again. -/
theorem arrowRight_iterate {s : Selection} (k : ℕ)
    (h : monthNumber s.currentDate.toDate + (k + 1) ≤ lastMonth) :
    ∃ d, Selection.arrowRight^[k + 1] s = ⟨d, []⟩ ∧
      monthNumber d.toDate = monthNumber s.currentDate.toDate + (k + 1) := by
  induction k with
  | zero =>
    obtain ⟨d, hd, hmonth⟩ := arrowRight_eq (s := s) (by push_cast at h; omega)
    exact ⟨d, hd, by rw [hmonth]; rfl⟩
  | succ k ih =>
    obtain ⟨d, hd, hmonth⟩ := ih (by push_cast at h ⊢; omega)
    rw [Function.iterate_succ_apply', hd]
    obtain ⟨d', hd', hmonth'⟩ := arrowRight_eq (s := ⟨d, []⟩) (by push_cast at h; simp only; omega)
    refine ⟨d', hd', ?_⟩
    simp only at hmonth'
    push_cast
    omega

end Months

section Turning

variable {contains : DateRange → DateTime → Bool} {α τ : Type} {page : ListPage contains α}
  {s : Selection} {data : List α} {n : ℕ}

theorem ListPage.month_eq {a : α} {d : DateTime} (h : parseDate (page.date a) = .ok d) :
    page.month a = monthNumber d.toDate := by
  rw [month, h]

/-- Without a range a page shows its own elements of the current month. -/
theorem ListPage.build_month (page : ListPage contains α)
    (hdated : ∀ a ∈ data, page.own a = true → ∃ d, parseDate (page.date a) = .ok d)
    (currentDate : DateTime) : page.build ⟨currentDate, []⟩ data =
      .ok ((data.filter page.own).filter fun a => page.month a = monthNumber currentDate.toDate) := by
  rw [page.build_eq]
  refine whereM_eq_ok fun a ha => ?_
  obtain ⟨hmem, hown⟩ := List.mem_filter.1 ha
  obtain ⟨d, hd⟩ := hdated a hmem hown
  rw [page.month_eq hd, Selection.passes, List.head?_nil, isInMonth, hd]
  refine congrArg Except.ok ?_
  rw [Bool.eq_iff_iff, Bool.and_eq_true, decide_eq_true_iff, decide_eq_true_iff,
    decide_eq_true_iff, monthNumber_inj]

/-- The list after each press of the arrow. -/
theorem ListPage.build_turned (page : ListPage contains α)
    (hend : monthNumber s.currentDate.toDate + n ≤ lastMonth) (hdated : page.DatedWithin s data n)
    {k : ℕ} (hk : k < n) : page.build (Selection.arrowRight^[k + 1] s) data =
      .ok ((data.filter page.own).filter fun a =>
        page.month a = monthNumber s.currentDate.toDate + (k + 1)) := by
  obtain ⟨d, hd, hmonth⟩ := arrowRight_iterate (s := s) k (by omega)
  rw [hd, ← hmonth]
  refine page.build_month (fun a ha hown => ?_) d
  obtain ⟨date, hdate, -⟩ := hdated a ha hown
  exact ⟨date, hdate⟩

/-- The months that come up when the arrow is pressed `n` times. -/
def monthsAfter (start : ℤ) (n : ℕ) : List ℤ := (List.range n).map fun k : ℕ => start + (k + 1)

theorem monthsAfter_sorted (start : ℤ) (n : ℕ) : (monthsAfter start n).Pairwise (· < ·) := by
  refine List.pairwise_map.2 (List.pairwise_lt_range.imp fun hlt => ?_)
  omega

theorem mem_monthsAfter {start month : ℤ} : month ∈ monthsAfter start n ↔
    start < month ∧ month ≤ start + n := by
  simp only [monthsAfter, List.mem_map, List.mem_range]
  refine ⟨?_, fun ⟨hlo, hhi⟩ => ⟨(month - start - 1).toNat, by omega, by omega⟩⟩
  rintro ⟨k, hk, rfl⟩
  omega

theorem ListPage.month_mem (hdated : page.DatedWithin s data n) {a : α} (ha : a ∈ data.filter page.own) :
    page.month a ∈ monthsAfter (monthNumber s.currentDate.toDate) n := by
  obtain ⟨hmem, hown⟩ := List.mem_filter.1 ha
  obtain ⟨d, hd, hbounds⟩ := hdated a hmem hown
  rw [page.month_eq hd]
  exact mem_monthsAfter.2 hbounds

/-- The lists that come up are the selections by the months. -/
theorem ListPage.turned_eq (page : ListPage contains α)
    (hend : monthNumber s.currentDate.toDate + n ≤ lastMonth) (hdated : page.DatedWithin s data n) :
    page.turned s data n = .ok ((monthsAfter (monthNumber s.currentDate.toDate) n).map fun month =>
      (data.filter page.own).filter fun a => page.month a = month) := by
  rw [monthsAfter, List.map_map]
  exact mapM_eq_ok fun k hk => page.build_turned hend hdated (List.mem_range.1 hk)

theorem ListPage.turned_perm (hdated : page.DatedWithin s data n) :
    ((monthsAfter (monthNumber s.currentDate.toDate) n).flatMap fun month =>
      (data.filter page.own).filter fun a => page.month a = month).Perm (data.filter page.own) :=
  flatMap_filter_perm page.month ((monthsAfter_sorted _ n).imp fun hlt => hlt.ne)
    fun _ ha => page.month_mem hdated ha

theorem ListPage.turned_in_order (hdated : page.DatedWithin s data n) (horder : page.InOrder data) :
    ((monthsAfter (monthNumber s.currentDate.toDate) n).flatMap fun month =>
      (data.filter page.own).filter fun a => page.month a = month) = data.filter page.own := by
  refine flatMap_filter (monthsAfter_sorted _ n) (horder.imp_of_mem fun {a b} ha hb hle => ?_)
    fun _ ha => page.month_mem hdated ha
  obtain ⟨hmem, hown⟩ := List.mem_filter.1 ha
  obtain ⟨hmem', hown'⟩ := List.mem_filter.1 hb
  obtain ⟨d, hd, -⟩ := hdated a hmem hown
  obtain ⟨d', hd', -⟩ := hdated b hmem' hown'
  rw [page.month_eq hd, page.month_eq hd']
  exact hle d d' hd hd'

/-- Turning over the months shows every element of a page exactly once, and in the order in which
they are stored if that is the order of their months. -/
theorem months_show_each_once (page : ListPage contains α) (s : Selection) (data : List α) (n : ℕ)
    (hend : monthNumber s.currentDate.toDate + n ≤ lastMonth) (hdated : page.DatedWithin s data n) :
    ∃ lists, page.turned s data n = .ok lists ∧ lists.length = n ∧
      lists.flatten.Perm (data.filter page.own) ∧
      (page.InOrder data → lists.flatten = data.filter page.own) :=
  ⟨_, page.turned_eq hend hdated, by simp [monthsAfter], page.turned_perm hdated,
    page.turned_in_order hdated⟩

/-- The tiles that come up, where each own element has one. -/
theorem ListPage.shown_eq (page : ListPage contains α) {tile : α → Except Exception τ} {g : α → τ}
    (hend : monthNumber s.currentDate.toDate + n ≤ lastMonth) (hdated : page.DatedWithin s data n)
    (htile : ∀ a ∈ data.filter page.own, tile a = .ok (g a)) : page.shown tile s data n =
      .ok ((monthsAfter (monthNumber s.currentDate.toDate) n).map fun month =>
        ((data.filter page.own).filter fun a => page.month a = month).map g) := by
  rw [monthsAfter, List.map_map]
  refine mapM_eq_ok fun k hk => ?_
  rw [page.build_turned hend hdated (List.mem_range.1 hk), listView]
  exact mapM_eq_ok fun a ha => htile a (List.mem_filter.1 ha).1

end Turning

section Pages

variable (contains : DateRange → DateTime → Bool)

def detailPage : ListPage contains PointModel :=
  ⟨DetailPage.own, PointModel.date, DetailPage.buildList contains, fun _ _ => rfl⟩

def awardPage : ListPage contains PointModel :=
  ⟨AwardPage.own, PointModel.date, AwardPage.buildList contains, fun _ _ => rfl⟩

def myDetailPage : ListPage contains PointModel :=
  ⟨MyDetailPage.own, PointModel.date, MyDetailPage.buildList contains, fun _ _ => rfl⟩

def myWorksPage (finished : Bool) : ListPage contains JobModel :=
  ⟨MyWorksPage.own finished, JobModel.date,
    fun s data => MyWorksPage.buildList contains s finished data, fun _ _ => rfl⟩

def workDetailPage (type : Fin 4) : ListPage contains JobModel :=
  ⟨fun job => job.type = workTypes[type], JobModel.date,
    fun s data => WorkDetailPage.buildList contains s data type,
    fun s data => workDetail_buildList contains s data type⟩

/-- The child's home page shows at once what its page of open jobs shows month by month. -/
theorem home_page_shows_all_months (s : Selection) (data : List JobModel) (n : ℕ)
    (hend : monthNumber s.currentDate.toDate + n ≤ lastMonth)
    (hdated : (myWorksPage contains false).DatedWithin s data n) :
    ∃ tiles lists, MyHomePage.listTiles data = .ok tiles ∧
      (myWorksPage contains false).shown jobTile s data n = .ok lists ∧
      lists.flatten.Perm tiles ∧
      ((myWorksPage contains false).InOrder data → lists.flatten = tiles) := by
  have htile : ∀ job ∈ data.filter (myWorksPage contains false).own,
      jobTile job = .ok ((jobTile job).toOption.getD ⟨"", "", "", 0⟩) := by
    intro job hjob
    obtain ⟨hmem, hown⟩ := List.mem_filter.1 hjob
    obtain ⟨d, hd, -⟩ := hdated job hmem hown
    obtain ⟨tile, htile⟩ := (completes_jobTile_iff job).2 ⟨d, hd⟩
    rw [htile]
    rfl
  refine ⟨_, _, mapM_eq_ok htile, ListPage.shown_eq _ hend hdated htile, ?_, fun horder => ?_⟩
  · rw [← List.flatMap_def, ← List.map_flatMap]
    exact (ListPage.turned_perm hdated).map _
  · rw [← List.flatMap_def, ← List.map_flatMap]
    exact congrArg _ (ListPage.turned_in_order hdated horder)

/-- Two months before the time of the records below. -/
def startOfYear : Selection := ⟨timeOf "2024-01-20 09:00:00" (by decide +kernel), [sampleDay]⟩

def springRecords : List PointModel := weekRecords ++
  [⟨"運動類", "swimming", "2024-04-02 10:00:00", 2, 11⟩,
    ⟨"兌換獎勵", "book", "2024-04-20 16:00:00", -5, 6⟩]

def springJobs : List JobModel := weekJobs ++
  [⟨"運動類", "swimming", "2024-04-02 10:00:00", 2, false⟩,
    ⟨"家事類", "windows", "2024-04-29 08:00:00", 3, true⟩]

/-- Three presses of the arrow, on each of the five pages. -/
theorem months_show_each_once_startOfYear :
    (∃ lists, (detailPage betweenEnds).turned startOfYear springRecords 3 = .ok lists ∧
      lists.flatten = springRecords.filter DetailPage.own) ∧
    (∃ lists, (awardPage betweenEnds).turned startOfYear springRecords 3 = .ok lists ∧
      lists.flatten = springRecords.filter AwardPage.own) ∧
    (∃ lists, (myDetailPage betweenEnds).turned startOfYear springRecords 3 = .ok lists ∧
      lists.flatten = springRecords) ∧
    (∃ lists, (myWorksPage betweenEnds true).turned startOfYear springJobs 3 = .ok lists ∧
      lists.flatten = springJobs.filter (MyWorksPage.own true)) ∧
    ∃ lists, (workDetailPage betweenEnds 1).turned startOfYear springJobs 3 = .ok lists ∧
      lists.flatten = springJobs.filter fun job => job.type = "家事類" := by
  have hend : monthNumber startOfYear.currentDate.toDate + (3 : ℕ) ≤ lastMonth := by decide +kernel
  obtain ⟨detail, hdetail, -, -, hdetail'⟩ := months_show_each_once (detailPage betweenEnds)
    startOfYear springRecords 3 hend (by decide +kernel)
  obtain ⟨award, haward, -, -, haward'⟩ := months_show_each_once (awardPage betweenEnds)
    startOfYear springRecords 3 hend (by decide +kernel)
  obtain ⟨child, hchild, -, -, hchild'⟩ := months_show_each_once (myDetailPage betweenEnds)
    startOfYear springRecords 3 hend (by decide +kernel)
  obtain ⟨works, hworks, -, -, hworks'⟩ := months_show_each_once (myWorksPage betweenEnds true)
    startOfYear springJobs 3 hend (by decide +kernel)
  obtain ⟨type, htype, -, -, htype'⟩ := months_show_each_once (workDetailPage betweenEnds 1)
    startOfYear springJobs 3 hend (by decide +kernel)
  exact ⟨⟨detail, hdetail, hdetail' (by decide +kernel)⟩,
    ⟨award, haward, haward' (by decide +kernel)⟩,
    ⟨child, hchild, (hchild' (by decide +kernel)).trans rfl⟩,
    ⟨works, hworks, hworks' (by decide +kernel)⟩, type, htype, htype' (by decide +kernel)⟩

theorem home_page_shows_all_months_startOfYear :
    ∃ tiles lists, MyHomePage.listTiles springJobs = .ok tiles ∧
      (myWorksPage betweenEnds false).shown jobTile startOfYear springJobs 3 = .ok lists ∧
      lists.flatten = tiles := by
  obtain ⟨tiles, lists, htiles, hlists, -, horder⟩ := home_page_shows_all_months betweenEnds
    startOfYear springJobs 3 (by decide +kernel) (by decide +kernel)
  exact ⟨tiles, lists, htiles, hlists, horder (by decide +kernel)⟩

end Pages

section Header

theorem isDigit_of_mem_toString {n : ℕ} {c : Char} (h : c ∈ (toString n).toList) :
    c.isDigit = true := by
  change c ∈ n.repr.toList at h
  rw [Nat.toList_repr] at h
  exact Nat.isDigit_of_mem_toDigits (by decide) (by decide) h

theorem notMem_toString {n : ℕ} {c : Char} (hc : c.isDigit = false) : c ∉ (toString n).toList :=
  fun h => by simp [isDigit_of_mem_toString h] at hc

theorem notMem_toString_int {n : ℤ} {c : Char} (hc : c.isDigit = false) (hminus : c ≠ '-') :
    c ∉ (toString n).toList := by
  change c ∉ n.repr.toList
  rw [Int.repr_eq_if]
  split
  · exact notMem_toString hc
  · rw [String.toList_append, List.mem_append]
    rintro (h | h)
    · exact hminus (List.mem_singleton.1 h)
    · exact notMem_toString hc h

theorem toList_dayText (d : DateTime) : (dayText d).toList = (toString d.year).toList ++
    '-' :: ((toString d.month).toList ++ '-' :: (toString d.day).toList) := by
  simp [dayText]

/-- The text of a day names its year, its month and its day. -/
theorem dayText_inj {a b : DateTime} (h : dayText a = dayText b) :
    a.year = b.year ∧ a.month = b.month ∧ a.day = b.day := by
  have hl := congrArg String.toList h
  have hdash : ('-' : Char).isDigit = false := rfl
  rw [toList_dayText, toList_dayText, ← List.cons_append, ← List.append_assoc, ← List.cons_append,
    ← List.append_assoc] at hl
  obtain ⟨hl, hday⟩ := append_cons_inj_of_last (notMem_toString hdash) (notMem_toString hdash) hl
  obtain ⟨hyear, hmonth⟩ := append_cons_inj_of_last (notMem_toString hdash) (notMem_toString hdash) hl
  exact ⟨Int.repr_injective (String.toList_inj.1 hyear), Nat.repr_injective (String.toList_inj.1 hmonth),
    Nat.repr_injective (String.toList_inj.1 hday)⟩

theorem notMem_dayText {d : DateTime} {c : Char} (hc : c.isDigit = false) (hminus : c ≠ '-') :
    c ∉ (dayText d).toList := by
  rw [toList_dayText]
  simp only [List.mem_append, List.mem_cons, not_or]
  exact ⟨notMem_toString_int hc hminus, hminus, notMem_toString hc, hminus, notMem_toString hc⟩

/-- The days of the range are as the calendar delivers them. -/
def Selection.Settled (s : Selection) : Prop :=
  ∀ date ∈ s.range, date.midnight = date ∧ date.isUtc = false

theorem settled_after (now : DateTime) {gestures : List Gesture} (h : ∀ g ∈ gestures, g.Delivered) :
    (Selection.after now gestures).Settled := by
  induction gestures using List.reverseRecOn with
  | nil => simp [Selection.after, Selection.Settled]
  | append_singleton gestures g ih =>
    obtain ⟨hbefore, hg⟩ := List.forall_mem_append.1 h
    rw [List.forall_mem_singleton] at hg
    rw [Selection.after, List.foldl_append]
    change ((Selection.after now gestures).onGesture g).Settled
    cases g with
    | arrowLeft => simp [Selection.onGesture, Selection.arrowLeft, Selection.moveTo, Selection.Settled]
    | arrowRight => simp [Selection.onGesture, Selection.arrowRight, Selection.moveTo, Selection.Settled]
    | picked answer =>
      cases answer with
      | none => exact ih hbefore
      | some dates =>
        rw [Selection.onGesture, Selection.onPicked]
        split
        · exact ih hbefore
        · exact hg

/-- Midnights of the same day are the same. -/
theorem eq_of_day {a b : DateTime} (ha : a.midnight = a ∧ a.isUtc = false)
    (hb : b.midnight = b ∧ b.isUtc = false) (hyear : a.year = b.year) (hmonth : a.month = b.month)
    (hday : a.day = b.day) : a = b := by
  rw [← ha.1, ← hb.1]
  refine DateTime.ext hyear hmonth hday rfl rfl rfl rfl rfl ?_
  change a.isUtc = b.isUtc
  rw [ha.2, hb.2]

theorem toList_rangeHeader (first last : DateTime) : (dayText first ++ " ~ " ++ dayText last).toList =
    ((dayText first).toList ++ [' ']) ++ '~' :: (' ' :: (dayText last).toList) := by
  simp

theorem rangeHeader_inj {first last first' last' : DateTime}
    (h : dayText first ++ " ~ " ++ dayText last = dayText first' ++ " ~ " ++ dayText last') :
    dayText first = dayText first' ∧ dayText last = dayText last' := by
  have hl := congrArg String.toList h
  rw [toList_rangeHeader, toList_rangeHeader] at hl
  have hnot : ∀ d : DateTime, '~' ∉ ' ' :: (dayText d).toList := fun d hmem =>
    (List.mem_cons.1 hmem).elim (by decide) (notMem_dayText (by decide) (by decide))
  obtain ⟨hfirst, hlast⟩ := append_cons_inj_of_last (hnot last) (hnot last') hl
  exact ⟨String.toList_inj.1 (List.append_cancel_right hfirst),
    String.toList_inj.1 (List.cons.inj hlast).2⟩

theorem toList_monthHeader (year : ℤ) (month : ℕ) :
    (toString year ++ "年" ++ toString month ++ "月").toList =
      ((toString year).toList ++ '年' :: (toString month).toList) ++ ['月'] := by
  simp

theorem monthHeader_inj {year year' : ℤ} {month month' : ℕ}
    (h : toString year ++ "年" ++ toString month ++ "月" =
      toString year' ++ "年" ++ toString month' ++ "月") : year = year' ∧ month = month' := by
  have hl := congrArg String.toList h
  rw [toList_monthHeader, toList_monthHeader] at hl
  obtain ⟨hyear, hmonth⟩ := append_cons_inj_of_last (notMem_toString (by decide))
    (notMem_toString (by decide)) (List.append_cancel_right hl)
  exact ⟨Int.repr_injective (String.toList_inj.1 hyear),
    Nat.repr_injective (String.toList_inj.1 hmonth)⟩

/-- A month is not written like a range. -/
theorem monthHeader_ne (year : ℤ) (month : ℕ) (first last : DateTime) :
    toString year ++ "年" ++ toString month ++ "月" ≠ dayText first ++ " ~ " ++ dayText last := by
  intro h
  have hmem : '年' ∈ (dayText first ++ " ~ " ++ dayText last).toList := by
    rw [← h]
    simp
  rw [toList_rangeHeader] at hmem
  simp only [List.mem_append, List.mem_cons, List.not_mem_nil, or_false] at hmem
  have hnot : ∀ d : DateTime, '年' ∉ (dayText d).toList := fun d => notMem_dayText (by decide) (by decide)
  simp [hnot] at hmem

/-- With a range the header and the date test know its ends only. -/
theorem Selection.cases_range (s : Selection) : s.range = [] ∨
    ∃ first ∈ s.range, ∃ last ∈ s.range, s.range.head? = some first ∧ s.range.getLast? = some last := by
  cases hr : s.range with
  | nil => exact .inl rfl
  | cons first rest =>
    refine .inr ⟨first, List.mem_cons_self, (first :: rest).getLast (List.cons_ne_nil _ _),
      List.getLast_mem _, rfl, List.getLast?_eq_getLast_of_ne_nil _⟩

theorem passes_of_header (contains : DateRange → DateTime → Bool) {s s' : Selection} (hs : s.Settled)
    (hs' : s'.Settled) (h : s.header = s'.header) (dateString : String) :
    s.passes contains dateString = s'.passes contains dateString := by
  rcases s.cases_range with hnil | ⟨first, hfirst, last, hlast, hhead, htail⟩
  · rcases s'.cases_range with hnil' | ⟨first', -, last', -, hhead', htail'⟩
    · simp only [Selection.header, hnil, hnil', List.head?_nil] at h
      obtain ⟨hyear, hmonth⟩ := monthHeader_inj h
      simp only [Selection.passes, hnil, hnil', List.head?_nil, isInMonth, hyear, hmonth]
    · simp only [Selection.header, hnil, List.head?_nil, hhead', htail'] at h
      exact absurd h (monthHeader_ne _ _ _ _)
  · rcases s'.cases_range with hnil' | ⟨first', hfirst', last', hlast', hhead', htail'⟩
    · simp only [Selection.header, hnil', List.head?_nil, hhead, htail] at h
      exact absurd h.symm (monthHeader_ne _ _ _ _)
    · simp only [Selection.header, hhead, htail, hhead', htail'] at h
      obtain ⟨hf, hl⟩ := rangeHeader_inj h
      obtain ⟨hyear, hmonth, hday⟩ := dayText_inj hf
      obtain ⟨hyear', hmonth', hday'⟩ := dayText_inj hl
      obtain rfl := eq_of_day (hs first hfirst) (hs' first' hfirst') hyear hmonth hday
      obtain rfl := eq_of_day (hs last hlast) (hs' last' hlast') hyear' hmonth' hday'
      simp only [Selection.passes, hhead, htail, hhead', htail']

/-- A list page shows what its header says: wherever and whenever it has been opened, and whatever
has been done in its row, the same header stands over the same list. -/
theorem header_tells_list {contains : DateRange → DateTime → Bool} {α : Type}
    (page : ListPage contains α) (now now' : DateTime) (gestures gestures' : List Gesture)
    (hdelivered : ∀ g ∈ gestures, g.Delivered) (hdelivered' : ∀ g ∈ gestures', g.Delivered)
    (h : (Selection.after now gestures).header = (Selection.after now' gestures').header)
    (data : List α) : page.build (Selection.after now gestures) data =
      page.build (Selection.after now' gestures') data := by
  rw [page.build_eq, page.build_eq, Selection.where, Selection.where]
  congr 1
  funext element
  exact passes_of_header contains (settled_after now hdelivered) (settled_after now' hdelivered') h _

/-- There and back again, on each of the five pages. -/
theorem header_tells_list_arrows :
    (detailPage betweenEnds).build (.after sampleTime [.arrowRight, .arrowLeft]) springRecords =
      (detailPage betweenEnds).build (.after sampleTime []) springRecords ∧
    (awardPage betweenEnds).build (.after sampleTime [.arrowRight, .arrowLeft]) springRecords =
      (awardPage betweenEnds).build (.after sampleTime []) springRecords ∧
    (myDetailPage betweenEnds).build (.after sampleTime [.arrowRight, .arrowLeft]) springRecords =
      (myDetailPage betweenEnds).build (.after sampleTime []) springRecords ∧
    (myWorksPage betweenEnds true).build (.after sampleTime [.arrowRight, .arrowLeft]) springJobs =
      (myWorksPage betweenEnds true).build (.after sampleTime []) springJobs ∧
    (workDetailPage betweenEnds 1).build (.after sampleTime [.arrowRight, .arrowLeft]) springJobs =
      (workDetailPage betweenEnds 1).build (.after sampleTime []) springJobs := by
  have hdelivered : ∀ g ∈ [Gesture.arrowRight, Gesture.arrowLeft], g.Delivered := by
    simp [Gesture.Delivered]
  have hheader : (Selection.after sampleTime [.arrowRight, .arrowLeft]).header =
      (Selection.after sampleTime []).header := by
    decide +kernel
  refine ⟨header_tells_list _ _ _ _ _ hdelivered ?_ hheader springRecords,
    header_tells_list _ _ _ _ _ hdelivered ?_ hheader springRecords,
    header_tells_list _ _ _ _ _ hdelivered ?_ hheader springRecords,
    header_tells_list _ _ _ _ _ hdelivered ?_ hheader springJobs,
    header_tells_list _ _ _ _ _ hdelivered ?_ hheader springJobs⟩
  all_goals simp

end Header

end HomeBank
