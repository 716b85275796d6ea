import HomeBank.Proofs.ListPages
import HomeBank.Proofs.MonthPages
import HomeBank.Proofs.PointEntry
import HomeBank.Proofs.Reconcile

/-! A redemption from the form to the award page. The record is dated by the clock of the
transaction that writes it, whatever date has been picked in the form. -/

namespace HomeBank

open Dart Firestore Transaction Select

/-- One more record in the document is one more record for the reader. -/
theorem getPointRecord_appended {doc : PointDoc} {list : Records PointModel}
    (h : getPointRecord (some doc) = .ok list) (args : PointArgs) (total : Int64) (today : DateTime) :
    ∃ list', getPointRecord (some (appended args total today doc)) = .ok list' ∧
      (list'.all : Multiset PointModel) = recordModel args total today ::ₘ list.all := by
  have hread := readable_insert (getYearMonth today)
    (fun row (_ : row ∈ rowsAt doc (getYearMonth today) ++ [(recordModel args total today).toJson]) =>
      ⟨_, PointMap.fromMap_eq row⟩)
    fun key hkey hparent _ => readable_of_readRecords h key hkey hparent
  obtain ⟨list', hlist, -⟩ := readRecords_eq_ok hread
  refine ⟨list', hlist, ?_⟩
  rw [readRecords_all PointMap.fromMap_eq hlist, readRecords_all PointMap.fromMap_eq h,
    rows_erase_append doc (month_ne_parent today), Multiset.map_cons, PointMap.toModel_toJson]

theorem getPointRecord_appendedAll {doc : PointDoc} {list : Records PointModel}
    (h : getPointRecord (some doc) = .ok list) (args : PointArgs) (total : Int64)
    (times : List DateTime) :
    ∃ list', getPointRecord (some (appendedAll args total times doc)) = .ok list' ∧
      (list'.all : Multiset PointModel) =
        (times.map (recordModel args total) : Multiset PointModel) + list.all := by
  unfold appendedAll
  induction times generalizing doc list with
  | nil => exact ⟨list, h, by simp⟩
  | cons today times ih =>
    obtain ⟨list₁, h₁, hall₁⟩ := getPointRecord_appended h args total today
    obtain ⟨list', h', hall'⟩ := ih h₁
    refine ⟨list', h', ?_⟩
    rw [hall', hall₁, List.map_cons, ← Multiset.cons_coe, Multiset.add_cons, Multiset.cons_add]

namespace AwardPage

/-- The award page of the account can be shown: its records can be read, and the redemptions
among them can be dated. -/
def Showable (doc : Option PointDoc) : Prop :=
  ∃ records, getPointRecord doc = .ok records ∧
    ∀ r ∈ records.all, own r = true → ∃ d, parseDate r.date = .ok d

/-- The tile of a record that can be dated. -/
def tileOf (r : PointModel) : Tile :=
  match parseDate r.date with
  | .error _ => ⟨"", r.note, amount r.point⟩
  | .ok d => ⟨toString d.month ++ "/" ++ toString d.day, r.note, amount r.point⟩

/-- The redemptions of the month of a date. -/
def shownIn (currentDate : DateTime) (r : PointModel) : Bool :=
  own r && inMonthOf currentDate r.date

theorem tile_eq {r : PointModel} (h : ∃ d, parseDate r.date = .ok d) : tile r = .ok (tileOf r) := by
  obtain ⟨d, hd⟩ := h
  rw [tile, tileOf, hd]
  rfl

theorem mapM_tile {data : List PointModel} (h : ∀ r ∈ data, ∃ d, parseDate r.date = .ok d) :
    data.mapM tile = .ok (data.map tileOf) := by
  induction data with
  | nil => rfl
  | cons r data ih =>
    rw [List.forall_mem_cons] at h
    rw [List.mapM_cons, tile_eq h.1, ih h.2]
    rfl

variable {contains : DateRange → DateTime → Bool} {currentDate : DateTime}

theorem tiles_eq {doc : Option PointDoc} {records : Records PointModel}
    (hread : getPointRecord doc = .ok records)
    (hdates : ∀ r ∈ records.all, own r = true → ∃ d, parseDate r.date = .ok d) :
    tiles contains doc currentDate = .ok ((records.all.filter (shownIn currentDate)).map tileOf) := by
  have hown : ∀ r ∈ records.all.filter own, ∃ d, parseDate r.date = .ok d := fun r hr =>
    hdates r (List.mem_filter.1 hr).1 (List.mem_filter.1 hr).2
  have hbuild : buildList contains ⟨currentDate, []⟩ records.all =
      .ok ((records.all.filter own).filter fun r => inMonthOf currentDate r.date) :=
    whereM_eq_ok fun r hr => passes_month (hown r hr)
  have hsplit : (records.all.filter own).filter (fun r => inMonthOf currentDate r.date) =
      records.all.filter (shownIn currentDate) := by
    rw [List.filter_filter]
    exact List.filter_congr fun _ _ => Bool.and_comm ..
  have hdated : ∀ r ∈ (records.all.filter own).filter fun r => inMonthOf currentDate r.date,
      ∃ d, parseDate r.date = .ok d := fun r hr => hown r (List.mem_filter.1 hr).1
  rw [tiles, hread]
  simp only [bind, Except.bind, hbuild]
  rw [mapM_tile hdated, hsplit]

theorem showable_of_tiles {doc : Option PointDoc} {shown : List Tile}
    (h : tiles contains doc currentDate = .ok shown) : Showable doc := by
  rw [tiles] at h
  cases hread : getPointRecord doc with
  | error e => simp [hread, bind, Except.bind] at h
  | ok records =>
    cases hbuild : buildList contains ⟨currentDate, []⟩ records.all with
    | error e => simp [hread, hbuild, bind, Except.bind] at h
    | ok data =>
      refine ⟨records, hread, fun r hr hown => ?_⟩
      obtain ⟨b, hb⟩ := exists_ok_of_whereM hbuild r (List.mem_filter.2 ⟨hr, hown⟩)
      exact exists_parseDate_of_passes hb

end AwardPage

section Redemption

variable {contains : DateRange → DateTime → Bool} {note : String} {point total : Int64}

/-- The entry of a redemption that is written at a time. -/
def entryAt (note : String) (point : Int64) (today : DateTime) : AwardPage.Tile :=
  ⟨toString today.month ++ "/" ++ toString today.day, note, AwardPage.amount point⟩

theorem shownIn_recordModel (currentDate today : DateTime) :
    AwardPage.shownIn currentDate (recordModel ⟨"兌換獎勵", note, point⟩ total today) =
      decide (getYearMonth today = getYearMonth currentDate) := by
  have hdate : parseDate (recordModel ⟨"兌換獎勵", note, point⟩ total today).date =
      .ok today.toSecond := parseDate_getDateTimeString today
  rw [AwardPage.shownIn, inMonthOf, hdate, Bool.eq_iff_iff]
  simp only [Bool.and_eq_true, decide_eq_true_eq, getYearMonth_inj]
  exact and_iff_right rfl

theorem tileOf_recordModel (today : DateTime) :
    AwardPage.tileOf (recordModel ⟨"兌換獎勵", note, point⟩ total today) =
      entryAt note point today := by
  have hdate : parseDate (recordModel ⟨"兌換獎勵", note, point⟩ total today).date =
      .ok today.toSecond := parseDate_getDateTimeString today
  rw [AwardPage.tileOf, hdate]
  rfl

/-- After redemptions at some times the page of a month shows the entries of those that lie in
it, besides what it has shown before. -/
theorem tiles_appendedAll (contains : DateRange → DateTime → Bool) (note : String) (point total : Int64)
    {doc : PointDoc} (h : AwardPage.Showable (some doc)) (times : List DateTime)
    (currentDate : DateTime) : ∃ shown shown',
    AwardPage.tiles contains (some doc) currentDate = .ok shown ∧
    AwardPage.tiles contains (some (appendedAll ⟨"兌換獎勵", note, point⟩ total times doc))
      currentDate = .ok shown' ∧
    shown'.Perm (shown ++ (times.filter fun today => getYearMonth today = getYearMonth currentDate).map
      (entryAt note point)) := by
  obtain ⟨records, hread, hdates⟩ := h
  obtain ⟨records', hread', hall⟩ := getPointRecord_appendedAll hread ⟨"兌換獎勵", note, point⟩ total times
  have hdates' : ∀ r ∈ records'.all, AwardPage.own r = true → ∃ d, parseDate r.date = .ok d := by
    intro r hr hown
    rw [← Multiset.mem_coe, hall, Multiset.mem_add, Multiset.mem_coe, Multiset.mem_coe] at hr
    rcases hr with hnew | hold
    · obtain ⟨today, -, rfl⟩ := List.mem_map.1 hnew
      exact ⟨_, parseDate_getDateTimeString today⟩
    · exact hdates r hold hown
  refine ⟨_, _, AwardPage.tiles_eq hread hdates, AwardPage.tiles_eq hread' hdates', ?_⟩
  have hperm : records'.all.Perm
      (records.all ++ times.map (recordModel ⟨"兌換獎勵", note, point⟩ total)) := by
    rw [← Multiset.coe_eq_coe, hall, Multiset.coe_add]
    exact Multiset.coe_eq_coe.2 List.perm_append_comm
  refine ((hperm.filter _).map _).trans ?_
  rw [List.filter_append, List.map_append, List.filter_map, List.map_map]
  refine List.Perm.append_left _ (.of_eq ?_)
  have hshown : times.filter (AwardPage.shownIn currentDate ∘
      recordModel ⟨"兌換獎勵", note, point⟩ total) =
        times.filter fun today => getYearMonth today = getYearMonth currentDate :=
    List.filter_congr fun today _ => by
      rw [Function.comp_apply, shownIn_recordModel]
  rw [hshown]
  exact List.map_congr_left fun today _ => by rw [Function.comp_apply, tileOf_recordModel]

/-- Entries of one month have the same date text only on the same day. -/
theorem day_eq_of_entryAt {a b : DateTime} (hmonth : a.month = b.month)
    (h : entryAt note point a = entryAt note point b) : a.day = b.day := by
  have hdate := congrArg (fun tile => tile.date.toList) h
  simp only [entryAt, hmonth, String.toList_append, List.append_assoc, List.append_cancel_left_eq,
    String.toList_inj] at hdate
  exact Nat.repr_injective hdate

/-- The two dates are on the same day. -/
def SameDay (a b : DateTime) : Prop := a.year = b.year ∧ a.month = b.month ∧ a.day = b.day

instance (a b : DateTime) : Decidable (SameDay a b) := inferInstanceAs (Decidable (_ ∧ _ ∧ _))

/-- No redemption is written in a month whose page shows what it has shown before. -/
theorem notMem_of_unchanged {doc : PointDoc} {times : List DateTime} {today : DateTime}
    (h : AwardPage.Showable (some doc)) (hsame : ∃ shown shown',
      AwardPage.tiles contains (some doc) today = .ok shown ∧
      AwardPage.tiles contains (some (appendedAll ⟨"兌換獎勵", note, point⟩ total times doc)) today =
        .ok shown' ∧ shown'.Perm shown) : today ∉ times := by
  intro htoday
  obtain ⟨old, new, hold, hnew, hperm⟩ := hsame
  obtain ⟨old', new', hold', hnew', hgained⟩ :=
    tiles_appendedAll contains note point total h times today
  obtain rfl : old = old' := Except.ok.inj (hold.symm.trans hold')
  obtain rfl : new = new' := Except.ok.inj (hnew.symm.trans hnew')
  have hlength := hgained.length_eq.symm.trans hperm.length_eq
  have hmem : today ∈ times.filter fun t => getYearMonth t = getYearMonth today :=
    List.mem_filter.2 ⟨htoday, by simp⟩
  have hpos := List.length_pos_of_mem hmem
  rw [List.length_append, List.length_map] at hlength
  omega

theorem entryAt_picked (picked : DateTime) (cost : Int64) :
    (⟨toString picked.month ++ "/" ++ toString picked.day, note,
      "  " ++ toString cost ++ "點"⟩ : AwardPage.Tile) = entryAt note (-cost) picked := by
  rw [entryAt, AwardPage.amount, Int64.neg_neg]

/-- What shows as one redemption on the picked day is one, and was written on that day. -/
theorem sameDay_of_showsRedemption {picked : DateTime} {cost : Int64} {times : List DateTime}
    {doc : PointDoc} (h : ShowsRedemption contains picked note cost (some doc)
      (some (appendedAll ⟨"兌換獎勵", note, -cost⟩ total times doc))) :
    AwardPage.Showable (some doc) ∧ times.length = 1 ∧ ∀ today ∈ times, SameDay today picked := by
  obtain ⟨⟨shown, shown', hshown, hshown', hperm⟩, hothers⟩ := h
  have hshowable := AwardPage.showable_of_tiles hshown
  have hmonth : ∀ today ∈ times, getYearMonth today = getYearMonth picked := fun today htoday =>
    not_not.1 fun hne => notMem_of_unchanged hshowable (hothers today hne) htoday
  have hall : (times.filter fun today => getYearMonth today = getYearMonth picked) = times :=
    List.filter_eq_self.2 fun today htoday => by simpa using hmonth today htoday
  obtain ⟨old, new, hold, hnew, hgained⟩ :=
    tiles_appendedAll contains note (-cost) total hshowable times picked
  obtain rfl : shown = old := Except.ok.inj (hshown.symm.trans hold)
  obtain rfl : shown' = new := Except.ok.inj (hshown'.symm.trans hnew)
  rw [hall] at hgained
  have hone : (times.map (entryAt note (-cost))).Perm [entryAt note (-cost) picked] := by
    rw [← entryAt_picked]
    exact (List.perm_append_left_iff shown).1 (hgained.symm.trans hperm)
  have hlength := hone.length_eq
  rw [List.length_map] at hlength
  refine ⟨hshowable, hlength, fun today htoday => ?_⟩
  obtain ⟨hyear, hmonth'⟩ := getYearMonth_inj.1 (hmonth today htoday)
  have hentry := hone.subset (List.mem_map_of_mem htoday)
  exact ⟨hyear, hmonth', day_eq_of_entryAt hmonth' (List.mem_singleton.1 hentry)⟩

/-- One redemption that is written on the picked day shows on it. -/
theorem showsRedemption_of_sameDay {picked today : DateTime} (cost : Int64) {doc : PointDoc}
    (h : AwardPage.Showable (some doc)) (hday : SameDay today picked) :
    ShowsRedemption contains picked note cost (some doc)
      (some (appendedAll ⟨"兌換獎勵", note, -cost⟩ total [today] doc)) := by
  obtain ⟨hyear, hmonth, hday⟩ := hday
  have hkey : getYearMonth today = getYearMonth picked := getYearMonth_inj.2 ⟨hyear, hmonth⟩
  have hentry : entryAt note (-cost) today = entryAt note (-cost) picked := by
    rw [entryAt, hmonth, hday, entryAt]
  refine ⟨?_, fun other hother => ?_⟩
  · obtain ⟨shown, shown', hshown, hshown', hperm⟩ :=
      tiles_appendedAll contains note (-cost) total h [today] picked
    refine ⟨shown, shown', hshown, hshown', ?_⟩
    rw [entryAt_picked]
    simpa [hkey, hentry] using hperm
  · obtain ⟨shown, shown', hshown, hshown', hperm⟩ :=
      tiles_appendedAll contains note (-cost) total h [today] other
    refine ⟨shown, shown', hshown, hshown', ?_⟩
    simpa [hkey, Ne.symm hother] using hperm

/-- Redemptions at some times show as one on the picked day exactly when there is one, on that
day, and the page could be shown before. -/
theorem showsRedemption_iff (picked : DateTime) (cost : Int64) (times : List DateTime)
    (doc : PointDoc) :
    ShowsRedemption contains picked note cost (some doc)
        (some (appendedAll ⟨"兌換獎勵", note, -cost⟩ total times doc)) ↔
      AwardPage.Showable (some doc) ∧ times.length = 1 ∧ ∀ today ∈ times, SameDay today picked := by
  refine ⟨sameDay_of_showsRedemption, ?_⟩
  intro ⟨hshowable, hlength, hdays⟩
  obtain ⟨today, rfl⟩ := List.length_eq_one_iff.1 hlength
  exact showsRedemption_of_sameDay cost hshowable (hdays today (List.mem_singleton_self today))

end Redemption

/-- A redemption shows on the picked date exactly when it is not completed, or when the page
could be shown before, the users transaction is accepted at once, and the clock reads the
picked day when the record is written. -/
theorem redemption_date_iff (contains : DateRange → DateTime → Bool) (form : AwardAddPage.Form)
    (fates : List (Fate × RecordScript)) (db : Db) :
    (∀ db', AwardAddPage.onPressed form fates db = (.ok (), db') →
      ShowsRedemption contains form.selectedDate form.noteText ((tryParse form.pointText).getD 0)
        (db.point form.selectedChild) (db'.point form.selectedChild)) ↔
    runsThrough (db.users form.selectedChild) (db.point form.selectedChild) fates = false ∨
      (AwardPage.Showable (db.point form.selectedChild) ∧ firstAccepted fates = true ∧
        ∀ today ∈ clocks fates, SameDay today form.selectedDate) := by
  unfold AwardAddPage.onPressed
  refine completed_iff fun db' h => ?_
  obtain ⟨d, doc, balance, -, hdoc, -, -, hafter⟩ := changePoint_ok _ h
  rw [← length_clocks_iff (runsThrough_of_ok h), hafter, hdoc]
  exact showsRedemption_iff form.selectedDate _ (clocks fates) doc

def februaryForm : AwardAddPage.Form :=
  ⟨timeOf "2024-02-01 00:00:00" (by decide +kernel), "child@example.com", "ice cream", "5"⟩

/-- A redemption for the first of February that is confirmed in March. -/
def lateRedemption : Except Exception Unit × Db :=
  AwardAddPage.onPressed februaryForm (acceptedAt sampleTime) sampleDb

/-- February shows nothing, and March shows the entry. -/
theorem redemption_shown_in_march :
    lateRedemption.1 = .ok () ∧
    AwardPage.tiles betweenEnds (lateRedemption.2.point "child@example.com") sampleTime =
      .ok [⟨"3/5", "ice cream", "  5點"⟩] ∧
    ¬ ShowsRedemption betweenEnds februaryForm.selectedDate "ice cream" 5
      (sampleDb.point "child@example.com") (lateRedemption.2.point "child@example.com") := by
  refine ⟨by decide +kernel, by decide +kernel, ?_⟩
  rintro ⟨⟨shown, shown', hshown, hshown', hperm⟩, -⟩
  have hempty : AwardPage.tiles betweenEnds (lateRedemption.2.point "child@example.com")
      februaryForm.selectedDate = .ok [] := by decide +kernel
  rw [hempty] at hshown'
  cases hshown'
  simpa using hperm.length_eq

end HomeBank
