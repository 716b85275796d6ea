import HomeBank.Proofs.JobStore
import HomeBank.Spec.Account
import HomeBank.Spec.ListPages

/-! The two selections agree on every document that the transactions produce. What the
readers return is filed by month, and the month test on the stored date of a record
compares the key of its month with the key of the selected one. -/

namespace HomeBank

open Dart Firestore Select

section Readers

variable {ρ α : Type} {fromMap : ρ → Except Exception α} {data : Document ρ}

/-- The field is a list, and each of its rows stands for a model. -/
def Readable (fromMap : ρ → Except Exception α) (data : Document ρ) (key : String) : Prop :=
  ∃ rows, data.lookup key = some (.list rows) ∧ ∀ row ∈ rows, ∃ model, fromMap row = .ok model

theorem lookup_of_asList {value : Option (Value ρ)} {rows : List ρ} (h : asList value = .ok rows) :
    value = some (.list rows) := by
  unfold asList at h
  split at h <;> simp_all

/-- The loop of the readers adds the decoded lists of the keys, and leaves the parent out. -/
theorem readKeys_eq_ok (list : Records α) {keys : List String} (hnodup : keys.Nodup)
    (hread : ∀ key ∈ keys, key ≠ "parent" → Readable fromMap data key)
    (hnew : ∀ key ∈ keys, key ∉ list) :
    ∃ list', readKeys fromMap data keys list = .ok list' ∧
      ∀ key, list'.lookup key =
        if key ∈ keys ∧ key ≠ "parent" then some (collected fromMap (rowsAt data key))
        else list.lookup key := by
  induction keys generalizing list with
  | nil => exact ⟨list, rfl, fun key => by simp⟩
  | cons key keys ih =>
    obtain ⟨hkey, hkeys⟩ := List.nodup_cons.1 hnodup
    rw [List.forall_mem_cons] at hread hnew
    rw [readKeys]
    split
    · next hne =>
      obtain ⟨rows, hrows, hmodels⟩ := hread.1 hne
      have hnew' : ∀ k ∈ keys, k ∉ list.putIfAbsent key (collected fromMap rows) := fun k hk =>
        Records.notMem_putIfAbsent hnew.1 _ (ne_of_mem_of_not_mem hk hkey) (hnew.2 k hk)
      obtain ⟨list', hlist, hlookup⟩ := ih _ hkeys hread.2 hnew'
      refine ⟨list', ?_, fun k => ?_⟩
      · simp only [hrows, asList, bind, Except.bind, mapM_eq_collected hmodels]
        exact hlist
      · rw [hlookup, Records.lookup_putIfAbsent hnew.1]
        by_cases hk : k = key
        · subst hk
          simp [hkey, hne, rowsAt, hrows, Value.rows]
        · simp [hk]
    · next hparent =>
      obtain ⟨list', hlist, hlookup⟩ := ih list hkeys hread.2 hnew.2
      refine ⟨list', hlist, fun k => ?_⟩
      rw [hlookup]
      by_cases hk : k = key
      · subst hk
        simp [not_not.1 hparent]
      · simp [hk]

/-- The reader of a document all of whose fields can be read, but for the parent. -/
theorem readRecords_eq_ok (h : ∀ key ∈ data, key ≠ "parent" → Readable fromMap data key) :
    ∃ list, readRecords fromMap (some data) = .ok list ∧ ∀ key, list.lookup key =
      if key ∈ data ∧ key ≠ "parent" then some (collected fromMap (rowsAt data key)) else none := by
  obtain ⟨list, hread, hlookup⟩ := readKeys_eq_ok ∅ (List.nodup_reverse.2 data.keys_nodup)
    (fun key hkey => h key (AList.mem_keys.2 (List.mem_reverse.1 hkey)))
    fun key _ => AList.notMem_empty key
  refine ⟨list, hread, fun key => ?_⟩
  simp only [hlookup, List.mem_reverse, AList.mem_keys, AList.lookup_empty]

/-- One round of the loop that returns has found a list of rows that can be read. -/
theorem readKeys_cons {key : String} {keys : List String} {list list' : Records α}
    (hne : key ≠ "parent") (h : readKeys fromMap data (key :: keys) list = .ok list') :
    Readable fromMap data key ∧
      readKeys fromMap data keys (list.putIfAbsent key (collected fromMap (rowsAt data key))) =
        .ok list' := by
  rw [readKeys, if_pos hne] at h
  cases hrows : asList (data.lookup key) with
  | error e => simp [hrows, bind, Except.bind] at h
  | ok rows =>
    cases hmodels : rows.mapM fromMap with
    | error e => simp [hrows, hmodels, bind, Except.bind] at h
    | ok models =>
      have hlookup := lookup_of_asList hrows
      have hreadable := exists_mapM_iff.1 ⟨models, hmodels⟩
      rw [mapM_eq_collected hreadable] at hmodels
      cases hmodels
      rw [hrows] at h
      refine ⟨⟨rows, hlookup, hreadable⟩, ?_⟩
      simpa [bind, Except.bind, mapM_eq_collected hreadable, rowsAt, hlookup, Value.rows] using h

/-- Together the reader's lists are all rows outside of the field of the parent. -/
theorem readKeys_all {list list' : Records α} {keys : List String} (hnodup : keys.Nodup)
    (hnew : ∀ key ∈ keys, key ∉ list) (h : readKeys fromMap data keys list = .ok list') :
    list'.all = list.all ++
      (keys.filter (· ≠ "parent")).flatMap fun key => collected fromMap (rowsAt data key) := by
  induction keys generalizing list with
  | nil =>
    cases h
    simp
  | cons key keys ih =>
    obtain ⟨hkey, hkeys⟩ := List.nodup_cons.1 hnodup
    rw [List.forall_mem_cons] at hnew
    by_cases hne : key = "parent"
    · rw [readKeys, if_neg (not_not.2 hne)] at h
      rw [ih hkeys hnew.2 h, List.filter_cons_of_neg (by simpa using hne)]
    · obtain ⟨-, h⟩ := readKeys_cons hne h
      have hnew' : ∀ k ∈ keys,
          k ∉ list.putIfAbsent key (collected fromMap (rowsAt data key)) := fun k hk =>
        Records.notMem_putIfAbsent hnew.1 _ (ne_of_mem_of_not_mem hk hkey) (hnew.2 k hk)
      rw [ih hkeys hnew' h, Records.all_putIfAbsent hnew.1, List.append_assoc,
        List.filter_cons_of_pos (by simpa using hne), List.flatMap_cons]

/-- The reader throws on any other field that is no list, and on a row that it cannot read. -/
theorem readable_of_readKeys {list list' : Records α} {keys : List String}
    (h : readKeys fromMap data keys list = .ok list') :
    ∀ key ∈ keys, key ≠ "parent" → Readable fromMap data key := by
  induction keys generalizing list with
  | nil => simp
  | cons key keys ih =>
    rw [List.forall_mem_cons]
    by_cases hne : key = "parent"
    · rw [readKeys, if_neg (not_not.2 hne)] at h
      exact ⟨fun h => absurd hne h, ih h⟩
    · obtain ⟨hreadable, h⟩ := readKeys_cons hne h
      exact ⟨fun _ => hreadable, ih h⟩

theorem readable_of_readRecords {list : Records α} (h : readRecords fromMap (some data) = .ok list) :
    ∀ key ∈ data, key ≠ "parent" → Readable fromMap data key := fun key hkey =>
  readable_of_readKeys h key (List.mem_reverse.2 (AList.mem_keys.1 hkey))

/-- Writing a list of rows that can be read leaves the document readable, if the others were. -/
theorem readable_insert (month : String) {rows : List ρ}
    (hrows : ∀ row ∈ rows, ∃ model, fromMap row = .ok model)
    (h : ∀ key ∈ data, key ≠ "parent" → key ≠ month → Readable fromMap data key) :
    ∀ key ∈ data.insert month (.list rows), key ≠ "parent" →
      Readable fromMap (data.insert month (.list rows)) key := by
  intro key hkey hparent
  by_cases hne : key = month
  · exact ⟨rows, by rw [hne, AList.lookup_insert], hrows⟩
  · rw [Readable, AList.lookup_insert_ne hne]
    exact h key (((AList.mem_insert _).1 hkey).resolve_left hne) hparent hne

section Typed

variable {model : ρ → α} (hmodel : ∀ row, fromMap row = .ok (model row))

include hmodel

/-- When every row stands for a model, the reader's lists are the models of all rows outside of
the field of the parent. -/
theorem readRecords_all {list : Records α} (h : readRecords fromMap (some data) = .ok list) :
    (list.all : Multiset α) = (rows (data.erase "parent")).map model := by
  have hall := readKeys_all (List.nodup_reverse.2 data.keys_nodup)
    (fun key _ => AList.notMem_empty key) h
  have hempty : (∅ : Records α).all = [] := rfl
  simp only [collected_eq_map hmodel] at hall
  rw [hall, hempty, List.nil_append, List.filter_reverse, rows_erase_eq_flatMap, Multiset.map_coe,
    List.map_flatMap, Multiset.coe_eq_coe]
  exact (List.reverse_perm _).flatMap_right _

/-- The lists are those of the document, and together they are all its rows. -/
structure Reads (model : ρ → α) (data : Document ρ) (list : Records α) : Prop where
  month : ∀ key, key ≠ "parent" → (list.lookup key).getD [] = (rowsAt data key).map model
  all : (list.all : Multiset α) = (rows data).map model

theorem reads {list : Records α} (h : readRecords fromMap (some data) = .ok list)
    (hparent : rowsAt data "parent" = []) : Reads model data list where
  month key hne := by
    obtain ⟨list', hlist, hlookup⟩ := readRecords_eq_ok (readable_of_readRecords h)
    obtain rfl := Except.ok.inj (h.symm.trans hlist)
    rw [hlookup, collected_eq_map hmodel]
    by_cases hmem : key ∈ data
    · simp [hmem, hne]
    · simp [hmem, rowsAt, AList.lookup_eq_none.2 hmem]
  all := by
    rw [readRecords_all hmodel h, rows_erase data "parent", hparent]
    simp

/-- What the readers make of a document that files its items. -/
theorem readRecords_files {β : Type} {value : Option (Value ρ)} {key : β → String} {stored : β → ρ}
    {items : List β} (h : Files "parent" value key stored items data) :
    ∃ list, readRecords fromMap (some data) = .ok list ∧ "parent" ∉ list ∧
      ∀ k rows, list.lookup k = some rows → rows = (filed key stored items k).map model := by
  have hread : ∀ k ∈ data, k ≠ "parent" → Readable fromMap data k := by
    intro k hk hne
    rcases h.list_eq k hne with hlist | ⟨hnone, -⟩
    · exact ⟨_, hlist, fun row _ => ⟨model row, hmodel row⟩⟩
    · exact absurd hk (AList.lookup_eq_none.1 hnone)
  obtain ⟨list, hlist, hlookup⟩ := readRecords_eq_ok hread
  refine ⟨list, hlist, ?_, fun k rows hk => ?_⟩
  · rw [← AList.lookup_eq_none, hlookup]
    simp
  · rw [hlookup] at hk
    split at hk
    · next hin =>
      rw [← listField_eq_ok (h.listField hin.2), ← collected_eq_map hmodel]
      exact (Option.some.inj hk).symm
    · cases hk

end Typed

end Readers

/-- Documents whose items are filed under the months of their own dates: looking up a month
and testing all dates select the same elements in the same order. -/
theorem selections_agree {ρ α β : Type} {value : Option (Value ρ)} {key : β → String}
    {stored : β → ρ} {items : List β} {data : Document ρ}
    (h : Files "parent" value key stored items data)
    {fromMap : ρ → Except Exception α} {model : ρ → α}
    (hmodel : ∀ row, fromMap row = .ok (model row)) (date : α → String) (time : β → DateTime)
    (hdate : ∀ b, date (model (stored b)) = getDateTimeString (time b))
    (hkey : ∀ b, key b = getYearMonth (time b)) (currentDate : DateTime) :
    ∃ list, readRecords fromMap (some data) = .ok list ∧ "parent" ∉ list ∧
      whereInMonth date currentDate list.all = .ok (recordsAt list currentDate) := by
  obtain ⟨list, hread, hparent, hlist⟩ := readRecords_files hmodel h
  refine ⟨list, hread, hparent, ?_⟩
  -- the month under which an element is filed, read off its own date
  let month (element : α) : String :=
    match parseDate (date element) with
    | .ok t => getYearMonth t
    | .error _ => ""
  have hmonth : ∀ b, month (model (stored b)) = key b := by
    intro b
    simp only [month, hdate, parseDate_getDateTimeString, hkey, getYearMonth_toSecond]
  have hfiled : ∀ k rows, list.lookup k = some rows → ∀ element ∈ rows, ∃ b,
      element = model (stored b) ∧ key b = k := by
    intro k rows hk element hmem
    rw [hlist k rows hk, filed, List.map_map] at hmem
    obtain ⟨b, hb, rfl⟩ := List.mem_map.1 hmem
    exact ⟨b, rfl, by simpa using (List.mem_filter.1 hb).2⟩
  rw [recordsAt, ← Records.filter_all list month, whereInMonth]
  · refine Select.whereM_eq_ok fun element hmem => ?_
    obtain ⟨⟨k, rows⟩, hentry, hrow⟩ := List.mem_flatMap.1 hmem
    obtain ⟨b, rfl, -⟩ := hfiled k rows (AList.mem_lookup_iff.2 hentry) element hrow
    rw [hdate, isInMonth_getDateTimeString, hmonth, hkey]
  · intro k rows hk element hmem
    obtain ⟨b, rfl, hb⟩ := hfiled k rows hk element hmem
    rw [hmonth, hb]

theorem Holds.addRecordBody {value : Option (Value PointMap)} {entries : List Entry} {doc : PointDoc}
    (h : Holds value entries doc) (args : PointArgs) (total : Int64) (today : DateTime) :
    ∃ u, addRecordBody args total today (some doc) = .ok (some u) ∧
      Holds value (entries ++ [⟨args, total, today⟩]) (u.apply doc) := by
  have hne : getYearMonth today ≠ "parent" := month_ne_parent today
  refine ⟨⟨getYearMonth today, .list _⟩, ?_, h.append ⟨args, total, today⟩ hne⟩
  rw [addRecordBody_eq, h.listField hne]
  rfl

/-- The field of the parent is no month list. -/
theorem rowsAt_parent {ρ : Type} {data : Document ρ} {parent : String}
    (h : data.lookup "parent" = some (.string parent)) : rowsAt data "parent" = [] := by
  rw [rowsAt, h]
  rfl

theorem holds_foldl (parent : String) (entries : List Entry) :
    ∃ doc, entries.foldl (fun doc entry => recordHandlers.effect entry doc)
      (some (parentOnly parent)) = some doc ∧ Holds (some (.string parent)) entries doc := by
  induction entries using List.reverseRecOn with
  | nil => exact ⟨_, rfl, Files.init rfl⟩
  | append_singleton entries entry ih =>
    obtain ⟨doc, hdoc, hholds⟩ := ih
    obtain ⟨u, hbody, hholds'⟩ := hholds.addRecordBody entry.args entry.total entry.today
    refine ⟨u.apply doc, ?_, hholds'⟩
    rw [List.foldl_append, hdoc]
    exact recordHandlers.effect_of_body hbody

/-- On every job document that the calls of `JobProvider` can produce, and on every point
document that `addRecord` can produce, the reader returns all rows, and both selections of a month
agree: no date fails to parse, the elements and their order are the same, and the parent is no
month. -/
theorem month_selections_agree (parent : String) (currentDate : DateTime) :
    (∀ ops : List JobOp, ∃ doc list,
      ops.foldl (fun doc op => jobHandlers.effect op doc) (some (parentOnly parent)) = some doc ∧
      getJobRecord (some doc) = .ok list ∧ Reads JobMap.toModel doc list ∧ "parent" ∉ list ∧
      whereInMonth JobModel.date currentDate list.all = .ok (recordsAt list currentDate)) ∧
    ∀ entries : List Entry, ∃ doc list,
      entries.foldl (fun doc entry => recordHandlers.effect entry doc) (some (parentOnly parent)) =
        some doc ∧
      getPointRecord (some doc) = .ok list ∧ Reads PointMap.toModel doc list ∧ "parent" ∉ list ∧
      whereInMonth PointModel.date currentDate list.all = .ok (recordsAt list currentDate) := by
  refine ⟨fun ops => ?_, fun entries => ?_⟩
  · obtain ⟨doc, hdoc, hkeeps⟩ := keeps_foldl parent ops
    obtain ⟨list, hread, hagree⟩ := selections_agree hkeeps JobMap.fromMap_eq JobModel.date
      (fun job => job.date) (fun _ => rfl) (fun _ => rfl) currentDate
    exact ⟨doc, list, hdoc, hread, reads JobMap.fromMap_eq hread (rowsAt_parent hkeeps.header_eq),
      hagree⟩
  · obtain ⟨doc, hdoc, hholds⟩ := holds_foldl parent entries
    obtain ⟨list, hread, hagree⟩ := selections_agree hholds PointMap.fromMap_eq PointModel.date
      Entry.today (fun _ => rfl) (fun _ => rfl) currentDate
    exact ⟨doc, list, hdoc, hread, reads PointMap.fromMap_eq hread (rowsAt_parent hholds.header_eq),
      hagree⟩

/-- The three jobs of March among four. -/
def marchJobs : List JobModel :=
  [⟨"家事類", "dishes", "2024-03-05 12:00:00", 7, true⟩,
    ⟨"作業類", "reading", "2024-03-12 09:30:00", 5, false⟩,
    ⟨"家事類", "windows", "2024-03-29 08:00:00", 3, false⟩]

example : (do
    let list ← getJobRecord ((List.finRange 5).foldl
      (fun doc i => jobHandlers.effect (severalOps i) doc) (some (parentOnly "parent@example.com")))
    let selected ← whereInMonth JobModel.date sampleTime list.all
    return (list.all.length, selected, recordsAt list sampleTime)) =
      .ok (4, marchJobs, marchJobs) := by
  decide +kernel

end HomeBank
