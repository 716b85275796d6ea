import HomeBank.Proofs.MonthPages

/-! Payments one after the other keep the book: the total of every record is the balance
that the users document has at that moment, and because the clock does not go back the
month lists, in the order of the months, are the records in the order of the calls. -/

namespace HomeBank

open Dart Firestore Transaction

/-- The records of the calls, as they are written on a balance. -/
def entriesFrom (balance : Int64) : List (PointArgs × DateTime) → List Entry
  | [] => []
  | (args, today) :: calls =>
    ⟨args, balance + args.point, today⟩ :: entriesFrom (balance + args.point) calls

/-- The balance after the calls. -/
def balanceAfter (balance : Int64) (calls : List (PointArgs × DateTime)) : Int64 :=
  calls.foldl (fun balance call => balance + call.1.point) balance

/-- A call whose transactions commit at once adds its record and its points. -/
theorem changePoint_acceptedAt {email : String} {db : Db} {users : UserDoc} {doc : PointDoc}
    {balance : Int64} {value : Option (Value PointMap)} {entries : List Entry}
    (husers : db.users email = some users) (hb : intField (some users) "point" = .ok balance)
    (hdoc : db.point email = some doc) (hholds : Holds value entries doc) (args : PointArgs)
    (today : DateTime) :
    ∃ db' users' doc', changePoint email args (acceptedAt today) db = (.ok (), db') ∧
      db'.users email = some users' ∧
      intField (some users') "point" = .ok (balance + args.point) ∧
      db'.point email = some doc' ∧
      Holds value (entries ++ [⟨args, balance + args.point, today⟩]) doc' := by
  have htotal : newTotal args.point (some users) = .ok (balance + args.point) := by
    rw [newTotal, hb]
    rfl
  obtain ⟨u, hbody, hholds'⟩ := hholds.addRecordBody args (balance + args.point) today
  have hrecord : addRecord email args (balance + args.point) [(.accepted, today)] db =
      (.ok (), (pointRef email).put (u.apply doc) db) := by
    simp [addRecord, runTransaction, pureBody, pointRef, hdoc, hbody, commit]
  refine ⟨(usersRef email).put ((totalUpdate (balance + args.point)).apply users)
    ((pointRef email).put (u.apply doc) db), _, _, ?_, Function.update_self .., ?_,
    Function.update_self .., hholds'⟩
  · simp [changePoint, acceptedAt, runTransaction, changePointBody, htotal, hrecord, commit,
      show (usersRef email).get db = some users from husers]
  · exact intField_insert users "point" _

theorem changePoints_holds {email : String} {value : Option (Value PointMap)}
    (calls : List (PointArgs × DateTime)) {db : Db} {users : UserDoc} {doc : PointDoc}
    {balance : Int64} {entries : List Entry} (husers : db.users email = some users)
    (hb : intField (some users) "point" = .ok balance) (hdoc : db.point email = some doc)
    (hholds : Holds value entries doc) :
    ∃ db' users' doc', changePoints email calls db = (.ok (), db') ∧
      db'.users email = some users' ∧
      intField (some users') "point" = .ok (balanceAfter balance calls) ∧
      db'.point email = some doc' ∧ Holds value (entries ++ entriesFrom balance calls) doc' := by
  induction calls generalizing db users doc balance entries with
  | nil => exact ⟨db, users, doc, rfl, husers, hb, hdoc, by simpa [entriesFrom] using hholds⟩
  | cons call calls ih =>
    obtain ⟨args, today⟩ := call
    obtain ⟨db₁, users₁, doc₁, hcall, husers₁, hb₁, hdoc₁, hholds₁⟩ :=
      changePoint_acceptedAt husers hb hdoc hholds args today
    obtain ⟨db', users', doc', hcalls, husers', hb', hdoc', hholds'⟩ := ih husers₁ hb₁ hdoc₁ hholds₁
    refine ⟨db', users', doc', ?_, husers', hb', hdoc', ?_⟩
    · rw [changePoints, hcall]
      exact hcalls
    · simpa [entriesFrom] using hholds'

theorem map_args_entriesFrom (balance : Int64) (calls : List (PointArgs × DateTime)) :
    (entriesFrom balance calls).map Entry.args = calls.map Prod.fst := by
  induction calls generalizing balance with
  | nil => rfl
  | cons call calls ih => simp [entriesFrom, ih]

theorem map_today_entriesFrom (balance : Int64) (calls : List (PointArgs × DateTime)) :
    (entriesFrom balance calls).map Entry.today = calls.map Prod.snd := by
  induction calls generalizing balance with
  | nil => rfl
  | cons call calls ih => simp [entriesFrom, ih]

theorem runningTotals_entriesFrom (balance : Int64) (calls : List (PointArgs × DateTime)) :
    RunningTotals balance ((entriesFrom balance calls).map Entry.model) := by
  induction calls generalizing balance with
  | nil => trivial
  | cons call calls ih => exact ⟨rfl, ih _⟩

/-- The last total is the balance. -/
theorem balanceAfter_eq (balance : Int64) (calls : List (PointArgs × DateTime)) :
    balanceAfter balance calls =
      (((entriesFrom balance calls).map Entry.model).getLast?.map PointModel.total).getD balance := by
  induction calls generalizing balance with
  | nil => rfl
  | cons call calls ih =>
    obtain ⟨args, today⟩ := call
    rw [balanceAfter, List.foldl_cons, ← balanceAfter, ih, entriesFrom, List.map_cons,
      List.getLast?_cons]
    cases ((entriesFrom (balance + args.point) calls).map Entry.model).getLast? <;> rfl

/-- A document without records holds none. -/
theorem holds_nil {doc : PointDoc} (h : WithoutRecords doc) : Holds (doc.lookup "parent") [] doc :=
  ⟨rfl, fun key hkey => (h.2 key hkey).symm.imp_right fun hnone => ⟨hnone, rfl⟩, h.1⟩

theorem withoutRecords_parentOnly (parent : String) : WithoutRecords (parentOnly parent) := by
  have hholds : Holds (some (.string parent)) [] (parentOnly parent) := Files.init rfl
  exact ⟨hholds.bag, fun key hkey => (hholds.list_eq key hkey).symm.imp_left And.left⟩

def Entry.monthOf (entry : Entry) : ℤ ×ₗ ℕ := toLex (entry.today.year, entry.today.month)

theorem Entry.month_eq_iff {entry : Entry} {month : ℤ ×ₗ ℕ} (hvalid : (ofLex month).2 ≤ 12) :
    entry.month = nameOf month ↔ entry.monthOf = month := by
  rw [Entry.month, getYearMonth_eq, nameOf,
    monthKey_inj (by have := entry.today.month_le; omega) (by omega)]
  refine ⟨?_, ?_⟩
  · intro ⟨hyear, hmonth⟩
    rw [Entry.monthOf, hyear, hmonth]
    rfl
  · rintro rfl
    exact ⟨rfl, rfl⟩

theorem nameOf_ne_parent (month : ℤ ×ₗ ℕ) : nameOf month ≠ "parent" := monthKey_ne_parent _ _

theorem Entry.month_ne_parent (entry : Entry) : entry.month ≠ "parent" :=
  HomeBank.month_ne_parent entry.today

section Book

variable {value : Option (Value PointMap)} {entries : List Entry} {doc : PointDoc}

theorem Holds.rowsAt (h : Holds value entries doc) {key : String} (hkey : key ≠ "parent") :
    rowsAt doc key = filed Entry.month Entry.stored entries key :=
  listField_eq_ok (h.listField hkey)

theorem Holds.rowsAt_nameOf (h : Holds value entries doc) {month : ℤ ×ₗ ℕ}
    (hvalid : (ofLex month).2 ≤ 12) : Firestore.rowsAt doc (nameOf month) =
      (entries.filter fun entry => entry.monthOf = month).map Entry.stored := by
  rw [h.rowsAt (nameOf_ne_parent month), filed]
  simp only [Entry.month_eq_iff hvalid]

theorem Holds.month_mem (h : Holds value entries doc) {months : List (ℤ ×ₗ ℕ)}
    (hm : Chronological doc months) {entry : Entry} (hentry : entry ∈ entries) :
    entry.monthOf ∈ months := by
  have hrow : entry.stored ∈ Firestore.rowsAt doc entry.month := by
    rw [h.rowsAt entry.month_ne_parent]
    exact List.mem_map_of_mem (List.mem_filter.2 ⟨hentry, by simp⟩)
  obtain ⟨month, hmem, hname⟩ :=
    hm.complete entry.month entry.month_ne_parent (List.ne_nil_of_mem hrow)
  rwa [(Entry.month_eq_iff (hm.valid month hmem).2).1 hname.symm]

theorem monthOf_le (hsorted : entries.Pairwise fun e e' => e.today.stamp ≤ e'.today.stamp) :
    entries.Pairwise fun e e' => e.monthOf ≤ e'.monthOf :=
  hsorted.imp fun h => Prod.Lex.toLex_le_toLex.2 (DateTime.month_of_stamp_le h)

/-- The month lists, in the order of the months, are the records in the order in which they
were written. -/
theorem Holds.flatMap_rowsAt (h : Holds value entries doc)
    (hsorted : entries.Pairwise fun e e' => e.today.stamp ≤ e'.today.stamp)
    {months : List (ℤ ×ₗ ℕ)} (hm : Chronological doc months) :
    (months.flatMap fun month => Firestore.rowsAt doc (nameOf month)) = entries.map Entry.stored := by
  have hlists : (months.flatMap fun month => Firestore.rowsAt doc (nameOf month)) =
      months.flatMap fun month =>
        (entries.filter fun entry => entry.monthOf = month).map Entry.stored :=
    List.flatMap_congr fun month hmem => h.rowsAt_nameOf (hm.valid month hmem).2
  rw [hlists, ← List.map_flatMap,
    flatMap_filter hm.sorted (monthOf_le hsorted) fun entry hentry => h.month_mem hm hentry]

theorem Holds.chronological (h : Holds value entries doc)
    (hsorted : entries.Pairwise fun e e' => e.today.stamp ≤ e'.today.stamp) :
    Chronological doc (entries.map Entry.monthOf).dedup := by
  refine ⟨?_, fun month hmem => ?_, fun key hkey hne => ?_⟩
  · have hle : ((entries.map Entry.monthOf).dedup).Pairwise (· ≤ ·) :=
      (List.pairwise_map.2 (monthOf_le hsorted)).sublist (List.dedup_sublist _)
    exact (hle.and (List.nodup_dedup _)).imp fun h => lt_of_le_of_ne h.1 h.2
  · obtain ⟨entry, -, rfl⟩ := List.mem_map.1 (List.mem_dedup.1 hmem)
    exact ⟨entry.today.month_pos, entry.today.month_le⟩
  · rw [h.rowsAt hkey] at hne
    obtain ⟨row, hrow⟩ := List.exists_mem_of_ne_nil _ hne
    obtain ⟨entry, hentry, -⟩ := List.mem_map.1 hrow
    obtain ⟨hmem, hmonth⟩ := List.mem_filter.1 hentry
    exact ⟨entry.monthOf, List.mem_dedup.2 (List.mem_map_of_mem hmem), of_decide_eq_true hmonth⟩

theorem Holds.own_month (h : Holds value entries doc) {key : String} (hkey : key ≠ "parent")
    {record : PointModel} (hrecord : record.toJson ∈ Firestore.rowsAt doc key) :
    ∃ date, parseDate record.date = .ok date ∧ getYearMonth date = key := by
  rw [h.rowsAt hkey] at hrecord
  obtain ⟨entry, hentry, hstored⟩ := List.mem_map.1 hrecord
  obtain rfl : entry.model = record := PointModel.toJson_injective hstored
  exact ⟨entry.today.toSecond, parseDate_getDateTimeString entry.today,
    of_decide_eq_true (List.mem_filter.1 hentry).2⟩

end Book

theorem entriesFrom_sorted {calls : List (PointArgs × DateTime)}
    (hclock : calls.Pairwise fun a b => a.2.stamp ≤ b.2.stamp) (balance : Int64) :
    (entriesFrom balance calls).Pairwise fun e e' => e.today.stamp ≤ e'.today.stamp := by
  rw [← List.pairwise_map (f := Entry.today) (R := fun t t' : DateTime => t.stamp ≤ t'.stamp),
    map_today_entriesFrom, List.pairwise_map]
  exact hclock

/-- The ledger is a running-balance chain. -/
theorem ledger_is_running_balance (email : String) (calls : List (PointArgs × DateTime)) (db : Db)
    (users : UserDoc) (doc : PointDoc) (b₀ : Int64) (husers : db.users email = some users)
    (hb : intField (some users) "point" = .ok b₀) (hdoc : db.point email = some doc)
    (hempty : WithoutRecords doc) (hclock : calls.Pairwise fun a b => a.2.stamp ≤ b.2.stamp) :
    ∃ db' users' doc' records, changePoints email calls db = (.ok (), db') ∧
      db'.users email = some users' ∧ db'.point email = some doc' ∧
      Booked b₀ calls users' doc' records ∧
      ((∀ call ∈ calls, 0 ≤ call.2.year ∧ call.2.year ≤ 9999) →
        records.Pairwise fun r r' => r.date ≤ r'.date) := by
  obtain ⟨db', users', doc', hcalls, husers', hb', hdoc', hholds⟩ :=
    changePoints_holds calls husers hb hdoc (holds_nil hempty)
  rw [List.nil_append] at hholds
  have hsorted := entriesFrom_sorted hclock b₀
  refine ⟨db', users', doc', (entriesFrom b₀ calls).map Entry.model, hcalls, husers', hdoc', ?_, ?_⟩
  · refine ⟨?_, runningTotals_entriesFrom b₀ calls, ?_, ⟨_, hholds.chronological hsorted⟩,
      fun months hm => ?_, fun key record hkey hrecord => hholds.own_month hkey hrecord, ?_⟩
    · rw [← map_args_entriesFrom b₀ calls, List.map_map]
      rfl
    · rw [hb', balanceAfter_eq]
    · rw [hholds.flatMap_rowsAt hsorted hm, List.map_map]
      rfl
    · exact List.pairwise_map.2 (hsorted.imp fun h => ⟨_, _, parseDate_getDateTimeString _,
        parseDate_getDateTimeString _, DateTime.toSecond_stamp_le h⟩)
  · intro hyears
    have hyears' : ∀ entry ∈ entriesFrom b₀ calls, 0 ≤ entry.today.year ∧ entry.today.year ≤ 9999 := by
      intro entry hentry
      have hmem : entry.today ∈ calls.map Prod.snd := by
        rw [← map_today_entriesFrom b₀ calls]
        exact List.mem_map_of_mem hentry
      obtain ⟨call, hcall, hcall'⟩ := List.mem_map.1 hmem
      rw [← hcall']
      exact hyears call hcall
    refine List.pairwise_map.2 (hsorted.imp_of_mem fun hmem hmem' h => ?_)
    exact getDateTimeString_le h (hyears' _ hmem) (hyears' _ hmem')

def sampleAccount : Db := ⟨fun _ => some sampleUsers, fun _ => some samplePoint, fun _ => none⟩

/-- Two payments in March and one in April. -/
def springCalls : List (PointArgs × DateTime) :=
  [(⟨"作業類", "homework", 5⟩, sampleTime), (⟨"家事類", "dishes", 7⟩, sampleTime),
    (⟨"獎勵類", "sweets", -3⟩, timeOf "2024-04-01 08:30:00" (by decide +kernel))]

theorem ledger_is_running_balance_springCalls :
    ∃ db' users' doc' records, changePoints "child@example.com" springCalls sampleAccount =
        (.ok (), db') ∧
      db'.users "child@example.com" = some users' ∧ db'.point "child@example.com" = some doc' ∧
      Booked 0 springCalls users' doc' records ∧
      records.Pairwise fun r r' => r.date ≤ r'.date := by
  obtain ⟨db', users', doc', records, hcalls, husers', hdoc', hbooked, hdates⟩ :=
    ledger_is_running_balance "child@example.com" springCalls sampleAccount sampleUsers samplePoint 0
      rfl rfl rfl (withoutRecords_parentOnly _) (by decide +kernel)
  exact ⟨db', users', doc', records, hcalls, husers', hdoc', hbooked, hdates (by decide +kernel)⟩

/-- One payment in the last second of the year 9999 and one in the next second. -/
def turnOfMillennium : List (PointArgs × DateTime) :=
  [(⟨"作業類", "homework", 5⟩, timeOf "9999-12-31 23:59:59" (by decide +kernel)),
    (⟨"家事類", "dishes", 7⟩, timeOf "10000-01-01 00:00:00" (by decide +kernel))]

/-- The year 10000 comes later, but its text comes first. -/
theorem ledger_dates_decrease :
    (turnOfMillennium.Pairwise fun a b => a.2.stamp ≤ b.2.stamp) ∧
    ∃ db' users' doc', changePoints "child@example.com" turnOfMillennium sampleAccount =
        (.ok (), db') ∧
      db'.users "child@example.com" = some users' ∧ db'.point "child@example.com" = some doc' ∧
      ¬ ∃ records, Booked 0 turnOfMillennium users' doc' records ∧
        records.Pairwise fun r r' => r.date ≤ r'.date := by
  have hclock : turnOfMillennium.Pairwise fun a b => a.2.stamp ≤ b.2.stamp := by decide +kernel
  have husers : sampleAccount.users "child@example.com" = some sampleUsers := rfl
  have hb : intField (some sampleUsers) "point" = .ok 0 := rfl
  have hdoc : sampleAccount.point "child@example.com" = some samplePoint := rfl
  obtain ⟨db', users', doc', hcalls, husers', -, hdoc', hholds⟩ :=
    changePoints_holds turnOfMillennium husers hb hdoc (holds_nil (withoutRecords_parentOnly _))
  refine ⟨hclock, db', users', doc', hcalls, husers', hdoc', ?_⟩
  intro ⟨records, hbooked, htexts⟩
  have hsorted := entriesFrom_sorted hclock 0
  have hlists := hbooked.lists _ (hholds.chronological hsorted)
  rw [hholds.flatMap_rowsAt hsorted (hholds.chronological hsorted)] at hlists
  have hrecords : records = (entriesFrom 0 turnOfMillennium).map Entry.model := by
    refine List.map_injective_iff.2 PointModel.toJson_injective ?_
    rw [← hlists, List.map_map]
    rfl
  rw [hrecords] at htexts
  revert htexts
  decide +kernel

end HomeBank
