import HomeBank.Proofs.Ledger

/-! What is left behind by a call of `changePoint` that throws. `addRecord` is all or
nothing, but the users transaction can still fail after the record inside its handler
has been committed. -/

namespace HomeBank

open Dart Firestore Transaction

/-- The month list of the point document can be read as a list. -/
def monthReadable {ρ : Type} (doc : Option (Document ρ)) (key : String) : Bool :=
  match listField doc key with
  | .ok _ => true
  | .error _ => false

/-- Writing a list where a list can be read leaves every month as readable as it was. -/
theorem monthReadable_insert {ρ : Type} {doc : Document ρ} {month : String} (data : List ρ)
    (h : monthReadable (some doc) month = true) (key : String) :
    monthReadable (some (doc.insert month (.list data))) key = monthReadable (some doc) key := by
  rcases eq_or_ne key month with rfl | hne
  · rw [h]
    simp [monthReadable, listField]
  · simp [monthReadable, listField, AList.lookup_insert_ne hne]

/-- The script lets `addRecord` store its record in the point document. -/
def recordReturns (point : Option PointDoc) : RecordScript → Bool
  | [] => false
  | (.readFails, _) :: _ => false
  | (.refused, today) :: rest =>
    point.isSome && monthReadable point (getYearMonth today) && recordReturns point rest
  | (.accepted, today) :: _ => point.isSome && monthReadable point (getYearMonth today)

/-- The balance in the users document can be read as a number. -/
def balanceReadable (users : Option UserDoc) : Bool :=
  match intField users "point" with
  | .ok _ => true
  | .error _ => false

/-- The handler of `changePoint` returns, with its record stored. -/
def recordStored (users : Option UserDoc) (point : Option PointDoc) (inner : RecordScript) : Bool :=
  balanceReadable users && recordReturns point inner

/-- The first attempt gets as far as a stored record. -/
def firstRecordStored (users : Option UserDoc) (point : Option PointDoc) :
    List (Fate × RecordScript) → Bool
  | [] => false
  | (fate, inner) :: _ => fate != .readFails && recordStored users point inner

/-- The users document exists, and some attempt is accepted after refused ones only, in
all of which the handler returns. -/
def runsThrough (users : Option UserDoc) (point : Option PointDoc) :
    List (Fate × RecordScript) → Bool
  | [] => false
  | (.readFails, _) :: _ => false
  | (.refused, inner) :: rest =>
    users.isSome && recordStored users point inner && runsThrough users point rest
  | (.accepted, inner) :: _ => users.isSome && recordStored users point inner

theorem storable_addRecordBody (args : PointArgs) (total : Int64) (today : DateTime)
    (doc : Option PointDoc) : Storable (addRecordBody args total) doc today =
      (doc.isSome && monthReadable doc (getYearMonth today)) := by
  rw [Storable, addRecordBody_eq, monthReadable]
  cases listField doc (getYearMonth today) <;> simp [Except.map]

theorem attempt_addRecordBody {args : PointArgs} {total : Int64} {today : DateTime}
    {doc d : Option PointDoc}
    (h : attempt errors Update.apply (addRecordBody args total) doc today = .ok d) :
    ∃ u p, doc = some p ∧ addRecordBody args total today (some p) = .ok (some u) ∧
      d = some (u.apply p) := by
  cases hb : addRecordBody args total today doc with
  | error e => simp [attempt, hb, Except.bind] at h
  | ok v =>
    rw [addRecordBody_eq] at hb
    cases hl : listField doc (getYearMonth today) with
    | error e => simp [hl, Except.map] at hb
    | ok data =>
      rw [hl] at hb
      cases hb
      cases doc with
      | none => simp [attempt, addRecordBody_eq, hl, Except.map, Except.bind, commit] at h
      | some p =>
        simp only [attempt, addRecordBody_eq, hl, Except.map, Except.bind, commit] at h
        cases h
        exact ⟨_, p, rfl, by rw [addRecordBody_eq, hl]; rfl, rfl⟩

theorem returns_addRecordBody (args : PointArgs) (total : Int64) (doc : Option PointDoc)
    (inner : RecordScript) :
    Returns (addRecordBody args total) doc inner = recordReturns doc inner := by
  induction inner with
  | nil => rfl
  | cons attempt rest ih =>
    obtain ⟨fate, today⟩ := attempt
    cases fate <;> simp [Returns, recordReturns, storable_addRecordBody, ih]

/-- The point document has gained one record, and its months are as readable as before. -/
structure Appended (args : PointArgs) (p p' : PointDoc) : Prop where
  records : Ledger.recorded p' = args ::ₘ Ledger.recorded p
  readable : ∀ key, monthReadable (some p') key = monthReadable (some p) key

theorem Appended.of_update {args : PointArgs} {total : Int64} {today : DateTime} {p : PointDoc}
    {u : Update PointMap} (h : addRecordBody args total today (some p) = .ok (some u)) :
    Appended args p (u.apply p) := by
  refine ⟨Ledger.recorded_addRecord h, fun key => ?_⟩
  have hm : monthReadable (some p) (getYearMonth today) = true := by
    rw [addRecordBody_eq] at h
    rw [monthReadable]
    cases hl : listField (some p) (getYearMonth today) with
    | error e => simp [hl, Except.map] at h
    | ok data => rfl
  rw [Ledger.addRecordBody_eq_ok h]
  exact monthReadable_insert _ hm key

theorem Appended.recordReturns {args : PointArgs} {p p' : PointDoc} (h : Appended args p p')
    (inner : RecordScript) : recordReturns (some p') inner = recordReturns (some p) inner := by
  induction inner with
  | nil => rfl
  | cons attempt rest ih =>
    obtain ⟨fate, today⟩ := attempt
    cases fate <;> simp [HomeBank.recordReturns, h.readable, ih]

theorem Appended.recordStored {args : PointArgs} {p p' : PointDoc} (h : Appended args p p')
    (users : Option UserDoc) (inner : RecordScript) :
    recordStored users (some p') inner = recordStored users (some p) inner := by
  rw [HomeBank.recordStored, h.recordReturns, HomeBank.recordStored]

theorem Appended.runsThrough {args : PointArgs} {p p' : PointDoc} (h : Appended args p p')
    (users : Option UserDoc) (fates : List (Fate × RecordScript)) :
    runsThrough users (some p') fates = runsThrough users (some p) fates := by
  induction fates with
  | nil => rfl
  | cons attempt rest ih =>
    obtain ⟨fate, inner⟩ := attempt
    cases fate <;> simp [HomeBank.runsThrough, h.recordStored, ih]

/-- `addRecord` throws and changes nothing, or it returns and has appended its record, at the
time of the accepted attempt. -/
theorem addRecord_cases (email : String) (args : PointArgs) (total : Int64) (inner : RecordScript)
    (db : Db) :
    (recordReturns (db.point email) inner = false ∧
      ∃ e, addRecord email args total inner db = (.error e, db)) ∨
    (recordReturns (db.point email) inner = true ∧ ∃ p today, db.point email = some p ∧
      accepted inner = some today ∧ Appended args p (appended args total today p) ∧
      addRecord email args total inner db =
        (.ok (), (pointRef email).put (appended args total today p) db)) := by
  have hiff := returns_iff errors Update.apply (addRecordBody args total) (db.point email) inner
  rw [returns_addRecordBody] at hiff
  rw [addRecord, runTransaction_pureBody]
  change _ ∨ _
  cases hres : result errors Update.apply (addRecordBody args total) (db.point email) inner with
  | error e =>
    refine .inl ⟨?_, e, ?_⟩
    · rw [← Bool.not_eq_true, hiff, hres]
      simp
    · rw [show (pointRef email).get db = db.point email from rfl, hres]
  | ok d =>
    refine .inr ⟨hiff.2 ⟨d, hres⟩, ?_⟩
    obtain ⟨today, hclock, hatt⟩ := result_ok errors Update.apply _ hres
    obtain ⟨u, p, hp, hu, rfl⟩ := attempt_addRecordBody hatt
    have hupdate : u.apply p = appended args total today p := by
      rw [Ledger.addRecordBody_eq_ok hu]
      rfl
    rw [show (pointRef email).get db = db.point email from rfl, hres]
    exact ⟨p, today, hp, hclock, hupdate ▸ .of_update hu, hupdate ▸ rfl⟩

theorem newTotal_error (point : Int64) {users : Option UserDoc} (h : balanceReadable users = false) :
    ∃ e, newTotal point users = .error e := by
  rw [newTotal]
  unfold balanceReadable at h
  cases hb : intField users "point" with
  | error e => exact ⟨e, rfl⟩
  | ok b => rw [hb] at h; cases h

theorem newTotal_ok (point : Int64) {users : Option UserDoc} (h : balanceReadable users = true) :
    ∃ total, newTotal point users = .ok total := by
  rw [newTotal]
  unfold balanceReadable at h
  cases hb : intField users "point" with
  | error e => rw [hb] at h; cases h
  | ok b => exact ⟨b + point, rfl⟩

/-- The handler of `changePoint` throws and changes nothing, or it returns and the record
of its `addRecord` is stored. -/
theorem changePointBody_cases (email : String) (args : PointArgs) (inner : RecordScript)
    (users : Option UserDoc) (db : Db) :
    (recordStored users (db.point email) inner = false ∧
      ∃ e, changePointBody email args inner users db = (.error e, db)) ∨
    (recordStored users (db.point email) inner = true ∧ ∃ total p today,
      newTotal args.point users = .ok total ∧ db.point email = some p ∧
      accepted inner = some today ∧ Appended args p (appended args total today p) ∧
      changePointBody email args inner users db =
        (.ok (some (totalUpdate total)), (pointRef email).put (appended args total today p) db)) := by
  unfold changePointBody
  cases hb : balanceReadable users with
  | false =>
    obtain ⟨e, he⟩ := newTotal_error args.point hb
    exact .inl ⟨by simp [recordStored, hb], e, by rw [he]⟩
  | true =>
    obtain ⟨total, ht⟩ := newTotal_ok args.point hb
    rw [ht]
    rcases addRecord_cases email args total inner db with ⟨hr, e, he⟩ | ⟨hr, p, today, hp, hclock, happ, he⟩
    · exact .inl ⟨by simp [recordStored, hr], e, by simp only [he]⟩
    · exact .inr ⟨by simp [recordStored, hb, hr], total, p, today, rfl, hp, hclock, happ,
        by simp only [he]⟩

section ChangePoint

variable {email : String} (args : PointArgs) {inner : RecordScript} {fate : Fate}
  (rest : List (Fate × RecordScript)) {fates : List (Fate × RecordScript)} {db : Db}

theorem changePoint_readFails :
    changePoint email args ((.readFails, inner) :: rest) db = (.error .unavailable, db) := rfl

/-- An attempt whose handler throws ends the call. -/
theorem changePoint_not_stored (hf : fate ≠ .readFails)
    (h : recordStored (db.users email) (db.point email) inner = false) :
    ∃ e, changePoint email args ((fate, inner) :: rest) db = (.error e, db) := by
  rcases changePointBody_cases email args inner (db.users email) db with ⟨-, e, he⟩ | ⟨hs, -⟩
  · refine ⟨e, ?_⟩
    simp only [changePoint, runTransaction, if_neg hf]
    rw [show (usersRef email).get db = db.users email from rfl, he]
  · rw [h] at hs
    cases hs

/-- An attempt whose handler returns leaves one more record, whatever becomes of it: an
update of a missing users document is rejected, a refused attempt is followed by the
others, an accepted one stores the new balance. -/
theorem changePoint_stored (hf : fate ≠ .readFails)
    (h : recordStored (db.users email) (db.point email) inner = true) :
    ∃ total p today, newTotal args.point (db.users email) = .ok total ∧ db.point email = some p ∧
      accepted inner = some today ∧ Appended args p (appended args total today p) ∧
      changePoint email args ((fate, inner) :: rest) db =
        match db.users email with
        | none => (.error .invalidArgument, (pointRef email).put (appended args total today p) db)
        | some d =>
          if fate = .refused then
            changePoint email args rest ((pointRef email).put (appended args total today p) db)
          else (.ok (), (usersRef email).put ((totalUpdate total).apply d)
            ((pointRef email).put (appended args total today p) db)) := by
  rcases changePointBody_cases email args inner (db.users email) db with
    ⟨hs, -⟩ | ⟨-, total, p, today, ht, hp, hclock, happ, he⟩
  · rw [h] at hs
    cases hs
  · refine ⟨total, p, today, ht, hp, hclock, happ, ?_⟩
    simp only [changePoint, runTransaction, if_neg hf]
    rw [show (usersRef email).get db = db.users email from rfl, he]
    cases db.users email <;> rfl

/-- A call that stores no record in its first attempt throws and changes nothing. -/
theorem changePoint_error (h : firstRecordStored (db.users email) (db.point email) fates = false) :
    ∃ e, changePoint email args fates db = (.error e, db) := by
  cases fates with
  | nil => exact ⟨.aborted, rfl⟩
  | cons attempt rest =>
    obtain ⟨fate, inner⟩ := attempt
    rcases eq_or_ne fate .readFails with rfl | hf
    · exact ⟨.unavailable, changePoint_readFails args rest⟩
    · refine changePoint_not_stored args rest hf ?_
      simpa [firstRecordStored, hf] using h

/-- The number of records of an email. -/
def recordCount (email : String) (db : Db) : ℕ :=
  ((db.point email).map fun d => (Ledger.recorded d).card).getD 0

theorem recordCount_append {args : PointArgs} {p p' : PointDoc} (hp : db.point email = some p)
    (happ : Appended args p p') :
    recordCount email ((pointRef email).put p' db) = recordCount email db + 1 := by
  simp [recordCount, pointRef, hp, happ.records]

theorem recordCount_usersRef (d : UserDoc) :
    recordCount email ((usersRef email).put d db) = recordCount email db := rfl

/-- No call removes a record. -/
theorem recordCount_le (fates : List (Fate × RecordScript)) (db : Db) :
    recordCount email db ≤ recordCount email (changePoint email args fates db).2 := by
  induction fates generalizing db with
  | nil => exact le_rfl
  | cons attempt rest ih =>
    obtain ⟨fate, inner⟩ := attempt
    rcases eq_or_ne fate .readFails with rfl | hf
    · exact le_rfl
    cases hs : recordStored (db.users email) (db.point email) inner with
    | false =>
      obtain ⟨e, he⟩ := changePoint_not_stored args rest hf hs
      rw [he]
    | true =>
      obtain ⟨total, p, today, -, hp, -, happ, he⟩ := changePoint_stored args rest hf hs
      have hcount := recordCount_append hp happ
      rw [he]
      cases db.users email with
      | none => simp only; omega
      | some d =>
        simp only
        split
        · exact le_trans (by omega) (ih _)
        · rw [recordCount_usersRef]
          omega

/-- Once the first attempt has stored its record there is at least one record more,
however the call ends. -/
theorem recordCount_lt (h : firstRecordStored (db.users email) (db.point email) fates = true) :
    recordCount email db < recordCount email (changePoint email args fates db).2 := by
  cases fates with
  | nil => cases h
  | cons attempt rest =>
    obtain ⟨fate, inner⟩ := attempt
    simp only [firstRecordStored, Bool.and_eq_true, bne_iff_ne] at h
    obtain ⟨total, p, today, -, hp, -, happ, he⟩ := changePoint_stored args rest h.1 h.2
    have hcount := recordCount_append hp happ
    rw [he]
    cases db.users email with
    | none => simp only; omega
    | some d =>
      simp only
      split
      · exact lt_of_lt_of_le (by omega) (recordCount_le args rest _)
      · rw [recordCount_usersRef]
        omega

/-- The call returns on the scripts that run through, and on no others. -/
theorem changePoint_returns (email : String) (fates : List (Fate × RecordScript)) (db : Db) :
    (changePoint email args fates db).1 = .ok () ↔
    runsThrough (db.users email) (db.point email) fates = true := by
  induction fates generalizing db with
  | nil => simp [changePoint, runTransaction, runsThrough]
  | cons attempt rest ih =>
    obtain ⟨fate, inner⟩ := attempt
    rcases eq_or_ne fate .readFails with rfl | hf
    · simp [changePoint_readFails args rest, runsThrough]
    have hrun : runsThrough (db.users email) (db.point email) ((fate, inner) :: rest) =
        ((db.users email).isSome && recordStored (db.users email) (db.point email) inner &&
          (fate != .refused || runsThrough (db.users email) (db.point email) rest)) := by
      cases fate <;> simp_all [runsThrough]
    rw [hrun]
    cases hs : recordStored (db.users email) (db.point email) inner with
    | false =>
      obtain ⟨e, he⟩ := changePoint_not_stored args rest hf hs
      simp [he]
    | true =>
      obtain ⟨total, p, today, -, hp, -, happ, he⟩ := changePoint_stored args rest hf hs
      rw [he]
      cases hu : db.users email with
      | none => simp
      | some d =>
        simp only
        split
        · next hr =>
          have hput : ((pointRef email).put (appended args total today p) db).point email =
              some (appended args total today p) := Function.update_self ..
          have husers : ((pointRef email).put (appended args total today p) db).users email =
              some d := hu
          rw [ih, hput, husers, happ.runsThrough, hp, hr]
          simp
        · next hr => simp [hr]

/-- A call that throws has changed its two documents exactly when its first attempt has
stored a record. -/
theorem changePoint_unchanged_iff {e : Exception} {db' : Db}
    (h : changePoint email args fates db = (.error e, db')) :
    (db'.users email = db.users email ∧ db'.point email = db.point email) ↔
      firstRecordStored (db.users email) (db.point email) fates = false := by
  cases hfirst : firstRecordStored (db.users email) (db.point email) fates with
  | true =>
    have hlt := recordCount_lt args hfirst
    rw [h] at hlt
    refine iff_of_false (fun hsame => ?_) (by simp)
    rw [recordCount, recordCount, hsame.2] at hlt
    exact lt_irrefl _ hlt
  | false =>
    obtain ⟨e', he'⟩ := changePoint_error args hfirst
    rw [h] at he'
    cases he'
    exact iff_of_true ⟨rfl, rfl⟩ rfl

/-- The times of the records that a call which returns has stored, one for each attempt. -/
def clocks : List (Fate × RecordScript) → List DateTime
  | [] | (.readFails, _) :: _ => []
  | (.refused, inner) :: rest => (accepted inner).toList ++ clocks rest
  | (.accepted, inner) :: _ => (accepted inner).toList

/-- A call that returns has added its points to the balance once, and stored one record for
each of its attempts, all with the new balance. -/
theorem changePoint_ok {db' : Db} (h : changePoint email args fates db = (.ok (), db')) :
    ∃ d p balance, db.users email = some d ∧ db.point email = some p ∧
      intField (some d) "point" = .ok balance ∧
      db'.users email = some ((totalUpdate (balance + args.point)).apply d) ∧
      db'.point email = some (appendedAll args (balance + args.point) (clocks fates) p) := by
  induction fates generalizing db with
  | nil => cases h
  | cons attempt rest ih =>
    obtain ⟨fate, inner⟩ := attempt
    rcases eq_or_ne fate .readFails with rfl | hf
    · cases h
    cases hs : recordStored (db.users email) (db.point email) inner with
    | false =>
      obtain ⟨e, he⟩ := changePoint_not_stored args rest hf hs
      rw [h] at he
      cases he
    | true =>
      obtain ⟨total, p, today, ht, hp, hclock, -, he⟩ := changePoint_stored args rest hf hs
      rw [h] at he
      obtain ⟨balance, hbalance, rfl⟩ := Ledger.newTotal_eq_ok ht
      cases hu : db.users email with
      | none => simp [hu] at he
      | some d =>
        rw [hu] at hbalance
        simp only [hu] at he
        split at he
        · next hrefused =>
          -- the next attempt reads the same balance
          obtain ⟨d', p', balance', hd', hp', hbalance', husers, hpoint⟩ := ih he.symm
          obtain rfl : d = d' := Option.some.inj (hu.symm.trans hd')
          obtain rfl : balance = balance' := Except.ok.inj (hbalance.symm.trans hbalance')
          have hput := (pointRef email).get_put (appended args (balance + args.point) today p) db
          obtain rfl := Option.some.inj (hput.symm.trans hp')
          subst hrefused
          refine ⟨d, p, balance, rfl, hp, hbalance, husers, ?_⟩
          rw [hpoint, clocks, hclock]
          rfl
        · next hrefused =>
          have haccepted : fate = .accepted := by cases fate <;> simp_all
          subst haccepted
          cases he
          refine ⟨d, p, balance, rfl, hp, hbalance, Function.update_self .., ?_⟩
          rw [clocks, hclock]
          exact Function.update_self ..

theorem changePoint_job (email : String) (fates : List (Fate × RecordScript)) (db : Db) :
    (changePoint email args fates db).2.job = db.job := by
  refine runTransaction_invariant errors (usersRef email) Update.apply
    (P := fun db' => db'.job = db.job) (fun inner users db₁ h => ?_) (fun _ _ h => h) fates rfl
  rcases changePointBody_cases email args inner users db₁ with
    ⟨-, e, he⟩ | ⟨-, total, p, today, -, -, -, -, he⟩
  · rw [he]
    exact h
  · rw [he]
    exact h

end ChangePoint

/-- A call of `changePoint` leaves both documents as they were whenever it throws, exactly
when its first attempt stores no record or the call runs through. -/
theorem changePoint_all_or_nothing_iff (email : String) (args : PointArgs)
    (fates : List (Fate × RecordScript)) (db : Db) :
    (∀ e db', changePoint email args fates db = (.error e, db') →
      db'.users email = db.users email ∧ db'.point email = db.point email) ↔
    firstRecordStored (db.users email) (db.point email) fates = false ∨
      runsThrough (db.users email) (db.point email) fates = true := by
  rw [← changePoint_returns args]
  cases hres : changePoint email args fates db with
  | mk res db' =>
    cases res with
    | ok _ => simp
    | error e =>
      rw [← changePoint_unchanged_iff args hres]
      simp

/-- The child has a point document but no users document. -/
def withoutUsers : Db := ⟨fun _ => none, fun _ => some samplePoint, fun _ => none⟩

/-- The record is stored, then the update of the missing users document is rejected. -/
theorem changePoint_leaves_record :
    ∃ e db', changePoint "child@example.com" ⟨"作業類", "homework", 5⟩ (acceptedAt sampleTime)
        withoutUsers = (.error e, db') ∧
      db'.point "child@example.com" ≠ withoutUsers.point "child@example.com" := by
  have hfirst : firstRecordStored (withoutUsers.users "child@example.com")
      (withoutUsers.point "child@example.com") (acceptedAt sampleTime) = true := by decide +kernel
  have hlt := recordCount_lt ⟨"作業類", "homework", 5⟩ hfirst
  have hret := changePoint_returns ⟨"作業類", "homework", 5⟩ "child@example.com" (acceptedAt sampleTime)
    withoutUsers
  have hruns : runsThrough (withoutUsers.users "child@example.com")
      (withoutUsers.point "child@example.com") (acceptedAt sampleTime) = false := rfl
  cases hres : changePoint "child@example.com" ⟨"作業類", "homework", 5⟩ (acceptedAt sampleTime)
    withoutUsers with
  | mk res db' =>
    rw [hres] at hlt hret
    cases res with
    | ok _ => simp [hruns] at hret
    | error e =>
      refine ⟨e, db', rfl, fun hsame => ?_⟩
      rw [recordCount, recordCount, hsame] at hlt
      exact lt_irrefl _ hlt

end HomeBank
