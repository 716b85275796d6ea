import HomeBank.Proofs.Audit
import HomeBank.Proofs.Confirm
import HomeBank.Proofs.JobViews
import HomeBank.Proofs.StoredDates
import HomeBank.Spec.Family

/-! What holds for a family whatever its parents press and whatever fails. Each button works
on one child only; the balance of a child is explained by its records; and every page of it
can be shown. -/

namespace HomeBank

open Dart Firestore Transaction Locality Payment

theorem Holds.appended {value : Option (Value PointMap)} {entries : List Entry}
    {point : PointDoc} (h : Holds value entries point) (args : PointArgs) (total : Int64)
    (today : DateTime) :
    Holds value (entries ++ [⟨args, total, today⟩]) (HomeBank.appended args total today point) := by
  obtain ⟨u, hbody, hholds⟩ := h.addRecordBody args total today
  rw [Ledger.addRecordBody_eq_ok hbody] at hholds
  exact hholds

/-- What the reader returns are models of the records that the document holds. -/
theorem Holds.exists_list {value : Option (Value PointMap)} {entries : List Entry} {doc : PointDoc}
    (h : Holds value entries doc) : ∃ list, getPointRecord (some doc) = .ok list ∧
      ∀ model ∈ list.all, ∃ entry ∈ entries, model = entry.model := by
  obtain ⟨list, hread, -, hlist⟩ := readRecords_files PointMap.fromMap_eq h
  refine ⟨list, hread, fun model hmodel => ?_⟩
  obtain ⟨⟨key, rows⟩, hentry, hrow⟩ := List.mem_flatMap.1 hmodel
  rw [hlist key rows (AList.mem_lookup_iff.2 hentry), filed, List.map_map] at hrow
  obtain ⟨entry, hmem, rfl⟩ := List.mem_map.1 hrow
  exact ⟨entry, (List.mem_filter.1 hmem).1, rfl⟩

/-- A call on a document that keeps the jobs throws and changes nothing, or returns and has
rearranged them. -/
theorem Keeps.call {email parent : String} {jobs : List Job} {job : JobDoc} {db : Db}
    (hjob : db.job email = some job) (hkeeps : Keeps parent jobs job) (op : JobOp)
    (fates : List Fate) : (∃ e, op.call email fates db = (.error e, db)) ∨
      ∃ db' job', op.call email fates db = (.ok (), db') ∧ db'.users = db.users ∧
        db'.point = db.point ∧ db'.job email = some job' ∧ Keeps parent (op.arrange jobs) job' := by
  rcases op.call_cases email fates db with ⟨-, he⟩ | ⟨-, db', u, he, hbody, husers, hpoint, hnew⟩
  · exact .inl he
  · obtain ⟨job', heffect, hkeeps', -⟩ := hkeeps.effect op
    have hbody' : jobHandlers.body op (some job) = .ok u := hjob ▸ hbody
    rw [jobHandlers.effect_of_body hbody'] at heffect
    refine .inr ⟨db', job', he, husers, hpoint, ?_, hkeeps'⟩
    rcases hnew with ⟨rfl, hsame⟩ | ⟨v, doc, rfl, hdoc, hnew⟩
    · rw [hsame, hjob, ← heffect]
      rfl
    · obtain rfl : doc = job := Option.some.inj (hdoc.symm.trans hjob)
      rw [hnew, ← heffect]
      rfl

/-- The loop of the add-work page gets to some of its dates, and to all of them when it returns. -/
theorem createJobs_keeps (email type note : String) (point : Int64)
    (dates : List (Option DateTime × List Fate)) {parent : String} {jobs : List Job} {doc : JobDoc}
    {db : Db} (hjob : db.job email = some doc) (hkeeps : Keeps parent jobs doc) :
    ∃ k ≤ (dates.map Prod.fst).reduceOption.length, ∃ doc',
      (WorkAddPage.createJobs email type note point dates db).2.job email = some doc' ∧
      Keeps parent (jobs ++ ((dates.map Prod.fst).reduceOption.take k).map
        fun date => Job.opened type note date point) doc' ∧
      ((WorkAddPage.createJobs email type note point dates db).1 = .ok () ↔
        k = (dates.map Prod.fst).reduceOption.length) := by
  induction dates generalizing db jobs doc with
  | nil => exact ⟨0, le_rfl, doc, hjob, by simpa using hkeeps, iff_of_true rfl rfl⟩
  | cons entry dates ih =>
    obtain ⟨_ | date, fates⟩ := entry
    · exact ih hjob hkeeps
    · rw [List.map_cons, List.reduceOption_cons_of_some, List.length_cons, WorkAddPage.createJobs,
        createJob_eq_call]
      rcases Keeps.call hjob hkeeps (.createJob type note date point) fates with
        ⟨e, he⟩ | ⟨db', doc', he, -, -, hjob', hkeeps'⟩
      · rw [he]
        refine ⟨0, Nat.zero_le _, doc, hjob, by simpa using hkeeps, iff_of_false ?_ (by omega)⟩
        exact fun h => by cases h
      · rw [he]
        obtain ⟨k, hk, doc₂, hjob₂, hkeeps₂, hiff⟩ := ih hjob' hkeeps'
        refine ⟨k + 1, by omega, doc₂, hjob₂, ?_, hiff.trans (by omega)⟩
        rw [JobOp.arrange, List.append_assoc, List.singleton_append] at hkeeps₂
        exact hkeeps₂

namespace Family

section Local

variable (email : String)

theorem documents_eq_iff {email : String} {db db' : Db} :
    documents email db = documents email db' ↔ db.users email = db'.users email ∧
      db.point email = db'.point email ∧ db.job email = db'.job email := by
  simp [documents]

theorem local_putUsers (d : UserDoc) : Local documents email fun db =>
    ((), (usersRef email).put d db) where
  alike h := by
    obtain ⟨-, hpoint, hjob⟩ := documents_eq_iff.1 h
    exact ⟨rfl, documents_eq_iff.2 ⟨by simp [usersRef], hpoint, hjob⟩⟩
  frame hne db := by simp [documents, usersRef, hne]

theorem local_putPoint (d : PointDoc) : Local documents email fun db =>
    ((), (pointRef email).put d db) where
  alike h := by
    obtain ⟨husers, -, hjob⟩ := documents_eq_iff.1 h
    exact ⟨rfl, documents_eq_iff.2 ⟨husers, by simp [pointRef], hjob⟩⟩
  frame hne db := by simp [documents, pointRef, hne]

theorem local_putJob (d : JobDoc) : Local documents email fun db =>
    ((), (jobRef email).put d db) where
  alike h := by
    obtain ⟨husers, hpoint, -⟩ := documents_eq_iff.1 h
    exact ⟨rfl, documents_eq_iff.2 ⟨husers, hpoint, by simp [jobRef]⟩⟩
  frame hne db := by simp [documents, jobRef, hne]

theorem local_addRecord (args : PointArgs) (total : Int64) (fates : RecordScript) :
    Local documents email (addRecord email args total fates) :=
  local_runTransaction (fun h => (documents_eq_iff.1 h).2.1) (local_putPoint email)
    (fun _ _ => .pure _) fates

theorem local_changePointBody (args : PointArgs) (inner : RecordScript) (snapshot : Option UserDoc) :
    Local documents email (changePointBody email args inner snapshot) := by
  cases htotal : newTotal args.point snapshot with
  | error e =>
    refine (congrArg (Local documents email) (funext fun db => ?_)).mp (.pure (.error e))
    rw [changePointBody, htotal]
  | ok total =>
    exact (local_addRecord email args total inner).andThen
      (fun _ => .pure (.ok (some (totalUpdate total))))
      (fun h => by simp only [changePointBody, htotal, h])
      fun h => by simp only [changePointBody, htotal, h]

theorem local_changePoint (args : PointArgs) (fates : List (Fate × RecordScript)) :
    Local documents email (changePoint email args fates) :=
  local_runTransaction (fun h => (documents_eq_iff.1 h).1) (local_putUsers email)
    (fun inner => local_changePointBody email args inner) fates

theorem local_call (op : JobOp) (fates : List Fate) :
    Local documents email (op.call email fates) :=
  local_runTransaction (fun h => (documents_eq_iff.1 h).2.2) (local_putJob email)
    (fun _ _ => .pure _) _

theorem local_createJobs (type note : String) (point : Int64)
    (dates : List (Option DateTime × List Fate)) :
    Local documents email (WorkAddPage.createJobs email type note point dates) := by
  induction dates with
  | nil => exact .pure _
  | cons entry dates ih =>
    obtain ⟨date, fates⟩ := entry
    cases date with
    | none => exact ih
    | some date =>
      exact (local_call email (.createJob type note date point) fates).andThen (fun _ => ih)
        (fun h => by simp only [WorkAddPage.createJobs, createJob_eq_call, h])
        fun h => by simp only [WorkAddPage.createJobs, createJob_eq_call, h]

theorem local_confirm (tile : JobModel) (finishFates : List Fate)
    (payFates : List (Fate × RecordScript)) :
    Local documents email (HomeBank.confirm email tile finishFates payFates) :=
  (local_call email (.finishJob tile.type tile.note tile.date tile.point) finishFates).andThen
    (fun _ => local_changePoint email (Payment.payment tile) payFates)
    (fun h => by simp only [HomeBank.confirm, finishJob, h])
    fun h => by simp only [HomeBank.confirm, finishJob, h, Payment.payment]

theorem local_addWork (selectedJob : Option String) (note pointText : String)
    (selectedDate : List (Option DateTime × List Fate)) : Local documents email
      (WorkAddPage.onTap (some email) selectedJob note pointText selectedDate) := by
  cases selectedJob with
  | none => exact .pure _
  | some type =>
    by_cases hpoint : (tryParse pointText).getD 0 ≤ 0
    · refine (congrArg (Local documents email) (funext fun db => ?_)).mp (.pure .pointNotPositive)
      simp only [WorkAddPage.onTap, if_pos hpoint]
    · have hjobs := local_createJobs email type note ((tryParse pointText).getD 0) selectedDate
      refine (congrArg (Local documents email) (funext fun db => ?_)).mp
        (hjobs.map fun result => match result with
          | .ok () => WorkAddPage.Report.success
          | .error e => .failure e)
      simp only [WorkAddPage.onTap, if_neg hpoint]
      rcases WorkAddPage.createJobs email type note _ selectedDate db with ⟨e | _, db'⟩ <;> rfl

end Local

/-- Each button works on the documents of the child that it is about. -/
theorem local_handle (press : Press) (email : String) (h : press.child? = some email) :
    Local documents email press.handle := by
  cases press with
  | addWork selectedChild selectedJob note pointText selectedDate =>
    obtain rfl : selectedChild = some email := h
    exact (local_addWork email selectedJob note pointText selectedDate).map _
  | delete child tile fates =>
    obtain rfl := Option.some.inj h
    exact (local_call child (deleteTile tile) fates).map _
  | confirm child tile finishFates payFates =>
    obtain rfl := Option.some.inj h
    exact (local_confirm child tile finishFates payFates).map _
  | transfer targetAccount noteText pointText fates =>
    obtain rfl := Option.some.inj h
    exact (local_changePoint targetAccount _ fates).map _
  | redeem form fates =>
    obtain rfl := Option.some.inj h
    exact (local_changePoint form.selectedChild _ fates).map _

/-- Without a child nothing is written. -/
theorem idle_handle (press : Press) (h : press.child? = none) : Idle documents press.handle := by
  cases press with
  | addWork selectedChild selectedJob note pointText selectedDate =>
    obtain rfl : selectedChild = none := h
    exact fun _ _ => rfl
  | delete | confirm | transfer | redeem => cases h

theorem handle_other {press : Press} {email : String} (h : press.child? ≠ some email) (db : Db) :
    documents email (press.handle db).2 = documents email db := by
  cases hkey : press.child? with
  | none => exact idle_handle press hkey email db
  | some child => exact (local_handle press child hkey).frame (fun heq => h (by rw [hkey, heq])) db

/-- Children do not interfere. Whatever is pressed about the others, and whatever their
documents are: two families in which a child has the same documents, and in which the same is
pressed about this child, give the same answers to that and leave the child the same documents. -/
theorem children_do_not_interfere (email : String) (db db' : Db) (presses presses' : List Press)
    (hdb : documents email db = documents email db')
    (hpresses : about Press.child? email presses = about Press.child? email presses') :
    answersAbout Press.child? email (run presses db).1 =
        answersAbout Press.child? email (run presses' db').1 ∧
      documents email (run presses db).2 = documents email (run presses' db').2 :=
  exec_alike local_handle idle_handle hpresses hdb

section Books

variable {email : String} {users : UserDoc} {point : PointDoc} {b₀ balance : Int64}
  {value : Option (Value PointMap)} {old entries chain : List Entry} {args : PointArgs} {db db' : Db}
  {log : List (Press × Answer)} {press : Press} {answer : Answer}

/-- What a payment leaves of an account: the records of its attempts behind the old ones and, if
it has returned, the new balance, with which the last of these records was written. -/
structure PaidOnce (email : String) (users : UserDoc) (balance : Int64)
    (value : Option (Value PointMap)) (old : List Entry) (args : PointArgs)
    (outcome : Except Exception Unit × Db) (new : List Entry) : Prop where
  point : ∃ point', outcome.2.point email = some point' ∧ Holds value (old ++ new) point'
  asked : ∀ entry ∈ new, entry.args = args
  users : (∃ e, outcome.1 = .error e ∧ outcome.2.users email = some users) ∨
    outcome.1 = .ok () ∧
      outcome.2.users email = some ((totalUpdate (balance + args.point)).apply users) ∧
      ∃ today, [⟨args, balance + args.point, today⟩].Sublist new

theorem PaidOnce.fails (husers : db.users email = some users) (hpoint : db.point email = some point)
    (hholds : Holds value old point) (e : Exception) :
    PaidOnce email users balance value old args (.error e, db) [] :=
  ⟨⟨point, hpoint, by simpa using hholds⟩, by simp, .inl ⟨e, rfl, husers⟩⟩

theorem paidOnce_changePoint (husers : db.users email = some users)
    (hb : intField (some users) "point" = .ok balance) (hpoint : db.point email = some point)
    (hholds : Holds value old point) (args : PointArgs) (fates : List (Fate × RecordScript)) :
    ∃ new, PaidOnce email users balance value old args (changePoint email args fates db) new := by
  induction fates generalizing db point old with
  | nil => exact ⟨[], .fails husers hpoint hholds _⟩
  | cons attempt rest ih =>
    obtain ⟨fate, inner⟩ := attempt
    rcases eq_or_ne fate .readFails with rfl | hf
    · exact ⟨[], changePoint_readFails args rest ▸ .fails husers hpoint hholds _⟩
    cases hs : recordStored (db.users email) (db.point email) inner with
    | false =>
      obtain ⟨e, he⟩ := changePoint_not_stored args rest hf hs
      exact ⟨[], he ▸ .fails husers hpoint hholds _⟩
    | true =>
      obtain ⟨total, p, today, ht, hp, -, -, he⟩ := changePoint_stored args rest hf hs
      obtain ⟨balance', hbalance', rfl⟩ := Ledger.newTotal_eq_ok ht
      rw [husers] at hbalance'
      obtain rfl : balance = balance' := Except.ok.inj (hb.symm.trans hbalance')
      obtain rfl : p = point := Option.some.inj (hp.symm.trans hpoint)
      have hholds₁ := hholds.appended args (balance + args.point) today
      have hpoint₁ : ((pointRef email).put (appended args (balance + args.point) today p) db).point
          email = some (appended args (balance + args.point) today p) := Function.update_self ..
      have husers₁ : ((pointRef email).put (appended args (balance + args.point) today p) db).users
          email = some users := husers
      rw [he, husers]
      dsimp only
      split
      · -- a refused attempt leaves its record and starts over
        obtain ⟨new, ⟨point', hpoint', hholds'⟩, hasked, hend⟩ := ih husers₁ hpoint₁ hholds₁
        refine ⟨⟨args, balance + args.point, today⟩ :: new, ⟨point', hpoint', by simpa using hholds'⟩,
          List.forall_mem_cons.2 ⟨rfl, hasked⟩, hend.imp_right ?_⟩
        intro ⟨hok, hnew, today', hsub⟩
        exact ⟨hok, hnew, today', hsub.trans (List.sublist_cons_self ..)⟩
      · refine ⟨[⟨args, balance + args.point, today⟩], ⟨_, hpoint₁, hholds₁⟩, by simp, .inr ?_⟩
        exact ⟨rfl, Function.update_self .., today, List.Sublist.refl _⟩

theorem paid_append (log log' : List (Press × Answer)) :
    paid email (log ++ log') = paid email log ++ paid email log' := by
  simp [paid, answersAbout]

theorem paid_singleton : paid email [(press, answer)] =
    if press.child? = some email ∧ answer = .inr (.ok ()) then press.payment?.toList else [] := by
  by_cases hchild : press.child? = some email
  · by_cases hanswer : answer = .inr (.ok ())
    · cases hpay : press.payment? <;> simp [paid, answersAbout, hchild, hanswer, hpay]
    · simp [paid, answersAbout, hchild, hanswer]
  · simp [paid, answersAbout, hchild]

theorem Accounts.init (husers : db.users email = some users)
    (hb : intField (some users) "point" = .ok b₀) (hpoint : db.point email = some point)
    (hholds : Holds value old point) : Accounts email users b₀ value old [] db [] [] where
  users := ⟨users, husers, hb, fun _ _ => rfl⟩
  point := ⟨point, hpoint, by simpa using hholds⟩
  within := List.Sublist.refl _
  chosen := rfl
  totals := trivial
  sum := by simp [paid, answersAbout, Ledger.lastTotal]
  asked := by simp

/-- Presses that pay nothing to the child and leave its account alone. -/
theorem Accounts.unpaid (ha : Accounts email users b₀ value old log db entries chain)
    (hpaid : paid email [(press, answer)] = []) (husers : db'.users email = db.users email)
    (hpoint : db'.point email = db.point email) :
    Accounts email users b₀ value old (log ++ [(press, answer)]) db' entries chain where
  users := husers ▸ ha.users
  point := hpoint ▸ ha.point
  within := ha.within
  chosen := by rw [paid_append, hpaid, List.append_nil, ha.chosen]
  totals := ha.totals
  sum := by rw [paid_append, hpaid, List.append_nil, ha.sum]
  asked entry hentry := by
    obtain ⟨answered, hlog, hasked⟩ := ha.asked entry hentry
    exact ⟨answered, List.mem_append_left _ hlog, hasked⟩

theorem Accounts.paying (ha : Accounts email users b₀ value old log db entries chain)
    (hchild : press.child? = some email) (hpay : press.payment? = some args)
    {users' : UserDoc} (husers' : db.users email = some users')
    {outcome : Except Exception Unit × Db} {new : List Entry}
    (hp : PaidOnce email users' (Ledger.lastTotal b₀ chain) value (old ++ entries) args outcome new) :
    ∃ chain', Accounts email users b₀ value old (log ++ [(press, .inr outcome.1)]) outcome.2
      (entries ++ new) chain' := by
  obtain ⟨users'', husers'', hb', hfields⟩ := ha.users
  obtain rfl : users' = users'' := Option.some.inj (husers'.symm.trans husers'')
  obtain ⟨point', hpoint', hholds'⟩ := hp.point
  have hasked : ∀ entry ∈ entries ++ new, ∃ answered ∈ log ++ [(press, .inr outcome.1)],
      answered.1.child? = some email ∧ answered.1.payment? = some entry.args := by
    intro entry hentry
    rcases List.mem_append.1 hentry with hbefore | hnew
    · obtain ⟨answered, hlog, hanswered⟩ := ha.asked entry hbefore
      exact ⟨answered, List.mem_append_left _ hlog, hanswered⟩
    · exact ⟨_, List.mem_append_right _ (List.mem_singleton_self _), hchild, hp.asked entry hnew ▸ hpay⟩
  have hpoint : ∃ point', outcome.2.point email = some point' ∧
      Holds value (old ++ (entries ++ new)) point' := ⟨point', hpoint', by simpa using hholds'⟩
  rcases hp.users with ⟨e, herror, hsame⟩ | ⟨hok, hnew, today, hsub⟩
  · have hpaid : paid email [(press, .inr outcome.1)] = [] := by simp [paid_singleton, herror]
    refine ⟨chain, ⟨⟨users', hsame, hb', hfields⟩, hpoint, ?_, ?_, ha.totals, ?_, hasked⟩⟩
    · exact ha.within.trans (List.sublist_append_left ..)
    · rw [paid_append, hpaid, List.append_nil, ha.chosen]
    · rw [paid_append, hpaid, List.append_nil, ha.sum]
  · have hpaid : paid email [(press, .inr outcome.1)] = [args] := by
      simp [paid_singleton, hok, hchild, hpay]
    refine ⟨chain ++ [⟨args, Ledger.lastTotal b₀ chain + args.point, today⟩],
      ⟨⟨_, hnew, ?_, fun field hfield => ?_⟩, hpoint, ha.within.append hsub, ?_, ?_, ?_, hasked⟩⟩
    · rw [Ledger.lastTotal_append]
      exact intField_insert users' "point" _
    · rw [← hfields field hfield]
      exact AList.lookup_insert_ne hfield
    · rw [paid_append, hpaid, List.map_append, ha.chosen]
      rfl
    · rw [List.map_append, List.map_singleton, runningTotals_append, Ledger.lastTotal_eq]
      exact ⟨ha.totals, rfl⟩
    · rw [Ledger.lastTotal_append, paid_append, hpaid, List.map_append, List.sum_append, ha.sum]
      simp [add_assoc]

/-- The calls on a job document touch no account. -/
theorem call_accounts (op : JobOp) (email : String) (fates : List Fate) (db : Db) :
    (op.call email fates db).2.users = db.users ∧ (op.call email fates db).2.point = db.point := by
  rcases op.call_cases email fates db with ⟨-, e, he⟩ | ⟨-, db', u, he, -, husers, hpoint, -⟩
  · rw [he]
    exact ⟨rfl, rfl⟩
  · rw [he]
    exact ⟨husers, hpoint⟩

theorem createJobs_accounts (email type note : String) (point : Int64)
    (dates : List (Option DateTime × List Fate)) (db : Db) :
    (WorkAddPage.createJobs email type note point dates db).2.users = db.users ∧
      (WorkAddPage.createJobs email type note point dates db).2.point = db.point := by
  induction dates generalizing db with
  | nil => exact ⟨rfl, rfl⟩
  | cons entry dates ih =>
    obtain ⟨date, fates⟩ := entry
    cases date with
    | none => exact ih db
    | some date =>
      have hcall := call_accounts (.createJob type note date point) email fates db
      rw [WorkAddPage.createJobs, createJob_eq_call]
      cases hres : (JobOp.createJob type note date point).call email fates db with
      | mk result db' =>
        rw [hres] at hcall
        cases result with
        | error e => exact hcall
        | ok _ => exact ⟨(ih db').1.trans hcall.1, (ih db').2.trans hcall.2⟩

/-- What a press does to an account: it asks for no payment and leaves it alone, or it ends
before its payment, or with it. -/
theorem handle_accounts (press : Press) (db : Db) :
    (press.payment? = none ∧ (press.handle db).2.users = db.users ∧
      (press.handle db).2.point = db.point) ∨
    ∃ args, press.payment? = some args ∧ ∃ db₁, db₁.users = db.users ∧ db₁.point = db.point ∧
      ((∃ e, press.handle db = (.inr (.error e), db₁)) ∨
        ∃ email fates, press.child? = some email ∧
          press.handle db = (changePoint email args fates db₁).map .inr id) := by
  cases press with
  | addWork selectedChild selectedJob note pointText selectedDate =>
    refine .inl ⟨rfl, ?_⟩
    cases selectedChild with
    | none => exact ⟨rfl, rfl⟩
    | some email =>
      cases selectedJob with
      | none => exact ⟨rfl, rfl⟩
      | some type =>
        have hjobs := createJobs_accounts email type note ((tryParse pointText).getD 0) selectedDate db
        simp only [Press.handle, WorkAddPage.onTap]
        split
        · exact ⟨rfl, rfl⟩
        · split <;> rename_i heq <;> rw [heq] at hjobs <;> exact hjobs
  | delete email tile fates => exact .inl ⟨rfl, call_accounts (deleteTile tile) email fates db⟩
  | confirm email tile finishFates payFates =>
    have hcall := call_accounts (finishTile tile) email finishFates db
    refine .inr ⟨_, rfl, ?_⟩
    simp only [Press.handle, HomeBank.confirm, finishJob]
    cases hres : (finishTile tile).call email finishFates db with
    | mk result db₁ =>
      rw [hres] at hcall
      rw [finishTile] at hres
      rw [hres]
      refine ⟨db₁, hcall.1, hcall.2, ?_⟩
      cases result with
      | error e => exact .inl ⟨e, rfl⟩
      | ok _ => exact .inr ⟨email, payFates, rfl, rfl⟩
  | transfer targetAccount noteText pointText fates =>
    exact .inr ⟨_, rfl, db, rfl, rfl, .inr ⟨targetAccount, fates, rfl, rfl⟩⟩
  | redeem form fates =>
    exact .inr ⟨_, rfl, db, rfl, rfl, .inr ⟨form.selectedChild, fates, rfl, rfl⟩⟩

theorem accounts_step (ha : Accounts email users b₀ value old log db entries chain) (press : Press) :
    ∃ entries' chain', Accounts email users b₀ value old (log ++ [(press, (press.handle db).1)])
      (press.handle db).2 entries' chain' := by
  by_cases hchild : press.child? = some email
  · rcases handle_accounts press db with ⟨hnone, husers, hpoint⟩ |
      ⟨args, hpay, db₁, husers, hpoint, ⟨e, he⟩ | ⟨child, fates, hchild', he⟩⟩
    · refine ⟨entries, chain, ha.unpaid ?_ (congrFun husers email) (congrFun hpoint email)⟩
      simp [paid_singleton, hnone]
    · rw [he]
      exact ⟨entries, chain, ha.unpaid (by simp [paid_singleton]) (congrFun husers email)
        (congrFun hpoint email)⟩
    · obtain rfl : child = email := Option.some.inj (hchild'.symm.trans hchild)
      obtain ⟨users', husers', hb', -⟩ := ha.users
      obtain ⟨point', hpoint', hholds'⟩ := ha.point
      obtain ⟨new, hpaid⟩ := paidOnce_changePoint ((congrFun husers child).trans husers') hb'
        ((congrFun hpoint child).trans hpoint') hholds' args fates
      rw [he]
      exact ⟨_, ha.paying hchild hpay husers' hpaid⟩
  · obtain ⟨husers, hpoint, -⟩ := documents_eq_iff.1 (handle_other hchild db)
    exact ⟨entries, chain, ha.unpaid (by simp [paid_singleton, hchild]) husers hpoint⟩

end Books

/-- Two children without payments and jobs. -/
def siblings : Db :=
  ⟨fun _ => some sampleUsers, fun _ => some samplePoint, fun _ => some (parentOnly "parent@example.com")⟩

/-- A payment whose commit is refused once, and which then returns. -/
def transferAgain : Press :=
  .transfer "child@example.com" "present" "5"
    [(.refused, [(.accepted, sampleTime)]), (.accepted, [(.accepted, sampleTime)])]

/-- A redemption that fails after its record has been stored. -/
def lostRedemption : Press :=
  .redeem ⟨sampleTime, "child@example.com", "ice cream", "3"⟩
    [(.refused, [(.accepted, sampleTime)]), (.readFails, [])]

def siblingsTransfer : Press :=
  .transfer "sibling@example.com" "present" "7" (acceptedAt sampleTime)

theorem children_do_not_interfere_siblings :
    documents "child@example.com" (run [siblingsTransfer, transferAgain, siblingsTransfer] siblings).2 =
      documents "child@example.com" (run [transferAgain] siblings).2 :=
  (children_do_not_interfere "child@example.com" siblings siblings
    [siblingsTransfer, transferAgain, siblingsTransfer] [transferAgain] rfl rfl).2

/-- Whatever is pressed in a family, and wherever its transactions fail: the records of a child
are its old ones and others that presses about this child have asked for; among these are, in
order, the payments that have returned, each with the balance before it plus its points; and
the balance is the old one plus the points of these payments. Nothing else of the users
document changes. The old balance can be read, and the point document is as the provider writes
it. -/
theorem family_accounts (email : String) (db : Db) (users : UserDoc) (point : PointDoc) (b₀ : Int64)
    (value : Option (Value PointMap)) (old : List Entry) (husers : db.users email = some users)
    (hb : intField (some users) "point" = .ok b₀) (hpoint : db.point email = some point)
    (hholds : Holds value old point) (presses : List Press) :
    ∃ entries chain, Accounts email users b₀ value old (run presses db).1 (run presses db).2
      entries chain := by
  refine exec_induction (I := fun log db => ∃ entries chain,
    Accounts email users b₀ value old log db entries chain)
    ⟨[], [], .init husers hb hpoint hholds⟩ (fun _ _ press ⟨_, _, ha⟩ => ?_) presses
  exact accounts_step ha press

def sampleDay : List Press := [transferAgain, siblingsTransfer, lostRedemption]

/-- The redemption has left a record, but it is not among the payments. -/
theorem family_accounts_siblings : ∃ (users' : UserDoc) (entries chain : List Entry),
    (run sampleDay siblings).2.users "child@example.com" = some users' ∧
      intField (some users') "point" = .ok 5 ∧ chain.Sublist entries ∧
      chain.map Entry.args = [⟨"", "present", 5⟩] ∧
      ∃ point', (run sampleDay siblings).2.point "child@example.com" = some point' ∧
        (rows point').card = 3 := by
  obtain ⟨entries, chain, ha⟩ := family_accounts "child@example.com" siblings sampleUsers samplePoint 0
    _ [] rfl rfl rfl (Files.init rfl) sampleDay
  have hpaid : paid "child@example.com" (run sampleDay siblings).1 = [⟨"", "present", 5⟩] := by
    decide +kernel
  have hcard : ((run sampleDay siblings).2.point "child@example.com").elim 0
      (fun point' => (rows point').card) = 3 := by
    decide +kernel
  obtain ⟨users', husers, hb, -⟩ := ha.users
  obtain ⟨point', hpoint, -⟩ := ha.point
  rw [hpoint] at hcard
  rw [ha.sum, hpaid] at hb
  exact ⟨users', entries, chain, husers, hb, ha.within, ha.chosen.trans hpaid, point', hpoint, hcard⟩

section Pages

variable {email parent : String} {value : Option (Value PointMap)} {finished : Multiset JobMap} {db : Db}

/-- The two documents of a child are as the providers write them, and no job that was finished
is missing. -/
structure Written (email parent : String) (value : Option (Value PointMap))
    (finished : Multiset JobMap) (db : Db) : Prop where
  point : ∃ entries point, db.point email = some point ∧ Holds value entries point
  job : ∃ jobs job, db.job email = some job ∧ Keeps parent jobs job ∧ finished ≤ finishedRows job

theorem Written.of_eq (hw : Written email parent value finished db) {db' : Db}
    (hpoint : db'.point email = db.point email) (hjob : db'.job email = db.job email) :
    Written email parent value finished db' :=
  ⟨hpoint ▸ hw.point, hjob ▸ hw.job⟩

theorem Written.changePoint (hw : Written email parent value finished db) (args : PointArgs)
    (fates : List (Fate × RecordScript)) :
    Written email parent value finished (changePoint email args fates db).2 := by
  refine runTransaction_invariant errors (usersRef email) Update.apply
    (fun inner snapshot db₁ h => ?_) (fun _ _ h => h.of_eq rfl rfl) fates hw
  rcases changePointBody_cases email args inner snapshot db₁ with
    ⟨-, e, he⟩ | ⟨-, total, p, today, -, hp, -, -, he⟩
  · rw [he]
    exact h
  · obtain ⟨entries, point, hpoint, hholds⟩ := h.point
    obtain rfl : point = p := Option.some.inj (hpoint.symm.trans hp)
    rw [he]
    exact ⟨⟨_, _, Function.update_self .., HomeBank.Holds.appended hholds args total today⟩, h.job⟩

theorem Written.call (hw : Written email parent value finished db) (op : JobOp) (fates : List Fate) :
    Written email parent value finished (op.call email fates db).2 := by
  obtain ⟨jobs, job, hjob, hkeeps, hle⟩ := hw.job
  rcases Keeps.call hjob hkeeps op fates with ⟨e, he⟩ | ⟨db', job', he, -, hpoint, hjob', hkeeps'⟩
  · rw [he]
    exact hw
  · rw [he]
    refine ⟨congrFun hpoint email ▸ hw.point, _, job', hjob', hkeeps', ?_⟩
    exact hle.trans (hkeeps.finishedRows_le hkeeps')

theorem Written.createJobs (hw : Written email parent value finished db) (type note : String)
    (point : Int64) (dates : List (Option DateTime × List Fate)) :
    Written email parent value finished
      (WorkAddPage.createJobs email type note point dates db).2 := by
  obtain ⟨jobs, job, hjob, hkeeps, hle⟩ := hw.job
  obtain ⟨k, -, job', hjob', hkeeps', -⟩ := createJobs_keeps email type note point dates hjob hkeeps
  have hpoint := (createJobs_accounts email type note point dates db).2
  refine ⟨congrFun hpoint email ▸ hw.point, _, job', hjob', hkeeps', hle.trans ?_⟩
  rw [hkeeps.finishedRows, hkeeps'.finishedRows, ← Multiset.coe_add]
  exact Multiset.map_le_map (Multiset.filter_le_filter _ (Multiset.le_add_right _ _))

theorem Written.handle (hw : Written email parent value finished db) (press : Press) :
    Written email parent value finished (press.handle db).2 := by
  by_cases hchild : press.child? = some email
  · cases press with
    | addWork selectedChild selectedJob note pointText selectedDate =>
      obtain rfl : selectedChild = some email := hchild
      cases selectedJob with
      | none => exact hw
      | some type =>
        have hjobs := hw.createJobs type note ((tryParse pointText).getD 0) selectedDate
        simp only [Press.handle, WorkAddPage.onTap]
        split
        · exact hw
        · split <;> rename_i heq <;> rw [heq] at hjobs <;> exact hjobs
    | delete child tile fates =>
      obtain rfl := Option.some.inj hchild
      exact hw.call (deleteTile tile) fates
    | confirm child tile finishFates payFates =>
      obtain rfl := Option.some.inj hchild
      have hcall := hw.call (finishTile tile) finishFates
      rw [finishTile] at hcall
      simp only [Press.handle, HomeBank.confirm, finishJob]
      cases hres : (JobOp.finishJob tile.type tile.note tile.date tile.point).call child finishFates
        db with
      | mk result db₁ =>
        rw [hres] at hcall
        cases result with
        | error e => exact hcall
        | ok _ => exact hcall.changePoint _ payFates
    | transfer targetAccount noteText pointText fates =>
      obtain rfl := Option.some.inj hchild
      exact hw.changePoint _ fates
    | redeem form fates =>
      obtain rfl := Option.some.inj hchild
      exact hw.changePoint _ fates
  · obtain ⟨-, hpoint, hjob⟩ := documents_eq_iff.1 (handle_other hchild db)
    exact hw.of_eq hpoint hjob

end Pages

/-- Whatever is pressed in a family, and wherever its transactions fail: both documents of a child
can be read, every list and chart that a page makes of its records or of its jobs, of all of them
or of some, can be shown, the parent stays where it was stored, and no finished job is lost. -/
theorem family_pages (email parent : String) (db : Db) (point : PointDoc) (job : JobDoc)
    (value : Option (Value PointMap)) (old : List Entry) (jobs : List Job)
    (hpoint : db.point email = some point) (hholds : Holds value old point)
    (hjob : db.job email = some job) (hkeeps : Keeps parent jobs job) (presses : List Press)
    (contains : DateRange → DateTime → Bool) :
    (∃ point' records, (run presses db).2.point email = some point' ∧
      point'.lookup "parent" = value ∧ getPointRecord (some point') = .ok records ∧
      ∀ data, data ⊆ records.all → PointsUsable contains data) ∧
    ∃ job' list, (run presses db).2.job email = some job' ∧
      job'.lookup "parent" = some (.string parent) ∧ finishedRows job ≤ finishedRows job' ∧
      getJobRecord (some job') = .ok list ∧ ∀ data, data ⊆ list.all → JobsUsable contains data := by
  have hinit : Written email parent value (finishedRows job) db :=
    ⟨⟨old, point, hpoint, hholds⟩, jobs, job, hjob, hkeeps, le_rfl⟩
  obtain ⟨⟨entries, point', hpoint', hholds'⟩, jobs', job', hjob', hkeeps', hle⟩ :=
    exec_induction (I := fun _ db => Written email parent value (finishedRows job) db) hinit
      (fun _ _ press hw => hw.handle press) presses
  obtain ⟨records, hrecords, hentries⟩ := HomeBank.Holds.exists_list hholds'
  obtain ⟨list, hlist, -, hmodels⟩ := Keeps.exists_list hkeeps'
  refine ⟨⟨point', records, hpoint', hholds'.header_eq, hrecords, fun data hsub => ?_⟩,
    job', list, hjob', hkeeps'.header_eq, hle, hlist, fun data hsub => ?_⟩
  · refine pointsUsable fun model hmodel => ?_
    obtain ⟨entry, -, rfl⟩ := hentries model (hsub hmodel)
    exact ⟨_, parseDate_getDateTimeString entry.today⟩
  · refine jobsUsable fun model hmodel => ?_
    obtain ⟨kept, -, rfl⟩ := hmodels model (hsub hmodel)
    exact ⟨_, parseDate_getDateTimeString kept.date⟩

theorem family_pages_siblings : ∃ (point' : PointDoc) (records : Records PointModel),
    (run sampleDay siblings).2.point "child@example.com" = some point' ∧
      getPointRecord (some point') = .ok records ∧ PointsUsable betweenEnds records.all := by
  obtain ⟨⟨point', records, hpoint, -, hrecords, husable⟩, -⟩ := family_pages "child@example.com"
    "parent@example.com" siblings samplePoint (parentOnly "parent@example.com") _ [] [] rfl
    (Files.init rfl) rfl (Keeps.init _) sampleDay betweenEnds
  exact ⟨point', records, hpoint, hrecords, husable _ (List.Subset.refl _)⟩

end Family

end HomeBank
