import HomeBank.Lib.Contention
import HomeBank.Proofs.JobStore

/-! The calls of `JobProvider` against each other. An interleaving of their attempts does
what the calls do one after another, with no attempt of another call in between; and no
call can keep another from returning. -/

namespace HomeBank

open Dart Firestore Optimistic Transaction Transition

/-- Calls one after the other, up to the first that throws. -/
def callAll (email : String) : List (JobOp × List Fate) → Db → Except Exception Unit × Db
  | [], db => (.ok (), db)
  | (op, fates) :: calls, db =>
    match op.call email fates db with
    | (.error e, db') => (.error e, db')
    | (.ok (), db') => callAll email calls db'

/-- What became of the attempts of a call that has returned after `refusals` refusals. -/
def fatesOf (refusals : ℕ) : List Fate := List.replicate refusals .refused ++ [.accepted]

/-- Where the handler can commit, the call does, however often it is refused before. -/
theorem JobOp.call_fatesOf {op : JobOp} {email : String} {db : Db} {doc' : Option JobDoc}
    (h : jobHandlers.commit op (db.job email) = some doc') (refusals : ℕ) :
    ∃ db', op.call email (fatesOf refusals) db = (.ok (), db') ∧ db'.job email = doc' := by
  have hscript : (fatesOf refusals).map (fun fate => (fate, ())) =
      List.replicate refusals (.refused, ()) ++ [(.accepted, ())] := by
    simp [fatesOf]
  rw [JobOp.call, runTransaction_pureBody, hscript,
    show (jobRef email).get db = db.job email from rfl]
  obtain ⟨u, hbody, hcases⟩ := jobHandlers.of_commit h
  have hbody' : op.body (db.job email) = .ok u := hbody
  rcases hcases with ⟨rfl, rfl⟩ | ⟨v, d, rfl, hd, rfl⟩
  · have hattempt : attempt errors Update.apply (fun _ : Unit => op.body) (db.job email) () =
        .ok none := by
      rw [attempt, hbody']
      rfl
    rw [result_of_attempt _ _ _ hattempt]
    exact ⟨db, rfl, rfl⟩
  · have hattempt : attempt errors Update.apply (fun _ : Unit => op.body) (db.job email) () =
        .ok (some (v.apply d)) := by
      rw [attempt, hbody', hd]
      rfl
    rw [result_of_attempt _ _ _ hattempt]
    exact ⟨_, rfl, (jobRef email).get_put _ db⟩

/-- A child without jobs. -/
def emptyStore : Db :=
  ⟨fun _ => none, fun _ => none, fun _ => some (parentOnly "parent@example.com")⟩

variable {ι : Type}

theorem callAll_of_foldlM {op : ι → JobOp} {email : String} (refusals : ι → ℕ) {calls : List ι}
    {db : Db} {doc' : Option JobDoc}
    (h : calls.foldlM (fun doc i => jobHandlers.commit (op i) doc) (db.job email) = some doc') :
    ∃ db', callAll email (calls.map fun i => (op i, fatesOf (refusals i))) db = (.ok (), db') ∧
      db'.job email = doc' := by
  induction calls generalizing db with
  | nil =>
    cases h
    exact ⟨db, rfl, rfl⟩
  | cons i calls ih =>
    rw [List.foldlM_cons] at h
    obtain ⟨doc₁, hcommit, hrest⟩ := Option.bind_eq_some_iff.1 h
    obtain ⟨db₁, hcall, rfl⟩ := JobOp.call_fatesOf hcommit (refusals i)
    obtain ⟨db', hcalls, hdoc⟩ := ih hrest
    refine ⟨db', ?_, hdoc⟩
    rw [List.map_cons, callAll, hcall]
    exact hcalls

variable [DecidableEq ι]

/-- Whatever document the calls find, and however their attempts are interleaved: the calls
that have returned can be made one after the other, each with the refusals that it has met,
and then they return again and leave the same document. -/
theorem job_calls_serialise (op : ι → JobOp) (email : String) (db : Db) (es : List (Event ι))
    (s : State ι JobDoc) (h : run (step jobHandlers op) (State.init (db.job email)) es = some s) :
    (committed es).Nodup ∧ (∀ i, i ∈ committed es ↔ s.phase i = .returned) ∧
    ∃ db', callAll email
        ((committed es).map fun i => (op i, fatesOf ((reruns es).count i))) db = (.ok (), db') ∧
      db'.job email = s.doc.val :=
  ⟨(inv_run h).once, (inv_run h).closed, callAll_of_foldlM _ (replay_run h)⟩

theorem job_calls_serialise_lateDelete :
    ∃ s db', run (step jobHandlers sampleOps) (State.init (emptyStore.job "child@example.com"))
        lateDelete = some s ∧
      callAll "child@example.com" [(sampleOps 0, [.accepted]), (sampleOps 1, [.accepted]),
        (sampleOps 2, [.refused, .accepted])] emptyStore = (.ok (), db') ∧
      db'.job "child@example.com" = s.doc.val := by
  have hrun : (run (step jobHandlers sampleOps) (State.init (emptyStore.job "child@example.com"))
      lateDelete).isSome = true := by
    decide +kernel
  obtain ⟨s, hs⟩ := Option.isSome_iff_exists.1 hrun
  obtain ⟨-, -, db', hcalls, hdoc⟩ := job_calls_serialise sampleOps "child@example.com" emptyStore
    lateDelete s hs
  exact ⟨s, db', hs, hcalls, hdoc⟩

/-- A call whose date can be read commits on every document that keeps jobs. -/
theorem Keeps.exists_commit {parent : String} {jobs : List Job} {doc : JobDoc}
    (h : Keeps parent jobs doc) {op : JobOp} (hmonth : op.month.isSome = true) :
    ∃ doc', jobHandlers.commit op (some doc) = some doc' := by
  have hmatch : ∀ {change : List JobMap → ℕ → List JobMap} {t : JobMap → List JobMap}
      {r : Job → List Job} {type note date : String} {point : Int64}, Replaces change t r →
      op.body = changeJobBody change type note date point →
      ((DateTime.parse date).map getYearMonth).isSome = true →
      ∃ doc', jobHandlers.commit op (some doc) = some doc' := by
    intro change t r type note date point hr hop hdate
    obtain ⟨dateTime, hparse⟩ := Option.isSome_iff_exists.1 (Option.isSome_map ▸ hdate)
    obtain ⟨u, hbody, -⟩ := h.changeMatch hr (by rw [parseDate, hparse]) type note point
    rw [← hop] at hbody
    cases u with
    | none => exact ⟨_, jobHandlers.commit_of_body_none hbody⟩
    | some u => exact ⟨_, jobHandlers.commit_of_body rfl hbody⟩
  cases op with
  | createJob type note date point =>
    obtain ⟨u, hbody, -⟩ := h.create type note date point
    exact ⟨_, jobHandlers.commit_of_body rfl hbody⟩
  | finishJob type note date point => exact hmatch replaces_finish rfl hmonth
  | deleteJob type note date point => exact hmatch replaces_delete rfl hmonth

/-- A call whose date cannot be read throws on every document. -/
theorem JobOp.throws_of_month {op : JobOp} (hmonth : op.month = none) (doc : Option JobDoc) :
    ∃ e, jobHandlers.body op doc = .error e := by
  have hmatch : ∀ {change : List JobMap → ℕ → List JobMap} {type note date : String}
      {point : Int64}, op.body = changeJobBody change type note date point →
      (DateTime.parse date).map getYearMonth = none → ∃ e, jobHandlers.body op doc = .error e := by
    intro change type note date point hop hdate
    refine ⟨.formatException, ?_⟩
    change op.body doc = _
    rw [hop, changeJobBody_eq, parseDate, Option.map_eq_none_iff.1 hdate]
    rfl
  cases op with
  | createJob type note date point => cases hmonth
  | finishJob type note date point => exact hmatch rfl hmonth
  | deleteJob type note date point => exact hmatch rfl hmonth

end HomeBank
