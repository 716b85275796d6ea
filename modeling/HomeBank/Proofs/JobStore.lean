import HomeBank.Spec.JobBag

/-! The job document refines the bag. The handlers of `finishJob` and `deleteJob` only
search the month list of the date that they are given; every job lies in the list of the
month of its own date, so the first match of that list is the first match of all jobs. -/

namespace HomeBank

open Dart Firestore FirstMatch Optimistic Transition

theorem Job.month_opened (type note : String) (date : DateTime) (point : Int64) :
    (Job.opened type note date point).month = getYearMonth date := rfl

theorem month_ne_parent (date : DateTime) : getYearMonth date ≠ "parent" :=
  monthKey_ne_parent date.year date.month

theorem Job.eq_opened_iff {type note : String} {date : DateTime} {point : Int64} {job : Job} :
    job = Job.opened type note date point ↔ job.type = type ∧ job.note = note ∧
      job.point = point ∧ getDateTimeString job.date = getDateTimeString date ∧ job.finish = false := by
  rw [getDateTimeString_inj, job.date.2]
  refine ⟨?_, ?_⟩
  · rintro rfl
    exact ⟨rfl, rfl, rfl, rfl, rfl⟩
  · intro ⟨htype, hnote, hpoint, hdate, hfinish⟩
    rw [Job.ext_iff]
    exact ⟨htype, hnote, Subtype.ext hdate, hpoint, hfinish⟩

/-- The test of the search recognises exactly the unfinished job with the four values. -/
theorem matchesDetail_stored (type note : String) (date : DateTime) (point : Int64) (job : Job) :
    matchesDetail ⟨type, note, getDateTimeString date, point, false⟩ job.stored =
      decide (job = Job.opened type note date point) := by
  rw [Bool.eq_iff_iff, decide_eq_true_iff, Job.eq_opened_iff]
  simp only [matchesDetail, Job.stored, Job.model, JobModel.toJson, Bool.and_eq_true, beq_iff_eq,
    Option.some.injEq, and_assoc]

theorem Keeps.init (parent : String) : Keeps parent [] (parentOnly parent) := Files.init rfl

theorem Keeps.create {parent : String} {jobs : List Job} {doc : JobDoc} (h : Keeps parent jobs doc)
    (type note : String) (date : DateTime) (point : Int64) :
    ∃ u, createJobBody type note date point (some doc) = .ok (some u) ∧
      u.field = getYearMonth date ∧
      Keeps parent (jobs ++ [Job.opened type note date point]) (u.apply doc) := by
  have happend := h.append (Job.opened type note date point) (month_ne_parent date)
  refine ⟨⟨getYearMonth date, .list _⟩, ?_, rfl, happend⟩
  rw [createJobBody_eq, h.listField (month_ne_parent date), Except.map, ← getDateTimeString_toSecond]
  rfl

/-- What a found match is replaced by, for the rows and for the jobs they stand for. -/
structure Replaces (change : List JobMap → ℕ → List JobMap) (t : JobMap → List JobMap)
    (r : Job → List Job) : Prop where
  change_eq : ∀ p data index, data.findIdx? p = some index → change data index = changeFirst p t data
  stored_eq : ∀ job, t job.stored = (r job).map Job.stored
  month_eq : ∀ job, ∀ job' ∈ r job, job'.month = job.month

theorem replaces_finish : Replaces
    (fun data index => data.modify index fun job => { job with finish := some true })
    (fun job => [{ job with finish := some true }]) (fun job => [job.finished]) where
  change_eq _ _ _ h := modify_findIdx? h
  stored_eq _ := rfl
  month_eq job job' h := by
    rw [List.mem_singleton.1 h]
    rfl

theorem replaces_delete : Replaces (fun data deleteIndex => data.eraseIdx deleteIndex)
    (fun _ => []) (fun _ => []) where
  change_eq _ _ _ h := eraseIdx_findIdx? h
  stored_eq _ := rfl
  month_eq _ _ h := by cases h

section Change

variable {change : List JobMap → ℕ → List JobMap} {t : JobMap → List JobMap} {r : Job → List Job}

theorem Replaces.filter_other (hr : Replaces change t r) {opened : Job} {key : String}
    (hkey : opened.month = key) (jobs : List Job) :
    ((changeFirst (fun job => decide (job = opened)) r jobs).filter fun job => job.month ≠ key) =
      jobs.filter fun job => job.month ≠ key := by
  refine filter_changeFirst_of_not (fun job hjob => ?_) jobs
  obtain rfl := of_decide_eq_true hjob
  refine ⟨by simp [hkey], List.filter_eq_nil_iff.2 fun job' hjob' => ?_⟩
  simp [hr.month_eq job job' hjob', hkey]

theorem Replaces.filter_own (hr : Replaces change t r) {opened : Job} {key : String}
    (hkey : opened.month = key) (jobs : List Job) :
    ((changeFirst (fun job => decide (job = opened)) r jobs).filter fun job => job.month = key) =
      changeFirst (fun job => decide (job = opened)) r (jobs.filter fun job => job.month = key) := by
  refine filter_changeFirst (fun job hjob => ?_) jobs
  obtain rfl := of_decide_eq_true hjob
  refine ⟨by simp [hkey], List.filter_eq_self.2 fun job' hjob' => ?_⟩
  simp [hr.month_eq job job' hjob', hkey]

/-- A job that is not in the list of its month is nowhere. -/
theorem changeFirst_of_not_found {jobs : List Job} {type note : String} {date : DateTime}
    {point : Int64}
    (h : (filed Job.month Job.stored jobs (getYearMonth date)).findIdx?
      (matchesDetail ⟨type, note, getDateTimeString date, point, false⟩) = none) :
    changeFirst (fun job => decide (job = Job.opened type note date point)) r jobs = jobs := by
  refine changeFirst_of_findIdx?_eq_none ?_
  rw [List.findIdx?_eq_none_iff] at h ⊢
  intro job hjob
  rw [← matchesDetail_stored]
  by_contra hmatch
  rw [Bool.not_eq_false] at hmatch
  have hopened : job = Job.opened type note date point := by
    simpa [matchesDetail_stored] using hmatch
  have hmem : job ∈ jobs.filter fun job => job.month = getYearMonth date :=
    List.mem_filter.2 ⟨hjob, by simp [hopened, Job.month_opened]⟩
  simp [h job.stored (List.mem_map_of_mem hmem)] at hmatch

/-- The search in the month list of the date finds the first match among all jobs. -/
theorem Keeps.changeMatch {parent : String} {jobs : List Job} {doc : JobDoc} (h : Keeps parent jobs doc)
    (hr : Replaces change t r) {date : String} {dateTime : DateTime}
    (hdate : parseDate date = .ok dateTime) (type note : String) (point : Int64) :
    ∃ u, changeJobBody change type note date point (some doc) = .ok u ∧
      (∀ v, u = some v → v.field = getYearMonth dateTime) ∧
      Keeps parent
        (changeFirst (fun job => decide (job = Job.opened type note dateTime point)) r jobs)
        (u.elim doc fun v => v.apply doc) := by
  have hne := month_ne_parent dateTime
  have hmonth := Job.month_opened type note dateTime point
  rw [changeJobBody_eq, hdate, Except.bind, h.listField hne, Except.map]
  refine ⟨_, rfl, ?_, ?_⟩
  · intro v hv
    obtain ⟨index, -, rfl⟩ := Option.map_eq_some_iff.1 hv
    rfl
  · cases hfind : (filed Job.month Job.stored jobs (getYearMonth dateTime)).findIdx?
      (matchesDetail ⟨type, note, getDateTimeString dateTime, point, false⟩) with
    | none =>
      rw [changeFirst_of_not_found hfind]
      exact h
    | some index =>
      have hput := h.put hne (hr.filter_other hmonth jobs)
      have hrow := matchesDetail_stored type note dateTime point
      rw [filed, hr.filter_own hmonth, ← changeFirst_map hrow (fun job _ => hr.stored_eq job)] at hput
      rw [← filed, ← hr.change_eq _ _ _ hfind] at hput
      exact hput

end Change

theorem lookup_elim {u : Option (Update JobMap)} {doc : JobDoc} {month key : String}
    (hfield : ∀ v, u = some v → v.field = month) (hne : month ≠ key) :
    (u.elim doc fun v => v.apply doc).lookup key = doc.lookup key := by
  cases u with
  | none => rfl
  | some v => exact AList.lookup_insert_ne (by rw [hfield v rfl]; exact hne.symm)

theorem Keeps.effect_match {change : List JobMap → ℕ → List JobMap} {t : JobMap → List JobMap}
    {r : Job → List Job} {parent : String} {jobs : List Job} {doc : JobDoc}
    (h : Keeps parent jobs doc) (hr : Replaces change t r) {op : JobOp} {type note date : String}
    {point : Int64} (hop : op.body = changeJobBody change type note date point) :
    ∃ doc', jobHandlers.effect op (some doc) = some doc' ∧
      Keeps parent
        (match parseDate date with
        | .error _ => jobs
        | .ok dateTime =>
          changeFirst (fun job => decide (job = Job.opened type note dateTime point)) r jobs) doc' ∧
      ∀ key, (DateTime.parse date).map getYearMonth ≠ some key → doc'.lookup key = doc.lookup key := by
  cases hparse : DateTime.parse date with
  | none =>
    have hdate : parseDate date = .error .formatException := by rw [parseDate, hparse]
    have hbody : jobHandlers.body op (some doc) = .error .formatException := by
      change op.body _ = _
      rw [hop, changeJobBody_eq, hdate]
      rfl
    rw [hdate]
    exact ⟨doc, jobHandlers.effect_of_error hbody, h, fun _ _ => rfl⟩
  | some dateTime =>
    have hdate : parseDate date = .ok dateTime := by rw [parseDate, hparse]
    obtain ⟨u, hbody, hfield, hkeeps⟩ := h.changeMatch hr hdate type note point
    rw [← hop] at hbody
    rw [hdate]
    refine ⟨_, jobHandlers.effect_of_body hbody, hkeeps, fun key hkey => ?_⟩
    exact lookup_elim hfield (by simpa using hkey)

/-- One call on a document that keeps the jobs: it rearranges them as the call says, and
writes to no other field than its month list. -/
theorem Keeps.effect {parent : String} {jobs : List Job} {doc : JobDoc} (h : Keeps parent jobs doc)
    (op : JobOp) : ∃ doc', jobHandlers.effect op (some doc) = some doc' ∧
      Keeps parent (op.arrange jobs) doc' ∧
      ∀ key, op.month ≠ some key → doc'.lookup key = doc.lookup key := by
  cases op with
  | createJob type note date point =>
    obtain ⟨u, hbody, hfield, hkeeps⟩ := h.create type note date point
    have hbody' : jobHandlers.body (.createJob type note date point) (some doc) = .ok (some u) := hbody
    refine ⟨_, jobHandlers.effect_of_body hbody', hkeeps, fun key hkey => ?_⟩
    exact lookup_elim (u := some u) (by rintro v ⟨⟩; exact hfield) (by simpa [JobOp.month] using hkey)
  | finishJob type note date point => exact h.effect_match replaces_finish rfl
  | deleteJob type note date point => exact h.effect_match replaces_delete rfl

/-- Without the order, rearranging the jobs is the operation on the bag. -/
theorem coe_arrange (jobs : List Job) (op : JobOp) :
    (op.arrange jobs : Multiset Job) = op.perform jobs := by
  cases op with
  | createJob type note date point =>
    exact Multiset.coe_eq_coe.2 (List.perm_append_singleton _ jobs)
  | finishJob type note date point =>
    simp only [JobOp.arrange, JobOp.perform]
    cases parseDate date with
    | error e => rfl
    | ok date =>
      simp only [coe_changeFirst, Multiset.coe_singleton, Multiset.singleton_add, Multiset.mem_coe]
  | deleteJob type note date point =>
    simp only [JobOp.arrange, JobOp.perform]
    cases parseDate date with
    | error e => rfl
    | ok date =>
      simp only [coe_changeFirst, Multiset.coe_nil, zero_add]
      split
      · rfl
      · next hmem => exact (Multiset.erase_of_notMem hmem).symm

/-- A finished job stays in the bag, and stays finished. -/
theorem filter_finish_perform (bag : Multiset Job) (op : JobOp) :
    bag.filter (fun job => job.finish) ≤ (op.perform bag).filter fun job => job.finish := by
  have herase : ∀ (type note : String) (date : DateTime) (point : Int64),
      (bag.erase (Job.opened type note date point)).filter (fun job => job.finish) =
        bag.filter fun job => job.finish := by
    intro type note date point
    by_cases hmem : Job.opened type note date point ∈ bag
    · conv_rhs => rw [← Multiset.cons_erase hmem]
      rw [Multiset.filter_cons_of_neg _ (by simp [Job.opened])]
    · rw [Multiset.erase_of_notMem hmem]
  cases op with
  | createJob type note date point =>
    exact Multiset.filter_le_filter _ (Multiset.le_cons_self _ _)
  | finishJob type note date point =>
    simp only [JobOp.perform]
    cases parseDate date with
    | error e => exact le_rfl
    | ok date =>
      simp only
      split
      · rw [← herase type note date point]
        exact Multiset.filter_le_filter _ (Multiset.le_cons_self _ _)
      · exact le_rfl
  | deleteJob type note date point =>
    simp only [JobOp.perform]
    cases parseDate date with
    | error e => exact le_rfl
    | ok date => exact (herase type note date point).ge

/-- Apart from the finished flags, the jobs are a part of the created ones, in the order of
creation. -/
theorem reopened_sublist_created (ops : List JobOp) :
    ((ops.foldl JobOp.arrange []).map Job.reopened).Sublist (ops.filterMap JobOp.created?) := by
  have hfinish : ∀ (p : Job → Bool) (jobs : List Job),
      ((changeFirst p (fun job => [job.finished]) jobs).map Job.reopened).Sublist
        (jobs.map Job.reopened) :=
    fun p jobs => map_changeFirst_sublist (fun _ _ => List.Sublist.refl _) jobs
  have hdelete : ∀ (p : Job → Bool) (jobs : List Job),
      ((changeFirst p (fun _ => []) jobs).map Job.reopened).Sublist (jobs.map Job.reopened) :=
    fun p jobs => map_changeFirst_sublist (r := fun _ => []) (fun _ _ => List.nil_sublist _) jobs
  induction ops using List.reverseRecOn with
  | nil => exact List.Sublist.refl _
  | append_singleton ops op ih =>
    rw [List.foldl_append, List.foldl_cons, List.foldl_nil, List.filterMap_append]
    cases op with
    | createJob type note date point =>
      rw [JobOp.arrange, List.map_append]
      exact ih.append (List.Sublist.refl _)
    | finishJob type note date point =>
      refine List.Sublist.trans ?_ (ih.trans (List.sublist_append_left _ _))
      simp only [JobOp.arrange]
      split
      · exact List.Sublist.refl _
      · exact hfinish _ _
    | deleteJob type note date point =>
      refine List.Sublist.trans ?_ (ih.trans (List.sublist_append_left _ _))
      simp only [JobOp.arrange]
      split
      · exact List.Sublist.refl _
      · exact hdelete _ _

theorem keeps_foldl (parent : String) (ops : List JobOp) :
    ∃ doc, ops.foldl (fun doc op => jobHandlers.effect op doc) (some (parentOnly parent)) = some doc ∧
      Keeps parent (ops.foldl JobOp.arrange []) doc := by
  induction ops using List.reverseRecOn with
  | nil => exact ⟨_, rfl, Keeps.init parent⟩
  | append_singleton ops op ih =>
    obtain ⟨doc, hdoc, hkeeps⟩ := ih
    obtain ⟨doc', heffect, hkeeps', -⟩ := hkeeps.effect op
    refine ⟨doc', ?_, ?_⟩
    · rw [List.foldl_append, hdoc]
      exact heffect
    · rw [List.foldl_append]
      exact hkeeps'

theorem coe_foldl_arrange (ops : List JobOp) :
    ((ops.foldl JobOp.arrange [] : List Job) : Multiset Job) = ops.foldl JobOp.perform 0 := by
  induction ops using List.reverseRecOn with
  | nil => rfl
  | append_singleton ops op ih =>
    rw [List.foldl_append, List.foldl_append, ← ih]
    exact coe_arrange _ op

theorem Keeps.finishedRows {parent : String} {jobs : List Job} {doc : JobDoc}
    (h : Keeps parent jobs doc) : finishedRows doc =
      ((jobs : Multiset Job).filter fun job => job.finish).map Job.stored := by
  rw [HomeBank.finishedRows, h.bag, Multiset.filter_map]
  congr 1
  refine Multiset.filter_congr fun job _ => ?_
  simp [Job.stored, Job.model, JobModel.toJson]

theorem Keeps.finishedRows_le {parent : String} {jobs : List Job} {doc doc' : JobDoc} {op : JobOp}
    (h : Keeps parent jobs doc) (h' : Keeps parent (op.arrange jobs) doc') :
    HomeBank.finishedRows doc ≤ HomeBank.finishedRows doc' := by
  rw [h.finishedRows, h'.finishedRows, coe_arrange]
  exact Multiset.map_le_map (filter_finish_perform _ op)

section Run

variable {ι : Type} [DecidableEq ι] {op : ι → JobOp} {parent : String} {es : List (Event ι)}
  {s s' : State ι JobDoc} {e : Event ι}

/-- In every interleaving the document keeps the jobs that the committed calls leave when
they are made one after another. -/
theorem keeps_run
    (h : run (step jobHandlers op) (State.init (some (parentOnly parent))) es = some s) :
    ∃ doc, s.doc.val = some doc ∧
      Keeps parent (((committed es).map op).foldl JobOp.arrange []) doc := by
  obtain ⟨doc, hdoc, hkeeps⟩ := keeps_foldl parent ((committed es).map op)
  rw [List.foldl_map] at hdoc
  exact ⟨doc, (inv_run h).serial.trans hdoc, hkeeps⟩

/-- One more step of an interleaving writes at most to the month list of the call that it
commits, and no finished job is lost by it. -/
theorem frame_step
    (h : run (step jobHandlers op) (State.init (some (parentOnly parent))) es = some s)
    {doc : JobDoc} (hdoc : s.doc.val = some doc) (hstep : step jobHandlers op s e = some s') :
    ∃ doc', s'.doc.val = some doc' ∧
      (∀ key, (∀ i, e = .commit i → (op i).month ≠ some key) → doc'.lookup key = doc.lookup key) ∧
      finishedRows doc ≤ finishedRows doc' := by
  obtain ⟨doc₁, hdoc₁, hkeeps⟩ := keeps_run h
  obtain rfl : doc = doc₁ := Option.some.inj (hdoc.symm.trans hdoc₁)
  rcases (inv_run h).step_doc hstep with ⟨i, rfl, hval⟩ | ⟨-, hval⟩
  · rw [hdoc] at hval
    obtain ⟨doc', heffect, hkeeps', hframe⟩ := hkeeps.effect (op i)
    exact ⟨doc', hval.trans heffect, fun key hkey => hframe key (hkey i rfl),
      hkeeps.finishedRows_le hkeeps'⟩
  · exact ⟨doc, hval.trans hdoc, fun _ _ => rfl, le_rfl⟩

end Run

/-- The job store refines a bag of jobs under any interleaving. Every call commits at most
once, and what its document holds is what the committed calls, one after another in commit
order, make of an empty bag. Each month list holds the jobs of its month in the order of
their creation; a step changes no other field than the month list of the call it commits,
and takes no finished job away. -/
theorem job_store_refines_bag {ι : Type} [DecidableEq ι] (op : ι → JobOp) (parent : String)
    (es : List (Event ι)) (s : State ι JobDoc)
    (h : run (step jobHandlers op) (State.init (some (parentOnly parent))) es = some s) :
    (committed es).Nodup ∧ (∀ i, i ∈ committed es ↔ s.phase i = .returned) ∧
    ∃ doc, s.doc.val = some doc ∧
      rows doc = ((committed es).foldl (fun bag i => (op i).perform bag) 0).map Job.stored ∧
      doc.lookup "parent" = some (.string parent) ∧
      (∀ key, key ≠ "parent" → ∃ jobs : List Job,
        listField (some doc) key = .ok (jobs.map Job.stored) ∧ (∀ job ∈ jobs, job.month = key) ∧
        (jobs.map Job.reopened).Sublist (((committed es).map op).filterMap JobOp.created?)) ∧
      ∀ e s', step jobHandlers op s e = some s' → ∃ doc', s'.doc.val = some doc' ∧
        (∀ key, (∀ i, e = .commit i → (op i).month ≠ some key) →
          doc'.lookup key = doc.lookup key) ∧
        finishedRows doc ≤ finishedRows doc' := by
  have hi := inv_run h
  obtain ⟨doc, hdoc, hkeeps⟩ := keeps_run h
  refine ⟨hi.once, hi.closed, doc, hdoc, ?_, hkeeps.header_eq, fun key hkey => ?_,
    fun e s' hstep => frame_step h hdoc hstep⟩
  · rw [hkeeps.bag, coe_foldl_arrange, List.foldl_map]
  · refine ⟨_, hkeeps.listField hkey, fun job hjob => ?_, ?_⟩
    · simpa using (List.mem_filter.1 hjob).2
    · exact ((List.filter_sublist).map _).trans (reopened_sublist_created _)

/-- Two clients: one creates a job and finishes it, the other deletes it too late. -/
def sampleOps : Fin 3 → JobOp
  | 0 => .createJob "家事類" "dishes" sampleTime 7
  | 1 => .finishJob "家事類" "dishes" "2024-03-05 12:00:00" 7
  | 2 => .deleteJob "家事類" "dishes" "2024-03-05 12:00:00" 7

/-- The deletion has read the document before the job was finished, and has to start over. -/
def lateDelete : List (Event (Fin 3)) :=
  [.read 0, .commit 0, .read 1, .read 2, .commit 1, .rerun 2, .read 2, .commit 2]

theorem job_store_refines_bag_lateDelete :
    ∃ s doc, run (step jobHandlers sampleOps) (State.init (some (parentOnly "parent@example.com")))
        lateDelete = some s ∧ s.doc.val = some doc ∧
      rows doc = {(Job.opened "家事類" "dishes" sampleTime 7).finished.stored} := by
  have hrun : (run (step jobHandlers sampleOps)
      (State.init (some (parentOnly "parent@example.com"))) lateDelete).isSome = true := by
    decide +kernel
  obtain ⟨s, hs⟩ := Option.isSome_iff_exists.1 hrun
  obtain ⟨-, -, doc, hdoc, hrows, -⟩ := job_store_refines_bag sampleOps "parent@example.com"
    lateDelete s hs
  refine ⟨s, doc, hs, hdoc, hrows.trans ?_⟩
  decide +kernel

/-- Four jobs of two months and three types, the first of which is finished in the end. -/
def severalOps : Fin 5 → JobOp
  | 0 => .createJob "家事類" "dishes" sampleTime 7
  | 1 => .createJob "作業類" "reading" (timeOf "2024-03-12 09:30:00" (by decide +kernel)) 5
  | 2 => .createJob "家事類" "windows" (timeOf "2024-03-29 08:00:00" (by decide +kernel)) 3
  | 3 => .createJob "運動類" "swimming" (timeOf "2024-04-02 10:00:00" (by decide +kernel)) 2
  | 4 => .finishJob "家事類" "dishes" "2024-03-05 12:00:00" 7

/-- Two of the jobs are created at the same time. -/
def severalCalls : List (Event (Fin 5)) :=
  [.read 0, .commit 0, .read 1, .read 2, .commit 1, .rerun 2, .read 2, .commit 2, .read 3, .commit 3,
    .read 4, .commit 4]

end HomeBank
