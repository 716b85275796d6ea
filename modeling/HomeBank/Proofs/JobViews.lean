import HomeBank.Proofs.ListPages
import HomeBank.Proofs.MonthPages
import HomeBank.Spec.WorkAdd

/-! The job pages lose nothing. Every stored job has one of the four types, since the add-work
page offers no other and nothing changes a type, and its date can be read. So the lists by
type and the lists by finish are the same jobs. -/

namespace HomeBank

open Dart Firestore Select Transition Optimistic WorkAddPage

/-- Nothing but the creation gives a job its type. -/
theorem type_mem_workTypes {ops : List JobOp} (hops : ∀ op ∈ ops, FromPage op) :
    ∀ job ∈ ops.foldl JobOp.arrange [], job.type ∈ workTypes := by
  intro job hjob
  have hcreated := (reopened_sublist_created ops).subset (List.mem_map_of_mem (f := Job.reopened) hjob)
  obtain ⟨op, hop, hopened⟩ := List.mem_filterMap.1 hcreated
  have hpage := hops op hop
  cases op with
  | createJob type note date point =>
    have htype : job.reopened.type = type := by rw [← Option.some.inj hopened]; rfl
    rw [show job.type = type from htype]
    exact hpage
  | finishJob | deleteJob => cases hopened

/-- What the reader returns are models of the jobs that the document keeps. -/
theorem Keeps.exists_list {parent : String} {jobs : List Job} {doc : JobDoc} (h : Keeps parent jobs doc) :
    ∃ list, getJobRecord (some doc) = .ok list ∧ Reads JobMap.toModel doc list ∧
      ∀ model ∈ list.all, ∃ job ∈ jobs, model = job.model := by
  obtain ⟨list, hread, -, hlist⟩ := readRecords_files JobMap.fromMap_eq h
  refine ⟨list, hread, reads JobMap.fromMap_eq hread (rowsAt_parent h.header_eq),
    fun model hmodel => ?_⟩
  obtain ⟨⟨key, rows⟩, hentry, hrow⟩ := List.mem_flatMap.1 hmodel
  rw [hlist key rows (AList.mem_lookup_iff.2 hentry), filed, List.map_map] at hrow
  obtain ⟨job, hjob, rfl⟩ := List.mem_map.1 hrow
  exact ⟨job, (List.mem_filter.1 hjob).1, rfl⟩

section Views

variable {contains : DateRange → DateTime → Bool} {s : Selection} {data : List JobModel}

/-- A date test of a date that can be read returns. -/
theorem exists_passes (contains : DateRange → DateTime → Bool) (s : Selection) {dateString : String}
    (h : ∃ d, parseDate dateString = .ok d) :
    ∃ b, s.passes contains dateString = .ok b := by
  obtain ⟨d, hd⟩ := h
  unfold Selection.passes
  split
  · exact ⟨_, by rw [isInRange, hd]; rfl⟩
  · exact ⟨_, by rw [isInMonth, hd]; rfl⟩

/-- The jobs that pass the filter, in stored order. -/
def passing (contains : DateRange → DateTime → Bool) (s : Selection) (data : List JobModel) :
    List JobModel :=
  data.filter fun job => s.passes contains job.date = .ok true

theorem where_passing (h : ∀ job ∈ data, ∃ d, parseDate job.date = .ok d) (own : JobModel → Bool) :
    s.where contains own JobModel.date data = .ok ((passing contains s data).filter own) := by
  refine where_eq_ok (p := fun dateString => s.passes contains dateString = .ok true) ?_
  intro job hjob
  obtain ⟨b, hb⟩ := exists_passes contains s (h job hjob)
  rw [hb]
  cases b <;> rfl

end Views

/-- The lists by type and the lists by finish of the jobs that pass a filter. -/
structure Views (contains : DateRange → DateTime → Bool) (s : Selection) (data : List JobModel)
    (category : Fin 4 → List JobModel) (part : Bool → List JobModel) : Prop where
  workDetail : ∀ i : Fin 4, WorkDetailPage.buildList contains s data i = .ok (category i)
  myWorks : ∀ finished, MyWorksPage.buildList contains s finished data = .ok (part finished)
  category_order : ∀ i, (category i).Sublist (passing contains s data)
  part_order : ∀ finished, (part finished).Sublist (passing contains s data)
  one_category : ∀ job ∈ passing contains s data, ∃ i, (category i).count job = data.count job ∧
    ∀ j, j ≠ i → job ∉ category j
  one_part : ∀ job ∈ passing contains s data, ∃ finished,
    (part finished).count job = data.count job ∧ job ∉ part (!finished)
  categories : (category 0 ++ category 1 ++ category 2 ++ category 3).Perm (passing contains s data)
  parts : (part true ++ part false).Perm (passing contains s data)

theorem count_passing {contains : DateRange → DateTime → Bool} {s : Selection} {data : List JobModel}
    {job : JobModel} (h : job ∈ passing contains s data) :
    (passing contains s data).count job = data.count job :=
  List.count_filter (List.mem_filter.1 h).2

theorem workTypes_inj : ∀ i j : Fin 4, workTypes[i] = workTypes[j] → i = j := by decide

theorem views_of_types {contains : DateRange → DateTime → Bool} {s : Selection} {data : List JobModel}
    (hdates : ∀ job ∈ data, ∃ d, parseDate job.date = .ok d)
    (htypes : ∀ job ∈ data, job.type ∈ workTypes) :
    Views contains s data (fun i => (passing contains s data).filter fun job => job.type = workTypes[i])
      fun finished => (passing contains s data).filter fun job => job.finish = finished where
  workDetail i := by rw [workDetail_buildList, where_passing hdates]
  myWorks finished := where_passing hdates _
  category_order _ := List.filter_sublist
  part_order _ := List.filter_sublist
  one_category job hjob := by
    obtain ⟨i, htype⟩ : ∃ i : Fin 4, job.type = workTypes[i] := by
      obtain ⟨i, hi, htype⟩ := List.mem_iff_getElem.1 (htypes job (List.mem_filter.1 hjob).1)
      exact ⟨⟨i, hi⟩, htype.symm⟩
    refine ⟨i, ?_, fun j hne hmem => ?_⟩
    · rw [count_filter_key JobModel.type, if_pos htype, count_passing hjob]
    · have hj : job.type = workTypes[j] := by simpa using (List.mem_filter.1 hmem).2
      exact hne (workTypes_inj j i (hj.symm.trans htype))
  one_part job hjob := by
    refine ⟨job.finish, ?_, fun hmem => ?_⟩
    · rw [count_filter_key JobModel.finish, if_pos rfl, count_passing hjob]
    · simpa using (List.mem_filter.1 hmem).2
  categories := by
    have hmem : ∀ job ∈ passing contains s data, job.type ∈ workTypes := fun job hjob =>
      htypes job (List.mem_filter.1 hjob).1
    have hperm := flatMap_filter_perm JobModel.type (by decide) hmem
    simp only [List.flatMap_cons, List.flatMap_nil, List.append_nil] at hperm
    rw [List.append_assoc, List.append_assoc]
    exact hperm
  parts := by
    have hmem : ∀ job ∈ passing contains s data, job.finish ∈ [true, false] := fun job _ => by
      cases job.finish <;> simp
    have hperm := flatMap_filter_perm JobModel.finish (by decide) hmem
    simpa only [List.flatMap_cons, List.flatMap_nil, List.append_nil] using hperm

/-- On every list of jobs that any interleaving of calls leaves in the document, if each job is
created through the add-work page, both pages show all jobs that pass the filter, in stored
order, each under one type and under one state. -/
theorem job_views_lose_nothing {ι : Type} [DecidableEq ι] (op : ι → JobOp) (parent : String)
    (hop : ∀ i, FromPage (op i)) (es : List (Event ι)) (s : State ι JobDoc)
    (h : run (step jobHandlers op) (State.init (some (parentOnly parent))) es = some s)
    (contains : DateRange → DateTime → Bool) (selection : Selection) :
    ∃ doc list, s.doc.val = some doc ∧ getJobRecord (some doc) = .ok list ∧
      Reads JobMap.toModel doc list ∧
      ∃ category part, Views contains selection list.all category part := by
  obtain ⟨doc, hdoc, hkeeps⟩ := keeps_run h
  obtain ⟨list, hread, hreads, hmodels⟩ := hkeeps.exists_list
  refine ⟨doc, list, hdoc, hread, hreads, _, _,
    views_of_types (fun job hjob => ?_) fun job hjob => ?_⟩
  · obtain ⟨job, -, rfl⟩ := hmodels job hjob
    exact ⟨_, parseDate_getDateTimeString job.date⟩
  · obtain ⟨job, hkept, rfl⟩ := hmodels job hjob
    refine type_mem_workTypes (fun op' hop' => ?_) job hkept
    obtain ⟨i, -, rfl⟩ := List.mem_map.1 hop'
    exact hop i

theorem fromPage_severalOps : ∀ i, FromPage (severalOps i) := by
  intro i
  match i with
  | 0 | 1 | 2 | 3 => simp [severalOps, FromPage]
  | 4 => trivial

/-- The jobs of all months in the document that the calls leave. -/
def severalJobs : List JobModel :=
  ⟨"運動類", "swimming", "2024-04-02 10:00:00", 2, false⟩ :: marchJobs

/-- The document that the calls leave, as the reader finds it. -/
theorem exists_severalCalls : ∃ s, run (step jobHandlers severalOps)
    (State.init (some (parentOnly "parent@example.com"))) severalCalls = some s ∧
      (getJobRecord s.doc.val).map (fun list => (list.all, recordsAt list sampleTime)) =
        .ok (severalJobs, marchJobs) :=
  exists_run_of_any (by decide +kernel)

/-- The dishes are in the list of their type and in the list of the finished jobs, and the
swimming of the next month is in none. -/
theorem job_views_lose_nothing_severalJobs : ∃ category part,
    Views betweenEnds ⟨sampleTime, []⟩ severalJobs category part ∧
      (∀ i : Fin 4, category i = marchJobs.filter fun job => job.type = workTypes[i]) ∧
      ∀ finished, part finished = marchJobs.filter fun job => job.finish = finished := by
  obtain ⟨s, hrun, hlist⟩ := exists_severalCalls
  obtain ⟨doc, list, hdoc, hread, -, category, part, hviews⟩ := job_views_lose_nothing severalOps
    "parent@example.com" fromPage_severalOps severalCalls s hrun betweenEnds ⟨sampleTime, []⟩
  rw [hdoc, hread] at hlist
  have hall : list.all = severalJobs := congrArg Prod.fst (Except.ok.inj hlist)
  rw [hall] at hviews
  refine ⟨category, part, hviews, fun i => ?_, fun finished => ?_⟩
  · refine Except.ok.inj ((hviews.workDetail i).symm.trans ?_)
    revert i
    decide +kernel
  · refine Except.ok.inj ((hviews.myWorks finished).symm.trans ?_)
    revert finished
    decide +kernel

end HomeBank
