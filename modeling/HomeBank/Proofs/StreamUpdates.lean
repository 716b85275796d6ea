import HomeBank.Proofs.Statistics
import HomeBank.Spec.StreamUpdates

/-! No update after `dispose`, as long as a page is closed only while nothing that it has
asked for is outstanding. Closed at any other moment, it adds one with the next answer. An
open page of the parent takes the steps of `Statistics.step`. -/

namespace HomeBank.StreamUpdates

open Dart Firestore Transition

variable {page : Page} {auth : AuthProvider} {now : Date} {s s' : State} {e : Event}
  {es : List Event}

theorem not_atRest_of_point {email : String} (h : email ∈ s.pointRecords.inFlight) : ¬ s.AtRest := by
  intro hrest
  rw [hrest.point] at h
  exact Multiset.notMem_zero email h

theorem not_atRest_of_job {email : String} (h : email ∈ s.jobRecords.inFlight) : ¬ s.AtRest := by
  intro hrest
  rw [hrest.job] at h
  exact Multiset.notMem_zero email h

theorem not_atRest_of_awaits (h : awaits s.fetch = true) : ¬ s.AtRest := by
  intro hrest
  rw [hrest.fetch] at h
  cases h

theorem fetchPointResponse_eq {result : Except Exception (Records PointModel)}
    (h : step page s (.fetchPointResponse result) = some s') :
    ∃ email, s.fetch = .awaitingPoint email ∧ s' = s.fetchPointResponse result := by
  simp only [step] at h
  split at h
  · next email hfetch => exact ⟨email, hfetch, (Option.some.inj h).symm⟩
  · cases h

theorem fetchJobResponse_eq {result : Except Exception (Records JobModel)}
    (h : step page s (.fetchJobResponse result) = some s') :
    ∃ email, s.fetch = .awaitingJob email ∧ s' = s.fetchJobResponse result := by
  simp only [step] at h
  split at h
  · next email hfetch => exact ⟨email, hfetch, (Option.some.inj h).symm⟩
  · cases h

/-- What is outstanding, if a page is not at rest. -/
theorem outstanding_of_not_atRest (h : ¬ s.AtRest) :
    (∃ email, email ∈ s.pointRecords.inFlight) ∨ (∃ email, email ∈ s.jobRecords.inFlight) ∨
      (∃ email, s.fetch = .awaitingPoint email) ∨ ∃ email, s.fetch = .awaitingJob email := by
  by_cases hpoint : s.pointRecords.inFlight = 0
  · by_cases hjob : s.jobRecords.inFlight = 0
    · cases hfetch : s.fetch with
      | awaitingPoint email => exact .inr (.inr (.inl ⟨email, rfl⟩))
      | awaitingJob email => exact .inr (.inr (.inr ⟨email, rfl⟩))
      | notCalled => exact absurd ⟨hpoint, hjob, by rw [hfetch]; rfl⟩ h
      | finished => exact absurd ⟨hpoint, hjob, by rw [hfetch]; rfl⟩ h
    · exact .inr (.inl (Multiset.exists_mem_of_ne_zero hjob))
  · exact .inl (Multiset.exists_mem_of_ne_zero hpoint)

/-- The page stays as open as it was, and its stream gets one update or none. -/
structure Updates (s s' : State) : Prop where
  lifecycle : s'.lifecycle = s.lifecycle
  stream : s'.streamController = s.streamController ∨
    s'.streamController = s.streamController.add "update"

theorem updates_fetchData (page : Page) (s : State) : Updates s (s.fetchData page) := by
  unfold State.fetchData
  split <;> exact ⟨rfl, .inl rfl⟩

theorem updates_pointResponse (s : State) (email : String)
    (result : Except Exception (Records PointModel)) : Updates s (s.pointResponse email result) := by
  cases result with
  | ok map => exact ⟨rfl, .inr rfl⟩
  | error e => exact ⟨rfl, .inl rfl⟩

theorem updates_jobResponse (s : State) (email : String)
    (result : Except Exception (Records JobModel)) : Updates s (s.jobResponse email result) := by
  cases result with
  | ok map => exact ⟨rfl, .inr rfl⟩
  | error e => exact ⟨rfl, .inl rfl⟩

theorem updates_fetchPointResponse (s : State) (result : Except Exception (Records PointModel)) :
    Updates s (s.fetchPointResponse result) := by
  cases result with
  | ok map => exact ⟨rfl, .inr rfl⟩
  | error e => exact ⟨rfl, .inl rfl⟩

theorem updates_fetchJobResponse (s : State) (result : Except Exception (Records JobModel)) :
    Updates s (s.fetchJobResponse result) := by
  cases result with
  | ok map => exact ⟨rfl, .inr rfl⟩
  | error e => exact ⟨rfl, .inl rfl⟩

/-- What a step does that does not close the page: a closed page stays closed and at rest if it
was, and the stream is left alone or gets one update, the latter on a closed page only while
something is outstanding. -/
structure Streams (s s' : State) : Prop where
  disposed : s'.lifecycle = .disposed ↔ s.lifecycle = .disposed
  rest : s.lifecycle = .disposed → s.AtRest → s'.AtRest
  stream : s'.streamController = s.streamController ∨
    s'.streamController = s.streamController.add "update" ∧ (s.lifecycle = .disposed → ¬ s.AtRest)

theorem Updates.streams (hu : Updates s s') (hout : s.lifecycle = .disposed → ¬ s.AtRest) :
    Streams s s' where
  disposed := by rw [hu.lifecycle]
  rest hdisposed hrest := absurd hrest (hout hdisposed)
  stream := hu.stream.imp_right fun hadd => ⟨hadd, hout⟩

theorem Updates.streams_of_opened (hu : Updates s s') (hopen : s.lifecycle = .opened) :
    Streams s s' :=
  hu.streams (by simp [hopen])

theorem streams_fetchData (hcall : s.fetch = .notCalled) (h : step page s .fetchData = some s') :
    Streams s s' := by
  simp only [step, if_pos hcall] at h
  split at h
  · cases h
  · next hopen =>
    cases h
    exact (updates_fetchData page s).streams_of_opened hopen
  · -- there is no `context` any more, so nothing is asked for
    cases h
    exact ⟨Iff.rfl, fun _ hrest => ⟨hrest.point, hrest.job, rfl⟩, .inl rfl⟩

theorem step_cases (h : step page s e = some s') :
    (e = .closed ∧ s.lifecycle = .opened ∧ s' = s.dispose) ∨ Streams s s' := by
  cases e with
  | opened =>
    obtain ⟨hnot, ⟨⟩⟩ := Option.ite_none_right_eq_some.1 h
    exact .inr ⟨by simp [hnot], by simp [hnot], .inl rfl⟩
  | authChanged auth =>
    cases h
    exact .inr ⟨Iff.rfl, fun _ hrest => ⟨hrest.point, hrest.job, hrest.fetch⟩, .inl rfl⟩
  | build =>
    obtain ⟨hopen, ⟨⟩⟩ := Option.ite_none_right_eq_some.1 h
    exact .inr (Updates.streams_of_opened ⟨rfl, .inl rfl⟩ hopen)
  | fetchData =>
    obtain ⟨hcall, -⟩ := Option.ite_none_right_eq_some.1 h
    exact .inr (streams_fetchData hcall h)
  | tap index =>
    obtain ⟨hopen, hs'⟩ := Option.ite_none_right_eq_some.1 h
    obtain ⟨child, -, rfl⟩ := Option.map_eq_some_iff.1 hs'
    exact .inr (Updates.streams_of_opened ⟨rfl, .inl rfl⟩ hopen)
  | arrowLeft =>
    obtain ⟨hopen, ⟨⟩⟩ := Option.ite_none_right_eq_some.1 h
    exact .inr (Updates.streams_of_opened ⟨rfl, .inr rfl⟩ hopen)
  | arrowRight =>
    obtain ⟨hopen, ⟨⟩⟩ := Option.ite_none_right_eq_some.1 h
    exact .inr (Updates.streams_of_opened ⟨rfl, .inr rfl⟩ hopen)
  | pointResponse email result =>
    obtain ⟨hmem, ⟨⟩⟩ := Option.ite_none_right_eq_some.1 h
    exact .inr ((updates_pointResponse s email result).streams fun _ => not_atRest_of_point hmem)
  | jobResponse email result =>
    obtain ⟨hmem, ⟨⟩⟩ := Option.ite_none_right_eq_some.1 h
    exact .inr ((updates_jobResponse s email result).streams fun _ => not_atRest_of_job hmem)
  | fetchPointResponse result =>
    obtain ⟨email, hfetch, rfl⟩ := fetchPointResponse_eq h
    have hout : ¬ s.AtRest := not_atRest_of_awaits (by rw [hfetch]; rfl)
    exact .inr ((updates_fetchPointResponse s result).streams fun _ => hout)
  | fetchJobResponse result =>
    obtain ⟨email, hfetch, rfl⟩ := fetchJobResponse_eq h
    have hout : ¬ s.AtRest := not_atRest_of_awaits (by rw [hfetch]; rfl)
    exact .inr ((updates_fetchJobResponse s result).streams fun _ => hout)
  | closed =>
    obtain ⟨hopen, hs'⟩ := Option.ite_none_right_eq_some.1 h
    exact .inl ⟨rfl, hopen, (Option.some.inj hs').symm⟩

/-- The controller is closed by `dispose` and by nothing else. -/
def ClosedByDispose (s : State) : Prop :=
  s.streamController.isClosed = true ↔ s.lifecycle = .disposed

theorem closedByDispose_step (hc : ClosedByDispose s) (h : step page s e = some s') :
    ClosedByDispose s' := by
  rcases step_cases h with ⟨-, -, rfl⟩ | hs
  · exact iff_of_true StreamController.isClosed_close rfl
  · have hsame : s'.streamController.isClosed = s.streamController.isClosed := by
      rcases hs.stream with hstream | ⟨hstream, -⟩
      · rw [hstream]
      · rw [hstream, StreamController.isClosed_add]
    rw [ClosedByDispose, hsame, hs.disposed]
    exact hc

theorem closedByDispose_init : ClosedByDispose (State.init auth now) :=
  iff_of_false (by simp [State.init, StreamController.isClosed]) (by simp [State.init])

theorem closedByDispose_run (h : run (step page) (State.init auth now) es = some s) :
    ClosedByDispose s :=
  run_induction (P := fun _ s => ClosedByDispose s) closedByDispose_init
    (fun _ _ _ _ _ hc hstep => closedByDispose_step hc hstep) h

/-- A closed page is at rest, and nothing has been added to its stream since. -/
structure Inv (s : State) : Prop where
  closed : ClosedByDispose s
  rest : s.lifecycle = .disposed → s.AtRest
  none : s.streamController.NoneAfterClose

theorem inv_init : Inv (State.init auth now) where
  closed := closedByDispose_init
  rest h := by cases h
  none := StreamController.noneAfterClose_of_open rfl

theorem inv_dispose (hrest : s.AtRest) (hnone : s.streamController.NoneAfterClose) : Inv s.dispose where
  closed := iff_of_true StreamController.isClosed_close rfl
  rest _ := ⟨hrest.point, hrest.job, hrest.fetch⟩
  none := hnone.close

theorem inv_step (hi : Inv s) (hok : s.lifecycle = .opened → ClosesAtRest s e)
    (h : step page s e = some s') : Inv s' := by
  have hclosed := closedByDispose_step hi.closed h
  rcases step_cases h with ⟨rfl, hopen, rfl⟩ | hs
  · exact inv_dispose (hok hopen) hi.none
  · refine ⟨hclosed, fun hdisposed => ?_, ?_⟩
    · have hbefore := hs.disposed.1 hdisposed
      exact hs.rest hbefore (hi.rest hbefore)
    · rcases hs.stream with hsame | ⟨hadd, hout⟩
      · rw [hsame]
        exact hi.none
      · -- a closed page is at rest, so it is an open one that adds
        have hopen : s.streamController.isClosed = false :=
          Bool.eq_false_iff.2 fun hc => hout (hi.closed.1 hc) (hi.rest (hi.closed.1 hc))
        rw [hadd]
        exact StreamController.noneAfterClose_add hopen

/-- In every run that closes the page only at rest, nothing is added to the stream after
`dispose`. -/
theorem no_update_after_dispose (page : Page) (auth : AuthProvider) (now : Date) (es : List Event)
    (s : State) (h : run (step page) (State.init auth now) es = some s)
    (hok : Guarded (step page) ClosesAtRest (State.init auth now) es) :
    s.streamController.NoneAfterClose :=
  (guarded_induction (P := fun _ s => Inv s) inv_init
    (fun _ _ _ _ _ hi hok hstep => inv_step hi (fun _ => hok) hstep) h hok).none

/-- The next answer after a page was closed too early. -/
theorem adds_after_dispose (page : Page) (h : ¬ s.AtRest) :
    ∃ e s', step page s.dispose e = some s' ∧
      s'.streamController = s.streamController.close.add "update" := by
  obtain ⟨email, hmem⟩ | ⟨email, hmem⟩ | ⟨email, hfetch⟩ | ⟨email, hfetch⟩ := outstanding_of_not_atRest h
  · exact ⟨.pointResponse email (.ok ∅), _, if_pos hmem, rfl⟩
  · exact ⟨.jobResponse email (.ok ∅), _, if_pos hmem, rfl⟩
  · refine ⟨.fetchPointResponse (.ok ∅), s.dispose.fetchPointResponse (.ok ∅), ?_, rfl⟩
    simp only [step, State.dispose, hfetch]
  · refine ⟨.fetchJobResponse (.ok ∅), s.dispose.fetchJobResponse (.ok ∅), ?_, rfl⟩
    simp only [step, State.dispose, hfetch]

theorem inv_after_dispose {fs : List Event} (hi : Inv s) (hdisposed : s.lifecycle = .disposed)
    (h : run (step page) s fs = some s') : Inv s' := by
  refine (run_induction (P := fun _ s => Inv s ∧ s.lifecycle = .disposed) ⟨hi, hdisposed⟩ ?_ h).1
  intro _ s e s' _ ⟨hi, hdisposed⟩ hstep
  refine ⟨inv_step hi (by simp [hdisposed]) hstep, ?_⟩
  rcases step_cases hstep with ⟨-, -, rfl⟩ | hs
  · rfl
  · exact hs.disposed.2 hdisposed

/-- Whether an open page may be closed: whatever happens afterwards adds nothing to its stream
exactly when it is at rest. -/
theorem dispose_safe_iff (page : Page) (auth : AuthProvider) (now : Date) (es : List Event) (s : State)
    (h : run (step page) (State.init auth now) es = some s) (hopen : s.lifecycle = .opened) :
    (∀ fs s', run (step page) s (.closed :: fs) = some s' → s'.streamController.NoneAfterClose) ↔
      s.AtRest := by
  have hclose : step page s .closed = some s.dispose := if_pos hopen
  refine ⟨fun hall => ?_, fun hrest fs s' hrun => ?_⟩
  · by_contra hout
    obtain ⟨e, s', hs', hadd⟩ := adds_after_dispose page hout
    have hnone := hall [e] s' (by simp [run, hclose, hs'])
    rw [hadd] at hnone
    exact StreamController.not_noneAfterClose_add StreamController.isClosed_close hnone
  · rw [run, hclose, Option.bind_some] at hrun
    have hopened : s.streamController.isClosed = false := by
      refine Bool.eq_false_iff.2 fun hc => ?_
      have hdisposed := (closedByDispose_run h).1 hc
      rw [hopen] at hdisposed
      cases hdisposed
    exact (inv_after_dispose (inv_dispose hrest (StreamController.noneAfterClose_of_open hopened))
      rfl hrun).none

def family : AuthProvider := ⟨{ email := "child@example.com", name := "child" },
  [{ email := "child@example.com", name := "child" }]⟩

/-- The page is left while `_fetchData` awaits the points. -/
def leftEarly : List Event := [.opened, .fetchData, .closed, .fetchPointResponse (.ok ∅)]

theorem leftEarly_adds {page : Page} (h : (run (step page) (State.init family sampleTime.toDate)
      leftEarly).any (fun s => decide (s.streamController.calls = [.close, .add "update"])) = true) :
    ∃ s, run (step page) (State.init family sampleTime.toDate) leftEarly = some s ∧
      ¬ s.streamController.NoneAfterClose := by
  obtain ⟨s, hrun, hcalls⟩ := exists_run_of_any h
  exact ⟨s, hrun, fun hnone => hnone [] [.add "update"] hcalls "update" (by simp)⟩

/-- On both pages the answer comes after `dispose`. -/
theorem update_after_dispose :
    (∃ s, run (step statisticsPage) (State.init family sampleTime.toDate) leftEarly = some s ∧
      ¬ s.streamController.NoneAfterClose) ∧
    ∃ s, run (step myStatisticsPage) (State.init family sampleTime.toDate) leftEarly = some s ∧
      ¬ s.streamController.NoneAfterClose :=
  ⟨leftEarly_adds (by decide +kernel), leftEarly_adds (by decide +kernel)⟩

/-- A tap and a change of the month, and the page is left when everything has been answered. -/
def leftAtRest : List Event :=
  [.opened, .fetchData, .tap 0, .arrowLeft, .pointResponse "child@example.com" (.ok ∅),
    .fetchPointResponse (.error .unavailable), .jobResponse "child@example.com" (.ok ∅), .closed]

theorem no_update_after_dispose_leftAtRest :
    ∃ s, run (step statisticsPage) (State.init family sampleTime.toDate) leftAtRest = some s ∧
      s.lifecycle = .disposed ∧ s.streamController.NoneAfterClose := by
  obtain ⟨s, hrun, hdisposed⟩ : ∃ s, run (step statisticsPage)
      (State.init family sampleTime.toDate) leftAtRest = some s ∧ s.lifecycle = .disposed :=
    exists_run_of_any (by decide +kernel)
  exact ⟨s, hrun, hdisposed, no_update_after_dispose statisticsPage family sampleTime.toDate _ s hrun
    (Checked.guarded (by decide +kernel))⟩

section Shown

variable {db : Db}

/-- The state without the stream, the month and the end of the page. -/
def State.shown (s : State) : Statistics.State :=
  ⟨s.auth.children, s.lifecycle != .notOpened, s.selected, s.pointRecords, s.jobRecords, s.fetch⟩

/-- The exception of a request that has failed. -/
def failure {β : Type} : Except Exception β → Option Exception
  | .ok _ => none
  | .error e => some e

theorem response_failure {β : Type} {record result : Except Exception β}
    (h : ∀ map, result = .ok map → record = .ok map) :
    Statistics.response record (failure result) = result := by
  cases result with
  | ok map => exact h map rfl
  | error e => rfl

def Event.shown : Event → List Statistics.Event
  | .opened | .build => [.build]
  | .authChanged auth => [.childrenChanged auth.children]
  | .fetchData => [.fetchData]
  | .tap index => [.tap index]
  | .pointResponse email result => [.pointResponse email (failure result)]
  | .jobResponse email result => [.jobResponse email (failure result)]
  | .fetchPointResponse result => [.fetchResponse (failure result)]
  | .fetchJobResponse result => [.fetchResponse (failure result)]
  | .arrowLeft | .arrowRight | .closed => []

/-- The page is not closed, and the answers are the maps that the store gives, or failures. -/
def StoreAnswers (db : Db) (s : State) : Event → Prop
  | .pointResponse email result =>
    ∀ map, result = .ok map → Statistics.pointRecord db email = .ok map
  | .jobResponse email result =>
    ∀ map, result = .ok map → Statistics.jobRecord db email = .ok map
  | .fetchPointResponse result => ∀ email, s.fetch = .awaitingPoint email →
    ∀ map, result = .ok map → Statistics.pointRecord db email = .ok map
  | .fetchJobResponse result => ∀ email, s.fetch = .awaitingJob email →
    ∀ map, result = .ok map → Statistics.jobRecord db email = .ok map
  | .closed => False
  | _ => True

theorem shown_fetchData : (s.fetchData statisticsPage).shown = s.shown.fetchData := by
  simp only [State.fetchData, Statistics.State.fetchData, State.shown, statisticsPage]
  cases s.auth.children.head? <;> rfl

/-- A step of the open page is one of the page without stream, or none. -/
theorem shown_step (hclosed : s.streamController.isClosed = false) (hlife : s.lifecycle ≠ .disposed)
    (hok : StoreAnswers db s e) (h : step statisticsPage s e = some s') :
    run (Statistics.step db) s.shown e.shown = some s'.shown := by
  cases e with
  | opened =>
    obtain ⟨hnot, ⟨⟩⟩ := Option.ite_none_right_eq_some.1 h
    rfl
  | authChanged auth =>
    cases h
    rfl
  | build =>
    obtain ⟨hopen, ⟨⟩⟩ := Option.ite_none_right_eq_some.1 h
    simp [Event.shown, run, Statistics.step, State.shown, statisticsPage, hopen]
  | fetchData =>
    obtain ⟨hcall, -⟩ := Option.ite_none_right_eq_some.1 h
    simp only [step, if_pos hcall] at h
    split at h
    · cases h
    · next hopen =>
      cases h
      have hbuilt : s.shown.built = true ∧ s.shown.fetch = .notCalled := by
        simp [State.shown, hopen, hcall]
      rw [Event.shown, run, Statistics.step, if_pos hbuilt, shown_fetchData]
      rfl
    · next hdisposed => exact absurd hdisposed hlife
  | tap index =>
    obtain ⟨hopen, hs'⟩ := Option.ite_none_right_eq_some.1 h
    obtain ⟨child, hchild, rfl⟩ := Option.map_eq_some_iff.1 hs'
    have hbuilt : s.shown.built = true := by simp [State.shown, hopen]
    have hchild' : s.shown.children[index]? = some child := hchild
    rw [Event.shown, run, Statistics.step, if_pos hbuilt, hchild']
    rfl
  | arrowLeft =>
    obtain ⟨hopen, ⟨⟩⟩ := Option.ite_none_right_eq_some.1 h
    rfl
  | arrowRight =>
    obtain ⟨hopen, ⟨⟩⟩ := Option.ite_none_right_eq_some.1 h
    rfl
  | pointResponse email result =>
    obtain ⟨hmem, ⟨⟩⟩ := Option.ite_none_right_eq_some.1 h
    have hslot : s.shown.pointRecords.deliver email result = some _ := if_pos hmem
    rw [Event.shown, run, Statistics.step, response_failure hok, hslot]
    cases result <;> rfl
  | jobResponse email result =>
    obtain ⟨hmem, ⟨⟩⟩ := Option.ite_none_right_eq_some.1 h
    have hslot : s.shown.jobRecords.deliver email result = some _ := if_pos hmem
    rw [Event.shown, run, Statistics.step, response_failure hok, hslot]
    cases result <;> rfl
  | fetchPointResponse result =>
    obtain ⟨email, hfetch, rfl⟩ := fetchPointResponse_eq h
    have hawaits : s.shown.fetch = .awaitingPoint email := hfetch
    simp only [Event.shown, run, Statistics.step, hawaits, response_failure (hok email hfetch)]
    cases result with
    | ok map =>
      rw [State.fetchPointResponse, hclosed]
      rfl
    | error e => rfl
  | fetchJobResponse result =>
    obtain ⟨email, hfetch, rfl⟩ := fetchJobResponse_eq h
    have hawaits : s.shown.fetch = .awaitingJob email := hfetch
    simp only [Event.shown, run, Statistics.step, hawaits, response_failure (hok email hfetch)]
    cases result <;> rfl
  | closed => exact hok.elim

/-- As long as it is open and answered from the store, the page is the one without stream. -/
theorem shown_run (h : run (step statisticsPage) (State.init auth now) es = some s)
    (hok : Guarded (step statisticsPage) (StoreAnswers db) (State.init auth now) es) :
    run (Statistics.step db) (Statistics.State.init auth.children) (es.flatMap Event.shown) =
      some s.shown := by
  refine (guarded_induction (P := fun es s => run (Statistics.step db)
    (Statistics.State.init auth.children) (es.flatMap Event.shown) = some s.shown ∧
      s.lifecycle ≠ .disposed) ⟨rfl, by simp [State.init]⟩ ?_ h hok).1
  intro es s e s' hrun ⟨ih, hlife⟩ hok hstep
  have hclosed : s.streamController.isClosed = false :=
    Bool.eq_false_iff.2 fun hc => hlife ((closedByDispose_run hrun).1 hc)
  refine ⟨?_, ?_⟩
  · rw [List.flatMap_append, run_append, ih, Option.bind_some, List.flatMap_singleton]
    exact shown_step hclosed hlife hok hstep
  · rcases step_cases hstep with ⟨rfl, -, -⟩ | hs
    · exact hok.elim
    · rwa [Ne, hs.disposed]

/-- An open page that has come to rest shows the selected child when the answers arrived in
order. -/
theorem open_page_shows_selected (h : run (step statisticsPage) (State.init auth now) es = some s)
    (hok : Guarded (step statisticsPage) (StoreAnswers db) (State.init auth now) es)
    (horder : Guarded (Statistics.step db) (Statistics.InOrder db)
      (Statistics.State.init auth.children) (es.flatMap Event.shown))
    (hsettled : s.shown.Settled) : s.shown.ShowsSelected db :=
  (Statistics.inv_run (shown_run h hok) horder).shows hsettled

end Shown
end HomeBank.StreamUpdates
