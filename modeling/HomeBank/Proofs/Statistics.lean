import HomeBank.Spec.Statistics

/-! What the statistics page shows when it has come to rest. A response for another child
is harmless as long as one for the selected child follows it. -/

namespace HomeBank.Statistics

open Dart Firestore Transition

variable {db : Db} {s s' : State}

/-- Each kind of records is that of the selected child, or will be. -/
structure Inv (db : Db) (s : State) : Prop where
  point : ∀ child ∈ s.selected,
    s.pointRecords.Settles (pointRecord db) child.email ∨ s.fetch.AsksPoint child.email
  job : ∀ child ∈ s.selected,
    s.jobRecords.Settles (jobRecord db) child.email ∨ s.fetch.AsksJob child.email

theorem inv_init (children : List UserModel) : Inv db (State.init children) :=
  ⟨fun _ _ => .inr trivial, fun _ _ => .inr trivial⟩

theorem inv_build (hi : Inv db s) (hok : InOrder db s .build) :
    Inv db { s with built := true, selected := s.selected.or s.children.head? } := by
  cases hsel : s.selected with
  | some child =>
    refine ⟨fun c hc => hi.point c ?_, fun c hc => hi.job c ?_⟩ <;> simpa [hsel] using hc
  | none =>
    by_cases hfetch : s.fetch = .notCalled
    · simp only [hfetch]
      exact ⟨fun _ _ => .inr trivial, fun _ _ => .inr trivial⟩
    · have hheld := hok hsel hfetch
      refine ⟨fun c hc => .inl (.inl (hheld c ?_).1), fun c hc => .inl (.inl (hheld c ?_).2)⟩ <;>
        simpa using hc

theorem inv_fetchData : Inv db s.fetchData := by
  unfold State.fetchData
  split
  · constructor
    · rintro c ⟨⟩
      exact .inr rfl
    · rintro c ⟨⟩
      exact .inr trivial
  · constructor <;> rintro c ⟨⟩

theorem inv_onTap (child : UserModel) : Inv db (s.onTap child) := by
  refine ⟨?_, ?_⟩
  · rintro c ⟨⟩
    exact .inl Slot.settles_request
  · rintro c ⟨⟩
    exact .inl Slot.settles_request

theorem inv_pointResponse {email : String} {failure : Option Exception}
    {slot : Slot String (Records PointModel)} (hi : Inv db s)
    (hok : InOrder db s (.pointResponse email failure))
    (h : s.pointRecords.deliver email (response (pointRecord db email) failure) = some slot) :
    Inv db { s with pointRecords := slot } :=
  ⟨fun c hc => Slot.settles_deliver h (hok c hc), hi.job⟩

theorem inv_jobResponse {email : String} {failure : Option Exception}
    {slot : Slot String (Records JobModel)} (hi : Inv db s)
    (hok : InOrder db s (.jobResponse email failure))
    (h : s.jobRecords.deliver email (response (jobRecord db email) failure) = some slot) :
    Inv db { s with jobRecords := slot } :=
  ⟨hi.point, fun c hc => Slot.settles_deliver h (hok c hc)⟩

/-- A first request that fails ends `_fetchData` before the second, which then must not be
needed any more. -/
theorem inv_pointFetched {result : Except Exception (Records PointModel)}
    (hok : ∀ child ∈ s.selected,
      (s.pointRecords.Suits (pointRecord db) child.email result ∨
        child.email ∈ s.pointRecords.inFlight) ∧
      (result.isOk ∨ s.jobRecords.Settles (jobRecord db) child.email)) :
    Inv db (s.pointFetched result) := by
  refine ⟨fun c hc => .inl (Slot.settles_receive (hok c hc).1), fun c hc => ?_⟩
  rcases (hok c hc).2 with hread | hsettled
  · -- the second request is for the child selected now, whoever the first was for
    have hselected : s.selected = some c := hc
    refine .inr ?_
    rw [State.pointFetched, if_pos hread, hselected]
    exact rfl
  · exact .inl hsettled

theorem inv_jobFetched {email : String} {result : Except Exception (Records JobModel)}
    (hi : Inv db s) (hfetch : s.fetch = .awaitingJob email)
    (hok : ∀ child ∈ s.selected, s.jobRecords.Suits (jobRecord db) child.email result ∨
      child.email ∈ s.jobRecords.inFlight) :
    Inv db (s.jobFetched result) := by
  refine ⟨fun c hc => ?_, fun c hc => .inl (Slot.settles_receive (hok c hc))⟩
  rcases hi.point c hc with hpoint | hasks
  · exact .inl hpoint
  · rw [hfetch] at hasks
    exact hasks.elim

theorem inv_fetchResponse {failure : Option Exception} (hi : Inv db s)
    (hok : InOrder db s (.fetchResponse failure)) (h : step db s (.fetchResponse failure) = some s') :
    Inv db s' := by
  simp only [step] at h
  simp only [InOrder] at hok
  split at h
  · next email hfetch =>
    cases h
    rw [hfetch] at hok
    exact inv_pointFetched hok
  · next email hfetch =>
    cases h
    rw [hfetch] at hok
    exact inv_jobFetched hi hfetch hok
  · cases h

theorem inv_step {e : Event} (hi : Inv db s) (hok : InOrder db s e) (h : step db s e = some s') :
    Inv db s' := by
  cases e with
  | childrenChanged children =>
    cases h
    exact ⟨hi.point, hi.job⟩
  | build =>
    cases h
    exact inv_build hi hok
  | fetchData =>
    obtain ⟨-, hs'⟩ := Option.ite_none_right_eq_some.1 h
    cases hs'
    exact inv_fetchData
  | tap index =>
    obtain ⟨-, hs'⟩ := Option.ite_none_right_eq_some.1 h
    obtain ⟨child, -, rfl⟩ := Option.map_eq_some_iff.1 hs'
    exact inv_onTap child
  | pointResponse email failure =>
    obtain ⟨slot, hslot, rfl⟩ := Option.map_eq_some_iff.1 h
    exact inv_pointResponse hi hok hslot
  | jobResponse email failure =>
    obtain ⟨slot, hslot, rfl⟩ := Option.map_eq_some_iff.1 h
    exact inv_jobResponse hi hok hslot
  | fetchResponse failure => exact inv_fetchResponse hi hok h

theorem inv_run {children : List UserModel} {es : List Event}
    (h : run (step db) (State.init children) es = some s)
    (hok : Guarded (step db) (InOrder db) (State.init children) es) : Inv db s :=
  guarded_induction (P := fun _ s => Inv db s) (inv_init children)
    (fun _ _ _ _ _ hi hok hstep => inv_step hi hok hstep) h hok

theorem Inv.shows (hi : Inv db s) (hsettled : s.Settled) : s.ShowsSelected db := by
  obtain ⟨hpoint, hjob, hfetch⟩ := hsettled
  intro c hc
  refine ⟨?_, ?_⟩
  · rcases hi.point c hc with h | h
    · exact h.holds hpoint
    · rw [hfetch] at h
      exact h.elim
  · rcases hi.job c hc with h | h
    · exact h.holds hjob
    · rw [hfetch] at h
      exact h.elim

/-- In every run whose responses come in order, failures included, and whose builds do not choose
a child after `_fetchData` found none, the page at rest shows the selected child. -/
theorem shows_selected (db : Db) (children : List UserModel) (es : List Event) (s : State)
    (h : run (step db) (State.init children) es = some s)
    (hok : Guarded (step db) (InOrder db) (State.init children) es) (hsettled : s.Settled) :
    s.ShowsSelected db :=
  (inv_run h hok).shows hsettled

def firstChild : UserModel := { email := "first@example.com", name := "first" }

def secondChild : UserModel := { email := "second@example.com", name := "second" }

/-- Only the first child has a record. -/
def twoChildren : Db where
  users _ := none
  point email :=
    if email = firstChild.email then
      some (samplePoint.insert "2024-03"
        (.list [(PointModel.mk "add" "chores" "2024-03-09 12:00:00" 7 7).toJson]))
    else none
  job _ := none

/-- The second child is tapped while `_fetchData` awaits the points of the first. -/
def tapped (responses : List Event) : List Event := [.build, .fetchData, .tap 1] ++ responses

/-- The child arrives after `_fetchData` has found none. -/
def childrenLate : List Event := [.build, .fetchData, .childrenChanged [firstChild], .build]

/-- In the first run the late points of the first child replace those of the second, in the
second run they stay because those of the second cannot be read, and in the third run nothing is
ever asked for the child that `build` selects. -/
theorem shows_other_child :
    (∃ s, run (step twoChildren) (State.init [firstChild, secondChild])
        (tapped [.pointResponse secondChild.email none, .fetchResponse none, .fetchResponse none,
          .jobResponse secondChild.email none]) = some s ∧
      s.Settled ∧ ¬ s.ShowsSelected twoChildren) ∧
    (∃ s, run (step twoChildren) (State.init [firstChild, secondChild])
        (tapped [.fetchResponse none, .fetchResponse none,
          .pointResponse secondChild.email (some .unavailable),
          .jobResponse secondChild.email none]) = some s ∧
      s.Settled ∧ ¬ s.ShowsSelected twoChildren) ∧
    ∃ s, run (step twoChildren) (State.init []) childrenLate = some s ∧
      s.Settled ∧ ¬ s.ShowsSelected twoChildren :=
  ⟨exists_run_of_any (by decide +kernel), exists_run_of_any (by decide +kernel),
    exists_run_of_any (by decide +kernel)⟩

/-- The second child is tapped once more after its points could not be read, and the responses
come in the order of the requests. -/
def tappedAgain : List Event :=
  tapped [.fetchResponse none, .tap 1, .pointResponse secondChild.email (some .unavailable),
    .fetchResponse none, .jobResponse secondChild.email none,
    .pointResponse secondChild.email none, .jobResponse secondChild.email none]

theorem shows_selected_tapped :
    ∃ s, run (step twoChildren) (State.init [firstChild, secondChild]) tappedAgain = some s ∧
      s.selected = some secondChild ∧ s.ShowsSelected twoChildren := by
  obtain ⟨s, hrun, hselected, hsettled⟩ : ∃ s, run (step twoChildren)
      (State.init [firstChild, secondChild]) tappedAgain = some s ∧
      s.selected = some secondChild ∧ s.Settled := exists_run_of_any (by decide +kernel)
  exact ⟨s, hrun, hselected,
    shows_selected twoChildren [firstChild, secondChild] _ s hrun
      (Checked.guarded (by decide +kernel)) hsettled⟩

end HomeBank.Statistics
