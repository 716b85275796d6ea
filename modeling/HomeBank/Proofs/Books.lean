import HomeBank.Proofs.Payment

/-! The books balance in every state: whatever the parents confirm, and however the transactions
are interleaved or fail, the growth of the balance and what is still owed are together the points
of the finished jobs and of the confirmations that found none. -/

namespace HomeBank.Payment

open Dart Firestore FirstMatch Transition

variable {ι : Type} [DecidableEq ι] {tiles : ι → JobModel} {users : Option UserDoc}
  {point : Option PointDoc} {es : List (Event ι)} {s s' : State ι} {s₀ : State ι}

/-- What is known of the confirmations at every moment, whether they find a job or not. -/
structure Kept (tiles : ι → JobModel) (users : Option UserDoc) (point : Option PointDoc)
    (es : List (Event ι)) (s : State ι) : Prop where
  ledger : run (Ledger.step fun i => payment (tiles i)) (Ledger.State.init users point) (payments es) =
    some s.ledger
  once : s.finished.Nodup
  idle : ∀ i, i ∉ s.finished → s.ledger.phase i = .idle

theorem Kept.job (hk : Kept tiles users point es s) {e : Event ι} (he : e.payment? = none)
    (hledger : s'.ledger = s.ledger) (hfinished : s'.finished = s.finished) :
    Kept tiles users point (es ++ [e]) s' := by
  refine ⟨?_, hfinished ▸ hk.once, ?_⟩
  · rw [payments_snoc, he, hledger]
    simpa using hk.ledger
  · rw [hfinished, hledger]
    exact hk.idle

omit [DecidableEq ι] in
theorem pointsOf_append (is js : List ι) :
    pointsOf tiles (is ++ js) = pointsOf tiles is + pointsOf tiles js := by
  simp [pointsOf]

omit [DecidableEq ι] in
/-- Finishing a tile adds its points to the finished jobs, or else finds none. -/
theorem finished_points {i : ι} {doc' : Option JobDoc}
    (h : jobHandlers.commit (finishTile (tiles i)) s.job = some doc') :
    finishedPoints doc' + pointsOf tiles (Event.stale? tiles s (.finish i)).toList =
      finishedPoints s.job + (tiles i).point := by
  cases hmatch : matchesTile (tiles i) s.job with
  | true =>
    rw [finishedPoints_finishJob h (.inl hmatch)]
    simp [Event.stale?, hmatch, pointsOf]
  | false =>
    -- nothing is buffered, so the document stays
    obtain ⟨u, hbody, ⟨-, rfl⟩ | ⟨v, d, rfl, -, -⟩⟩ := jobHandlers.of_commit h
    · simp [Event.stale?, hmatch, pointsOf]
    · have hsome := isSome_of_changeJobBody hbody
      rw [hmatch] at hsome
      cases hsome

/-- What a step does to the jobs and to the books. -/
theorem kept_step {e : Event ι} (hk : Kept tiles users point es s) (h : step tiles s e = some s') :
    Kept tiles users point (es ++ [e]) s' ∧
      finishedPoints s'.job + pointsOf tiles (e.stale? tiles s).toList + pointsOf tiles s.finished =
        finishedPoints s.job + pointsOf tiles s'.finished := by
  cases e with
  | create type note date point =>
    obtain ⟨job, hcommit, rfl⟩ := Option.map_eq_some_iff.1 h
    refine ⟨hk.job rfl rfl rfl, ?_⟩
    simp [finishedPoints_createJob hcommit, Event.stale?, pointsOf]
  | display =>
    simp only [step] at h
    split at h
    · cases h
    · cases h
      exact ⟨hk.job rfl rfl rfl, by simp [Event.stale?, pointsOf]⟩
  | delete tile =>
    obtain ⟨-, hs'⟩ := Option.ite_none_right_eq_some.1 h
    obtain ⟨job, hcommit, rfl⟩ := Option.map_eq_some_iff.1 hs'
    refine ⟨hk.job rfl rfl rfl, ?_⟩
    simp [finishedPoints_deleteJob hcommit, Event.stale?, pointsOf]
  | finish i =>
    obtain ⟨⟨-, hnew⟩, hs'⟩ := Option.ite_none_right_eq_some.1 h
    obtain ⟨job, hcommit, rfl⟩ := Option.map_eq_some_iff.1 hs'
    refine ⟨⟨?_, ?_, fun j hj => hk.idle j fun hmem => hj (List.mem_append_left _ hmem)⟩, ?_⟩
    · rw [payments_snoc]
      simpa [Event.payment?] using hk.ledger
    · rw [← List.concat_eq_append]
      exact hk.once.concat hnew
    · rw [finished_points hcommit, pointsOf_append]
      simp only [pointsOf, List.map_singleton, List.sum_singleton]
      abel
  | pay e =>
    obtain ⟨hstarted, hs'⟩ := Option.ite_none_right_eq_some.1 h
    obtain ⟨ledger, hstep, rfl⟩ := Option.map_eq_some_iff.1 hs'
    refine ⟨⟨?_, hk.once, fun i hnot => ?_⟩, by simp [Event.stale?, pointsOf]⟩
    · rw [payments_snoc]
      exact run_snoc_iff.2 ⟨s.ledger, hk.ledger, hstep⟩
    · exact (Ledger.step_cases hstep).idle (hk.idle i hnot) fun he => hnot (hstarted i he)

theorem kept_run {job : Option JobDoc}
    (h : run (step tiles) (State.init job users point) es = some s) :
    Kept tiles users point es s ∧ finishedPoints s.job +
      pointsOf tiles (stale tiles (State.init job users point) es) =
        finishedPoints job + pointsOf tiles s.finished := by
  refine run_induction (P := fun es s => Kept tiles users point es s ∧ finishedPoints s.job +
    pointsOf tiles (stale tiles (State.init job users point) es) =
      finishedPoints job + pointsOf tiles s.finished) ⟨⟨rfl, List.nodup_nil, fun _ _ => rfl⟩, ?_⟩ ?_ h
  · simp [stale, observed, pointsOf, State.init]
  · rintro es s e s' hrun ⟨hk, hpoints⟩ hstep
    obtain ⟨hk', hstep'⟩ := kept_step hk hstep
    refine ⟨hk', ?_⟩
    rw [stale, observed_snoc _ hrun, pointsOf_append]
    rw [stale] at hpoints
    refine add_right_cancel (b := pointsOf tiles s.finished) ?_
    calc _ = (finishedPoints s'.job + pointsOf tiles (e.stale? tiles s).toList +
          pointsOf tiles s.finished) + pointsOf tiles
            (observed (step tiles) (Event.stale? tiles) (State.init job users point) es) := by abel
      _ = (finishedPoints s.job + pointsOf tiles
            (observed (step tiles) (Event.stale? tiles) (State.init job users point) es)) +
          pointsOf tiles s'.finished := by rw [hstep']; abel
      _ = _ := by rw [hpoints]; abel

/-- The payments that have committed are those of the confirmations that have returned. -/
theorem committed_perm (hk : Kept tiles users point es s) {b₀ : Int64}
    (hl : Ledger.Inv (fun i => payment (tiles i)) b₀ (payments es) s.ledger) :
    (Ledger.committed (payments es)).Perm (s.finished.filter fun i => hasReturned s i) := by
  have hiff : ∀ i, hasReturned s i = true ↔ s.ledger.phase i = .returned := by
    intro i
    unfold hasReturned
    split <;> simp_all
  refine (List.perm_ext_iff_of_nodup hl.once (hk.once.filter _)).2 fun i => ?_
  rw [hl.closed, List.mem_filter, hiff]
  refine ⟨fun hret => ⟨?_, hret⟩, fun hret => hret.2⟩
  by_contra hnot
  rw [hk.idle i hnot] at hret
  cases hret

/-- In every state of every run the books balance. What the balance has grown by, and the points
of the confirmations that are still owed because their payment has not returned, are together
the points of the jobs that have been finished since, and of the confirmations that found no job. -/
theorem books_balance (tiles : ι → JobModel) (job : Option JobDoc) (users : Option UserDoc)
    (point : Option PointDoc) (b₀ : Int64) (hb : intField users "point" = .ok b₀)
    (es : List (Event ι)) (s : State ι)
    (h : run (step tiles) (State.init job users point) es = some s) :
    ∃ b, intField s.ledger.users.val "point" = .ok b ∧
      (b - b₀) + pointsOf tiles (owed s) = (finishedPoints s.job - finishedPoints job) +
        pointsOf tiles (stale tiles (State.init job users point) es) := by
  obtain ⟨hk, hpoints⟩ := kept_run h
  have hl := Ledger.inv_run hb hk.ledger
  refine ⟨_, hl.balance, ?_⟩
  have hpaid := ((committed_perm hk hl).map fun i => (tiles i).point).sum_eq
  have hsplit := ((List.filter_append_perm (fun i => hasReturned s i) s.finished).map
    fun i => (tiles i).point).sum_eq
  rw [List.map_append, List.sum_append, ← hpaid] at hsplit
  have hjobs : finishedPoints s.job - finishedPoints job +
      pointsOf tiles (stale tiles (State.init job users point) es) = pointsOf tiles s.finished := by
    rw [sub_add_eq_add_sub, hpoints, add_sub_cancel_left]
  rw [hjobs, add_sub_cancel_left]
  exact hsplit

/-- The second confirmation finds no job, and is what has been paid too much. -/
theorem books_balance_confirmedTwice :
    ∃ s b, run (step sameTile) startUnpaid confirmedTwice = some s ∧
      intField s.ledger.users.val "point" = .ok b ∧ (b - 0) + pointsOf sameTile (owed s) =
        (finishedPoints s.job - finishedPoints (unpaid.job "child@example.com")) +
          pointsOf sameTile [true] := by
  have hruns : (run (step sameTile) startUnpaid confirmedTwice).isSome = true := by decide +kernel
  obtain ⟨s, hrun⟩ := Option.isSome_iff_exists.1 hruns
  have hstale : stale sameTile startUnpaid confirmedTwice = [true] := by decide +kernel
  obtain ⟨b, hb, hbooks⟩ := books_balance sameTile (unpaid.job "child@example.com") (some sampleUsers)
    (some samplePoint) 0 rfl confirmedTwice s hrun
  rw [startUnpaid] at hstale
  rw [hstale] at hbooks
  exact ⟨s, b, hrun, hb, hbooks⟩

end HomeBank.Payment
