import HomeBank.Proofs.Confirm
import HomeBank.Proofs.Ledger
import HomeBank.Spec.Payment

/-! Who is paid for what. `finishJob` returns normally when no unfinished job matches its
tile, and the points are paid all the same. As long as every confirmation finds a job, the
points of the finished jobs are those of the confirmations, and the balance grows by the
points of the confirmations that have paid. -/

namespace HomeBank

open Dart Firestore FirstMatch Transaction Transition

/-! What the handlers do to the rows of the finished jobs. -/

theorem finishedRows_createJob {type note : String} {date : DateTime} {point : Int64} {d : JobDoc}
    {u : Update JobMap} (h : createJobBody type note date point (some d) = .ok (some u)) :
    finishedRows (u.apply d) = finishedRows d := by
  rw [createJobBody_eq] at h
  cases hlist : listField (some d) (getYearMonth date) with
  | error e => rw [hlist] at h; cases h
  | ok data =>
    rw [hlist] at h
    cases h
    obtain rfl := listField_eq_ok hlist
    rw [finishedRows, Update.apply, rows_append,
      Multiset.filter_cons_of_neg _ (by simp [JobModel.toJson])]
    rfl

/-- A found row is exchanged for what the change makes of it. -/
theorem rows_changeJobBody {change : List JobMap → ℕ → List JobMap} {t : JobMap → List JobMap}
    (hchange : ∀ p data index, data.findIdx? p = some index →
      change data index = changeFirst p t data)
    {type note date : String} {point : Int64} {d : JobDoc} {u : Update JobMap}
    (h : changeJobBody change type note date point (some d) = .ok (some u)) :
    ∃ row : JobMap, row.finish = some false ∧ row.point = some point ∧
      rows (u.apply d) + {row} = rows d + (t row : Multiset JobMap) := by
  obtain ⟨dateTime, data, -, hlist, hu⟩ := changeJobBody_eq_ok h
  obtain ⟨index, hfind, rfl⟩ := Option.map_eq_some_iff.1 hu.symm
  obtain ⟨l₁, row, l₂, hmatch, rfl, hfirst⟩ := exists_of_findIdx? hfind
  have hrow := (matchesDetail_iff rfl).1 hmatch
  refine ⟨row, by rw [hrow]; rfl, by rw [hrow]; rfl, ?_⟩
  have hrows := rows_insert d (getYearMonth dateTime) (.list (l₁ ++ t row ++ l₂))
  rw [listField_eq_ok hlist] at hrows
  rw [Update.apply, hchange _ _ _ hfind, hfirst]
  simp only [Value.rows, ← Multiset.coe_add, ← Multiset.cons_coe, ← Multiset.singleton_add] at hrows
  refine add_right_cancel (b := (l₁ + l₂ : Multiset JobMap)) ?_
  calc _ = _ := by abel
    _ = _ := hrows
    _ = _ := by abel

/-- The row that is found was unfinished, so what matters is what the change makes of it. -/
theorem finishedRows_changeJobBody {change : List JobMap → ℕ → List JobMap} {t : JobMap → List JobMap}
    (hchange : ∀ p data index, data.findIdx? p = some index →
      change data index = changeFirst p t data)
    {type note date : String} {point : Int64} {d : JobDoc} {u : Update JobMap}
    (h : changeJobBody change type note date point (some d) = .ok (some u)) :
    ∃ row : JobMap, row.point = some point ∧ finishedRows (u.apply d) =
      finishedRows d + (t row : Multiset JobMap).filter fun row => row.finish = some true := by
  obtain ⟨row, hfinish, hpoint, hrows⟩ := rows_changeJobBody hchange h
  have hkeep := congrArg (Multiset.filter fun row : JobMap => row.finish = some true) hrows
  rw [Multiset.filter_add, Multiset.filter_add, Multiset.filter_singleton,
    if_neg (by simp [hfinish])] at hkeep
  exact ⟨row, hpoint, by simpa [finishedRows] using hkeep⟩

namespace Payment

theorem finishedPoints_createJob {type note : String} {date : DateTime} {point : Int64}
    {doc doc' : Option JobDoc}
    (h : jobHandlers.commit (.createJob type note date point) doc = some doc') :
    finishedPoints doc' = finishedPoints doc := by
  obtain ⟨u, hbody, ⟨-, rfl⟩ | ⟨v, d, rfl, rfl, rfl⟩⟩ := jobHandlers.of_commit h
  · rfl
  · exact congrArg (fun rows => (rows.map fun row : JobMap => row.point.getD 0).sum)
      (finishedRows_createJob hbody)

theorem finishedPoints_deleteJob {tile : JobModel} {doc doc' : Option JobDoc}
    (h : jobHandlers.commit (deleteTile tile) doc = some doc') :
    finishedPoints doc' = finishedPoints doc := by
  obtain ⟨u, hbody, ⟨-, rfl⟩ | ⟨v, d, rfl, rfl, rfl⟩⟩ := jobHandlers.of_commit h
  · rfl
  · obtain ⟨row, -, hrows⟩ := finishedRows_changeJobBody (t := fun _ => [])
      (fun _ _ _ hfind => eraseIdx_findIdx? hfind) hbody
    have hfin : finishedRows (v.apply d) = finishedRows d := by simpa using hrows
    exact congrArg (fun rows => (rows.map fun row : JobMap => row.point.getD 0).sum) hfin

/-- When a stored job matches the tile, finishing it adds its points to the sum. -/
theorem finishedPoints_finishJob {tile : JobModel} {doc doc' : Option JobDoc}
    (h : jobHandlers.commit (finishTile tile) doc = some doc')
    (hmatch : matchesTile tile doc = true ∨ tile.point = 0) :
    finishedPoints doc' = finishedPoints doc + tile.point := by
  obtain ⟨u, hbody, ⟨rfl, rfl⟩ | ⟨v, d, rfl, rfl, rfl⟩⟩ := jobHandlers.of_commit h
  · rw [← isSome_of_changeJobBody hbody] at hmatch
    simpa using hmatch
  · obtain ⟨row, hpoint, hrows⟩ := finishedRows_changeJobBody
      (t := fun row => [{ row with finish := some true }])
      (fun _ _ _ hfind => modify_findIdx? hfind) hbody
    rw [Multiset.coe_singleton, Multiset.filter_singleton, if_pos rfl] at hrows
    simp only [finishedPoints, Option.elim_some]
    rw [show jobHandlers.apply v d = v.apply d from rfl, hrows, Multiset.map_add, Multiset.sum_add,
      Multiset.map_singleton, Multiset.sum_singleton, hpoint]
    rfl

variable {ι : Type}

theorem payments_snoc (es : List (Event ι)) (e : Event ι) :
    payments (es ++ [e]) = payments es ++ e.payment?.toList :=
  filterMap_snoc _ es e

variable [DecidableEq ι] {tiles : ι → JobModel} {users : Option UserDoc} {point : Option PointDoc}
  {es : List (Event ι)} {s s' : State ι}

/-- What holds of the confirmations at every moment: each has marked its own job, and has
been paid by a `changePoint` call of its own, or will be. -/
structure Inv (tiles : ι → JobModel) (users : Option UserDoc) (point : Option PointDoc)
    (es : List (Event ι)) (s : State ι) : Prop where
  ledger : run (Ledger.step fun i => payment (tiles i)) (Ledger.State.init users point) (payments es) =
    some s.ledger
  once : s.finished.Nodup
  idle : ∀ i, i ∉ s.finished → s.ledger.phase i = .idle
  points : finishedPoints s.job = (s.finished.map fun i => (tiles i).point).sum

/-- A step that pays nothing leaves the ledger alone. -/
theorem Inv.job (hi : Inv tiles users point es s) {e : Event ι} (he : e.payment? = none)
    (hledger : s'.ledger = s.ledger) (hfinished : s'.finished = s.finished)
    (hpoints : finishedPoints s'.job = finishedPoints s.job) :
    Inv tiles users point (es ++ [e]) s' := by
  refine ⟨?_, ?_, ?_, ?_⟩
  · rw [payments_snoc, he, hledger]
    simpa using hi.ledger
  · rw [hfinished]
    exact hi.once
  · rw [hfinished, hledger]
    exact hi.idle
  · rw [hpoints, hfinished]
    exact hi.points

theorem Inv.finish (hi : Inv tiles users point es s) {i : ι} (hnew : i ∉ s.finished)
    {job : Option JobDoc} (hpoints : finishedPoints job = finishedPoints s.job + (tiles i).point) :
    Inv tiles users point (es ++ [.finish i]) { s with job, finished := s.finished ++ [i] } := by
  refine ⟨?_, ?_, fun j hj => ?_, ?_⟩
  · rw [payments_snoc]
    simpa [Event.payment?] using hi.ledger
  · rw [← List.concat_eq_append]
    exact hi.once.concat hnew
  · exact hi.idle j fun hmem => hj (List.mem_append_left _ hmem)
  · rw [List.map_append, List.sum_append, ← hi.points]
    simpa using hpoints

theorem Inv.pay (hi : Inv tiles users point es s) {e : Ledger.Event ι}
    (hstarted : ∀ i ∈ e.started?, i ∈ s.finished) {ledger : Ledger.State ι}
    (hstep : Ledger.step (fun i => payment (tiles i)) s.ledger e = some ledger) :
    Inv tiles users point (es ++ [.pay e]) { s with ledger } := by
  refine ⟨?_, hi.once, fun i hnot => ?_, hi.points⟩
  · rw [payments_snoc]
    exact run_snoc_iff.2 ⟨s.ledger, hi.ledger, hstep⟩
  · exact (Ledger.step_cases hstep).idle (hi.idle i hnot) fun he => hnot (hstarted i he)

theorem inv_step {e : Event ι} (hi : Inv tiles users point es s) (hfresh : Fresh tiles s e)
    (h : step tiles s e = some s') : Inv tiles users point (es ++ [e]) s' := by
  cases e with
  | create type note date point =>
    obtain ⟨job, hcommit, rfl⟩ := Option.map_eq_some_iff.1 h
    exact hi.job rfl rfl rfl (finishedPoints_createJob hcommit)
  | display =>
    simp only [step] at h
    split at h
    · cases h
    · cases h
      exact hi.job rfl rfl rfl rfl
  | delete tile =>
    obtain ⟨-, hs'⟩ := Option.ite_none_right_eq_some.1 h
    obtain ⟨job, hcommit, rfl⟩ := Option.map_eq_some_iff.1 hs'
    exact hi.job rfl rfl rfl (finishedPoints_deleteJob hcommit)
  | finish i =>
    obtain ⟨⟨-, hnew⟩, hs'⟩ := Option.ite_none_right_eq_some.1 h
    obtain ⟨job, hcommit, rfl⟩ := Option.map_eq_some_iff.1 hs'
    exact hi.finish hnew (finishedPoints_finishJob hcommit hfresh)
  | pay e =>
    obtain ⟨hstarted, hs'⟩ := Option.ite_none_right_eq_some.1 h
    obtain ⟨ledger, hstep, rfl⟩ := Option.map_eq_some_iff.1 hs'
    exact hi.pay hstarted hstep

theorem inv_run {job : JobDoc} (hnone : finishedRows job = 0)
    (h : run (step tiles) (State.init (some job) users point) es = some s)
    (hfresh : Guarded (step tiles) (Fresh tiles) (State.init (some job) users point) es) :
    Inv tiles users point es s := by
  refine guarded_induction (P := Inv tiles users point) ⟨rfl, List.nodup_nil, fun _ _ => rfl, ?_⟩
    (fun _ _ _ _ _ hi hok hstep => inv_step hi hok hstep) h hfresh
  simp [State.init, finishedPoints, hnone]

/-- When no confirmation is half done, the payments that have committed are those of the
confirmations. -/
theorem Inv.committed_perm {b₀ : Int64} (hi : Inv tiles users point es s)
    (hl : Ledger.Inv (fun i => payment (tiles i)) b₀ (payments es) s.ledger)
    (hdone : s.NoneHalfDone) : (Ledger.committed (payments es)).Perm s.finished := by
  refine (List.perm_ext_iff_of_nodup hl.once hi.once).2 fun i => ?_
  rw [hl.closed]
  refine ⟨?_, ?_⟩
  · intro hret
    by_contra hnot
    rw [hi.idle i hnot] at hret
    cases hret
  · exact hdone i

/-- In every run in which each confirmation finds an unfinished job that matches its tile, a
job is paid once: whenever no confirmation is half done, the balance has grown by exactly
the points of the finished jobs. -/
theorem paid_once (tiles : ι → JobModel) (job : JobDoc) (users : Option UserDoc)
    (point : Option PointDoc) (b₀ : Int64) (hnone : finishedRows job = 0)
    (hb : intField users "point" = .ok b₀) (es : List (Event ι)) (s : State ι)
    (h : run (step tiles) (State.init (some job) users point) es = some s)
    (hfresh : Guarded (step tiles) (Fresh tiles) (State.init (some job) users point) es)
    (hdone : s.NoneHalfDone) :
    ∃ b, intField s.ledger.users.val "point" = .ok b ∧ b - b₀ = finishedPoints s.job := by
  have hi := inv_run hnone h hfresh
  have hl := Ledger.inv_run hb hi.ledger
  refine ⟨_, hl.balance, ?_⟩
  rw [add_sub_cancel_left, hi.points]
  exact ((hi.committed_perm hl hdone).map fun i => (tiles i).point).sum_eq

/-- Both confirmations are about the same tile. -/
def sameTile : Bool → JobModel := fun _ => unpaidTile

/-- The steps of a `changePoint` call that nothing disturbs. -/
def paying (i : Bool) : List (Event Bool) :=
  [.pay (.start i), .pay (.readUser i), .pay (.readPoint i sampleTime), .pay (.commitPoint i),
    .pay (.commitUser i)]

/-- One device shows the tile and confirms it. -/
def confirmedOnce : List (Event Bool) := .display :: .finish false :: paying false

/-- Another device confirms the tile that it still shows. -/
def confirmedTwice : List (Event Bool) := confirmedOnce ++ .finish true :: paying true

def startUnpaid : State Bool :=
  .init (unpaid.job "child@example.com") (some sampleUsers) (some samplePoint)

instance (s : State ι) : Decidable s.NoneHalfDone :=
  inferInstanceAs (Decidable (∀ i ∈ s.finished, s.ledger.phase i = .returned))

instance (s : State ι) : ∀ e, Decidable (Fresh tiles s e)
  | .finish _ => inferInstanceAs (Decidable (_ ∨ _))
  | .create .. | .display | .delete _ | .pay _ => inferInstanceAs (Decidable True)

/-- The second confirmation finds no job any more, and is paid. -/
theorem paid_twice :
    ∃ s, run (step sameTile) startUnpaid confirmedTwice = some s ∧ s.NoneHalfDone ∧
      ∃ b, intField s.ledger.users.val "point" = .ok b ∧ b - 0 ≠ finishedPoints s.job := by
  obtain ⟨s, hrun, hdone, hb, hpoints⟩ :
      ∃ s, run (step sameTile) startUnpaid confirmedTwice = some s ∧ s.NoneHalfDone ∧
        intField s.ledger.users.val "point" = .ok 14 ∧ finishedPoints s.job = 7 :=
    exists_run_of_any (by decide +kernel)
  refine ⟨s, hrun, hdone, 14, hb, ?_⟩
  rw [hpoints]
  decide

theorem finishedRows_unpaid : finishedRows ((parentOnly "parent@example.com").insert "2024-03"
    (.list [unpaidTile.toJson])) = 0 := by
  decide +kernel

theorem paid_once_confirmedOnce :
    ∃ s b, run (step sameTile) startUnpaid confirmedOnce = some s ∧ s.finished = [false] ∧
      intField s.ledger.users.val "point" = .ok b ∧ b - 0 = 7 := by
  obtain ⟨s, hrun, hfinished, hdone, hpoints⟩ :
      ∃ s, run (step sameTile) startUnpaid confirmedOnce = some s ∧ s.finished = [false] ∧
        s.NoneHalfDone ∧ finishedPoints s.job = 7 :=
    exists_run_of_any (by decide +kernel)
  obtain ⟨b, hb, hpaid⟩ := paid_once sameTile _ (some sampleUsers) (some samplePoint) 0
    finishedRows_unpaid rfl confirmedOnce s hrun (Checked.guarded (by decide +kernel)) hdone
  exact ⟨s, b, hrun, hfinished, hb, hpaid.trans hpoints⟩

end Payment

end HomeBank
