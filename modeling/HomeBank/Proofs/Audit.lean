import HomeBank.Proofs.Account
import HomeBank.Proofs.Ledger

/-! The audit of an account. An attempt that commits has written its record after the commit
before it, since it has read the balance that this commit has left. So the records of the
committed attempts lie in the document in the order of the commits, each with the balance of
the one before it plus its own points; the other records belong to attempts that were rolled
back. Where none was, the calls have done what they do one after another. -/

namespace HomeBank

open Dart Firestore Optimistic Transaction Transition

theorem runningTotals_append {b₀ : Int64} {records : List PointModel} {record : PointModel} :
    RunningTotals b₀ (records ++ [record]) ↔ RunningTotals b₀ records ∧
      record.total = (records.getLast?.map PointModel.total).getD b₀ + record.point := by
  induction records generalizing b₀ with
  | nil => simp [RunningTotals]
  | cons r records ih =>
    rw [List.cons_append, RunningTotals, RunningTotals, ih, List.getLast?_cons]
    cases records.getLast? <;> simp [and_assoc]

/-- The handler of `addRecord` always buffers an update. -/
theorem commit_record {entry : Entry} {doc doc' : Option PointDoc}
    (h : recordHandlers.commit entry doc = some doc') :
    ∃ u d, addRecordBody entry.args entry.total entry.today (some d) = .ok (some u) ∧
      doc = some d ∧ doc' = some (u.apply d) := by
  obtain ⟨u, hbody, hcases⟩ := recordHandlers.of_commit h
  have hbody' : addRecordBody entry.args entry.total entry.today doc = .ok u := hbody
  rcases hcases with ⟨rfl, -⟩ | ⟨v, d, rfl, rfl, rfl⟩
  · rw [addRecordBody_eq] at hbody'
    cases hl : listField doc (getYearMonth entry.today) <;> simp [hl, Except.map] at hbody'
  · exact ⟨v, d, hbody', rfl, rfl⟩

namespace Ledger

theorem lastTotal_append (b₀ : Int64) (chain : List Entry) (entry : Entry) :
    lastTotal b₀ (chain ++ [entry]) = entry.total := by
  simp [lastTotal]

theorem lastTotal_eq (b₀ : Int64) (chain : List Entry) :
    ((chain.map Entry.model).getLast?.map PointModel.total).getD b₀ = lastTotal b₀ chain := by
  rw [lastTotal, List.getLast?_map, Option.map_map]
  rfl

variable {ι : Type} [DecidableEq ι] {calls : ι → PointArgs} {b₀ : Int64} {users : UserDoc}
  {point : PointDoc} {es : List (Event ι)} {s s' : State ι} {entries chain : List Entry}

omit [DecidableEq ι] in
theorem clock_snoc (es : List (Event ι)) (e : Event ι) :
    clock (es ++ [e]) = clock es ++ e.readTime?.toList :=
  filterMap_snoc _ es e

/-- The trail, and what is known of the attempts that can still commit: the record of a
recorded attempt comes after the whole chain, and a clock reading after all records. -/
structure TrailInv (calls : ι → PointArgs) (b₀ : Int64) (users : UserDoc) (point : PointDoc)
    (es : List (Event ι)) (s : State ι) (entries chain : List Entry) : Prop where
  trail : Trail calls b₀ users point es s entries chain
  pending : ∀ i snap total, s.phase i = .recorded snap total → snap.ver = s.users.ver →
    ∃ today, (chain ++ [Entry.mk (calls i) total today]).Sublist entries
  fresh : ∀ i snap total recordSnap today, s.phase i = .recording snap total recordSnap today →
    recordSnap.ver = s.point.ver → (entries.map Entry.today ++ [today]).Sublist (clock es)

omit [DecidableEq ι] in
theorem TrailInv.init (hb : intField (some users) "point" = .ok b₀) :
    TrailInv calls b₀ users point [] (State.init (some users) (some point)) [] [] := by
  refine ⟨⟨rfl, rfl, List.Sublist.refl _, List.Sublist.refl _, trivial, hb, rfl, rfl⟩, ?_, ?_⟩
  · rintro i snap total ⟨⟩
  · rintro i snap total recordSnap today ⟨⟩

/-- A call moves on without writing to a document. -/
theorem TrailInv.goto (ht : TrailInv calls b₀ users point es s entries chain) {e : Event ι}
    (hcommitted : e.committed? = none) (hstored : e.stored? = none) {i : ι} {p : Phase}
    (hrecorded : ∀ snap total, p ≠ .recorded snap total)
    (hrecording : ∀ snap total recordSnap today, p = .recording snap total recordSnap today →
      e.readTime? = some today) :
    TrailInv calls b₀ users point (es ++ [e]) (s.goto i p) entries chain := by
  have hclock : (clock es).Sublist (clock (es ++ [e])) := by
    rw [clock_snoc]
    exact List.sublist_append_left _ _
  refine ⟨?_, fun j snap total hj hv => ?_, fun j snap total recordSnap today hj hv => ?_⟩
  · obtain ⟨hwritten, hchosen, hwithin, htimes, htotals, hbalance, husers, hpoint⟩ := ht.trail
    refine ⟨?_, ?_, hwithin, htimes.trans hclock, htotals, hbalance, husers, hpoint⟩
    · rw [stored_snoc, hstored, hwritten]
      simp
    · rw [committed_snoc, hcommitted, hchosen]
      simp
  · rw [goto_phase] at hj
    split at hj
    · exact absurd hj (hrecorded snap total)
    · exact ht.pending j snap total hj hv
  · rw [goto_phase] at hj
    split at hj
    · rw [clock_snoc, hrecording snap total recordSnap today hj]
      exact ht.trail.times.append (List.Sublist.refl _)
    · exact (ht.fresh j snap total recordSnap today hj hv).trans hclock

/-- A record is written on the version of the point document that its attempt has read. -/
theorem TrailInv.commitPoint (ht : TrailInv calls b₀ users point es s entries chain)
    (hr : RecordInv calls point es s) {i : ι} {snap : Cell (Option UserDoc)} {total : Int64}
    {recordSnap : Cell (Option PointDoc)} {today : DateTime} {u : Update PointMap} {d : PointDoc}
    (hp : s.phase i = .recording snap total recordSnap today) (hv : recordSnap.ver = s.point.ver)
    (hb : addRecordBody (calls i) total today recordSnap.val = .ok (some u))
    (hd : s.point.val = some d) :
    TrailInv calls b₀ users point (es ++ [.commitPoint i])
      { s.goto i (.recorded snap total) with point := s.point.write (some (u.apply d)) }
      (entries ++ [⟨calls i, total, today⟩]) chain := by
  have hclock : clock (es ++ [.commitPoint i]) = clock es := by simp [clock_snoc, Event.readTime?]
  have hbody : addRecordBody (calls i) total today s.point.val = .ok (some u) := by
    rw [← (hr.seen i snap total recordSnap today hp).val_eq hv]
    exact hb
  refine ⟨?_, fun j snap' total' hj hv' => ?_, fun j snap' total' recordSnap' today' hj hv' => ?_⟩
  · obtain ⟨hwritten, hchosen, hwithin, htimes, htotals, hbalance, husers, hpoint⟩ := ht.trail
    refine ⟨?_, ?_, hwithin.trans (List.sublist_append_left _ _), ?_, htotals, hbalance, husers, ?_⟩
    · rw [stored_snoc, List.map_append, hwritten]
      simp [Event.stored?]
    · rw [committed_snoc, hchosen]
      simp [Event.committed?]
    · rw [List.map_append, hclock]
      exact ht.fresh i snap total recordSnap today hp hv
    · have hcommit : recordHandlers.commit ⟨calls i, total, today⟩ s.point.val =
          some (some (u.apply d)) := recordHandlers.commit_of_body hd hbody
      rw [List.foldlM_append, hpoint]
      simp [hcommit]
  · rw [goto_phase] at hj
    split at hj
    · next hji =>
      subst hji
      cases hj
      exact ⟨today, ht.trail.within.append (List.Sublist.refl _)⟩
    · obtain ⟨today', hsub⟩ := ht.pending j snap' total' hj hv'
      exact ⟨today', hsub.trans (List.sublist_append_left _ _)⟩
  · rw [goto_phase] at hj
    split at hj
    · cases hj
    · -- another attempt has read the document before this write
      have hle := (hr.seen j snap' total' recordSnap' today' hj).ver_le
      simp only [Cell.write_ver] at hv'
      omega

/-- The users transaction commits on the balance that its attempt has read, so its record is
the next one of the chain. -/
theorem TrailInv.commitUser (ht : TrailInv calls b₀ users point es s entries chain)
    (hi : Inv calls b₀ es s) {i : ι} {snap : Cell (Option UserDoc)} {total : Int64} {d : UserDoc}
    (hp : s.phase i = .recorded snap total) (hv : snap.ver = s.users.ver)
    (hd : s.users.val = some d) :
    ∃ chain', TrailInv calls b₀ users point (es ++ [.commitUser i])
      { s.goto i .returned with users := s.users.write (some ((totalUpdate total).apply d)) }
      entries chain' := by
  obtain ⟨today, hsub⟩ := ht.pending i snap total hp hv
  obtain ⟨hseen, htotal⟩ := hi.seen i snap total (by rw [hp]; rfl)
  rw [hseen.val_eq hv] at htotal
  obtain ⟨balance, hbalance, rfl⟩ := newTotal_eq_ok htotal
  obtain ⟨hwritten, hchosen, hwithin, htimes, htotals, hlast, husers, hpoint⟩ := ht.trail
  obtain rfl : balance = lastTotal b₀ chain := Except.ok.inj (hbalance.symm.trans hlast)
  have hclock : clock (es ++ [.commitUser i]) = clock es := by simp [clock_snoc, Event.readTime?]
  refine ⟨_, ⟨?_, ?_, hsub, ?_, ?_, ?_, ?_, hpoint⟩, fun j snap' total' hj hv' => ?_,
    fun j snap' total' recordSnap today' hj hv' => ?_⟩
  · rw [stored_snoc, hwritten]
    simp [Event.stored?]
  · rw [committed_snoc, List.map_append, List.map_append, hchosen]
    rfl
  · rw [hclock]
    exact htimes
  · rw [List.map_append, List.map_singleton, runningTotals_append, lastTotal_eq]
    exact ⟨htotals, rfl⟩
  · rw [lastTotal_append]
    exact intField_insert d "point" _
  · rw [hd] at husers
    rw [List.foldl_append, ← Option.some.inj husers]
    rfl
  · rw [goto_phase] at hj
    split at hj
    · cases hj
    · -- another attempt has read the balance before this commit
      have hle := (hi.seen j snap' total' (by rw [hj]; rfl)).1.ver_le
      simp only [Cell.write_ver] at hv'
      omega
  · rw [goto_phase] at hj
    rw [hclock]
    split at hj
    · cases hj
    · exact ht.fresh j snap' total' recordSnap today' hj hv'

theorem trail_step (hi : Inv calls b₀ es s) (hr : RecordInv calls point es s)
    (ht : TrailInv calls b₀ users point es s entries chain) {e : Event ι}
    (h : Step calls s e s') :
    ∃ entries' chain', TrailInv calls b₀ users point (es ++ [e]) s' entries' chain' := by
  cases h with
  | commitPoint hp hv hb hd => exact ⟨_, _, ht.commitPoint hr hp hv hb hd⟩
  | commitUser hp hv hd => exact ⟨_, ht.commitUser hi hp hv hd⟩
  | readPoint hp =>
    refine ⟨_, _, ht.goto rfl rfl (by rintro _ _ ⟨⟩) ?_⟩
    rintro _ _ _ _ ⟨⟩
    rfl
  | start hp | readUser hp ht' | rerunPoint hp hv | rerunUser hp hv | fail hidle hret =>
    exact ⟨_, _, ht.goto rfl rfl (by rintro _ _ ⟨⟩) (by rintro _ _ _ _ ⟨⟩)⟩

theorem trail_run (hb : intField (some users) "point" = .ok b₀)
    (h : run (step calls) (State.init (some users) (some point)) es = some s) :
    ∃ entries chain, Trail calls b₀ users point es s entries chain := by
  obtain ⟨entries, chain, ht⟩ : ∃ entries chain,
      TrailInv calls b₀ users point es s entries chain := by
    refine run_induction (P := fun es s => ∃ entries chain,
      TrailInv calls b₀ users point es s entries chain) ⟨[], [], TrailInv.init hb⟩ ?_ h
    intro es s e s' hrun ⟨entries, chain, ht⟩ hstep
    exact trail_step (inv_run hb hrun) (recordInv_run hrun) ht (step_cases hstep)
  exact ⟨entries, chain, ht.trail⟩

/-- Records that were written one after the other are held by the document after those that
it held before. -/
theorem holds_replay {value : Option (Value PointMap)} {old : List Entry}
    (hholds : Holds value old point) {entries : List Entry} {doc' : Option PointDoc}
    (h : entries.foldlM (fun doc entry => recordHandlers.commit entry doc) (some point) =
      some doc') : ∃ point', doc' = some point' ∧ Holds value (old ++ entries) point' := by
  induction entries generalizing old point with
  | nil =>
    cases h
    exact ⟨point, rfl, by simpa using hholds⟩
  | cons entry entries ih =>
    rw [List.foldlM_cons] at h
    obtain ⟨doc₁, hcommit, hrest⟩ := Option.bind_eq_some_iff.1 h
    obtain ⟨u, d, hbody, ⟨⟩, rfl⟩ := commit_record hcommit
    obtain ⟨u', hbody', hholds'⟩ := hholds.addRecordBody entry.args entry.total entry.today
    obtain rfl : u = u' := by simpa using hbody.symm.trans hbody'
    obtain ⟨point', hdoc, hall⟩ := ih hholds' hrest
    exact ⟨point', hdoc, by simpa using hall⟩

/-- When no call is left half done, the calls that have committed are those that have been
started. -/
theorem committed_perm_started (hi : Inv calls b₀ es s) (hr : RecordInv calls point es s)
    (hdone : ∀ i ∈ started es, s.phase i = .returned) : (committed es).Perm (started es) := by
  refine (List.perm_ext_iff_of_nodup hi.once hr.startedOnce).2 fun i => ?_
  rw [hi.closed]
  exact ⟨fun hret => (hr.isStarted i).2 (by simp [hret]), hdone i⟩

/-- Without a rolled-back attempt, all records of calls that have returned are in the chain. -/
theorem Trail.entries_eq (ht : Trail calls b₀ users point es s entries chain)
    (hr : RecordInv calls point es s) (hi : Inv calls b₀ es s) (hnone : rolledBack es = [])
    (hdone : ∀ i ∈ started es, s.phase i = .returned) : entries = chain := by
  have hstored := hr.stored_eq hdone
  rw [hnone, Multiset.coe_nil, add_zero, Multiset.coe_eq_coe] at hstored
  have hcommitted := committed_perm_started hi hr hdone
  refine (ht.within.eq_of_length ?_).symm
  rw [← List.length_map (f := Entry.args), ← List.length_map (f := Entry.args), ht.chosen, ht.written,
    List.length_map, List.length_map, hcommitted.length_eq, hstored.length_eq]

/-- Under any interleaving of `changePoint` calls the records of the attempts that have
committed can be found again in the point document, in the order of their commits: each has
the balance of the one before it plus its own points, and the last one has the balance that
is stored. The document holds one record for each attempt that came as far, after those that
it held before; if the clock never goes back, its lists in the order of the months are these
records in the order of their writing. When every started call has returned and no attempt has been
rolled back, there are no other new ones. The calls start from a balance that can be read and a point
document as `addRecord` writes it. -/
theorem audit_trail (calls : ι → PointArgs) (users : UserDoc) (point : PointDoc) (b₀ : Int64)
    (hb : intField (some users) "point" = .ok b₀) (value : Option (Value PointMap))
    (old : List Entry) (hholds : Holds value old point) (es : List (Event ι)) (s : State ι)
    (h : run (step calls) (State.init (some users) (some point)) es = some s) :
    ∃ point' entries chain, s.point.val = some point' ∧ Holds value (old ++ entries) point' ∧
      entries.map Entry.args = (stored es).map calls ∧
      chain.map Entry.args = (committed es).map calls ∧ chain.Sublist entries ∧
      RunningTotals b₀ (chain.map Entry.model) ∧
      intField s.users.val "point" = .ok (lastTotal b₀ chain) ∧
      ((old.map Entry.today ++ clock es).Pairwise (fun a b => a.stamp ≤ b.stamp) →
        ∀ months, Chronological point' months →
          (months.flatMap fun month => rowsAt point' (nameOf month)) =
            (old ++ entries).map Entry.stored) ∧
      (rolledBack es = [] → (∀ i ∈ started es, s.phase i = .returned) → entries = chain) := by
  obtain ⟨entries, chain, ht⟩ := trail_run hb h
  obtain ⟨point', hpoint, hholds'⟩ := holds_replay hholds ht.point_eq
  refine ⟨point', entries, chain, hpoint, hholds', ht.written, ht.chosen, ht.within, ht.totals,
    ht.balance, fun hclock months hm => ?_, ht.entries_eq (recordInv_run h) (inv_run hb h)⟩
  refine hholds'.flatMap_rowsAt ?_ hm
  have htimes : ((old ++ entries).map Entry.today).Sublist (old.map Entry.today ++ clock es) := by
    rw [List.map_append]
    exact (List.Sublist.refl _).append ht.times
  have hsorted := hclock.sublist htimes
  rwa [List.pairwise_map] at hsorted

/-- Three records, and the two payments among them. -/
theorem audit_trail_doubledRecord :
    ∃ (s : State Bool) (point' : PointDoc) (entries chain : List Entry),
      run (step sampleCalls) (State.init (some sampleUsers) (some samplePoint)) doubledRecord =
        some s ∧ s.point.val = some point' ∧
      Holds (some (.string "parent@example.com")) entries point' ∧
      entries.map Entry.args = [sampleCalls false, sampleCalls true, sampleCalls true] ∧
      chain.map Entry.args = [sampleCalls false, sampleCalls true] ∧ chain.Sublist entries ∧
      RunningTotals 0 (chain.map Entry.model) := by
  have hrun : (run (step sampleCalls) (State.init (some sampleUsers) (some samplePoint))
      doubledRecord).isSome = true := by
    decide +kernel
  obtain ⟨s, hs⟩ := Option.isSome_iff_exists.1 hrun
  obtain ⟨point', entries, chain, hpoint, hholds, hwritten, hchosen, hwithin, htotals, -⟩ :=
    audit_trail sampleCalls sampleUsers samplePoint 0 rfl _ [] (Files.init rfl) doubledRecord s hs
  exact ⟨s, point', entries, chain, hs, hpoint, hholds, hwritten, hchosen, hwithin, htotals⟩

/-! One call after the other. -/

/-- A call whose transactions commit at once, on whatever documents they can. -/
theorem changePoint_of_commit {email : String} {db : Db} {balance : Int64} {args : PointArgs}
    {today : DateTime} {doc' : Option PointDoc} (husers : db.users email = some users)
    (hb : intField (some users) "point" = .ok balance)
    (hcommit : recordHandlers.commit ⟨args, balance + args.point, today⟩ (db.point email) =
      some doc') :
    ∃ db', changePoint email args (acceptedAt today) db = (.ok (), db') ∧
      db'.users email = some ((totalUpdate (balance + args.point)).apply users) ∧
      db'.point email = doc' := by
  obtain ⟨u, d, hbody, hdoc, rfl⟩ := commit_record hcommit
  have htotal : newTotal args.point (some users) = .ok (balance + args.point) := by
    rw [newTotal, hb]
    rfl
  have hrecord : addRecord email args (balance + args.point) [(.accepted, today)] db =
      (.ok (), (pointRef email).put (u.apply d) db) := by
    simp [addRecord, runTransaction, pureBody, pointRef, hdoc, hbody, commit]
  refine ⟨(usersRef email).put ((totalUpdate (balance + args.point)).apply users)
    ((pointRef email).put (u.apply d) db), ?_, Function.update_self .., Function.update_self ..⟩
  simp [changePoint, acceptedAt, runTransaction, changePointBody, htotal, hrecord, commit,
    show (usersRef email).get db = some users from husers]

/-- The calls of a chain, made one after the other at the times of its records. -/
theorem changePoints_of_chain {email : String} {db : Db} {balance : Int64} {doc' : Option PointDoc}
    (husers : db.users email = some users) (hb : intField (some users) "point" = .ok balance)
    (htotals : RunningTotals balance (chain.map Entry.model))
    (hchain : chain.foldlM (fun doc entry => recordHandlers.commit entry doc) (db.point email) =
      some doc') :
    ∃ db', changePoints email (chain.map fun entry => (entry.args, entry.today)) db = (.ok (), db') ∧
      db'.users email =
        some (chain.foldl (fun doc entry => (totalUpdate entry.total).apply doc) users) ∧
      db'.point email = doc' := by
  induction chain generalizing db users balance with
  | nil =>
    cases hchain
    exact ⟨db, rfl, husers, rfl⟩
  | cons entry chain ih =>
    obtain ⟨args, total, today⟩ := entry
    obtain ⟨rfl, htotals'⟩ : total = balance + args.point ∧ _ := htotals
    rw [List.foldlM_cons] at hchain
    obtain ⟨doc₁, hcommit, hrest⟩ := Option.bind_eq_some_iff.1 hchain
    obtain ⟨db₁, hcall, husers₁, rfl⟩ := changePoint_of_commit husers hb hcommit
    obtain ⟨db', hcalls, husers', hpoint'⟩ :=
      ih husers₁ (intField_insert users "point" _) htotals' hrest
    refine ⟨db', ?_, husers', hpoint'⟩
    rw [List.map_cons, changePoints, hcall]
    exact hcalls

/-- Where no users transaction has been rolled back and every call has returned, the calls
have left the documents that they leave when they are made one after the other, in the order
of their commits and each at the time of its record. -/
theorem undisturbed_calls_serialise (calls : ι → PointArgs) (email : String) (db : Db)
    (users : UserDoc) (point : PointDoc) (b₀ : Int64) (husers : db.users email = some users)
    (hpoint : db.point email = some point) (hb : intField (some users) "point" = .ok b₀)
    (es : List (Event ι)) (s : State ι)
    (h : run (step calls) (State.init (some users) (some point)) es = some s)
    (hnone : rolledBack es = []) (hdone : ∀ i ∈ started es, s.phase i = .returned) :
    ∃ times db', times.Sublist (clock es) ∧ times.length = (committed es).length ∧
      changePoints email (((committed es).map calls).zip times) db = (.ok (), db') ∧
      db'.users email = s.users.val ∧ db'.point email = s.point.val := by
  obtain ⟨entries, chain, ht⟩ := trail_run hb h
  obtain rfl := ht.entries_eq (recordInv_run h) (inv_run hb h) hnone hdone
  obtain ⟨db', hcalls, husers', hpoint'⟩ :=
    changePoints_of_chain husers hb ht.totals (hpoint ▸ ht.point_eq)
  refine ⟨entries.map Entry.today, db', ht.times, ?_, ?_, husers'.trans ht.users_eq.symm, hpoint'⟩
  · rw [List.length_map, ← List.length_map (f := Entry.args), ht.chosen, List.length_map]
  · rw [← ht.chosen, List.zip_map']
    exact hcalls

theorem undisturbed_calls_serialise_singleRecords :
    ∃ s times db', run (step sampleCalls) (State.init (some sampleUsers) (some samplePoint))
        singleRecords = some s ∧ times.length = 2 ∧
      changePoints "child@example.com" ([sampleCalls false, sampleCalls true].zip times)
        sampleAccount = (.ok (), db') ∧
      db'.users "child@example.com" = s.users.val ∧ db'.point "child@example.com" = s.point.val := by
  obtain ⟨s, hrun, hret⟩ :
      ∃ s, run (step sampleCalls) (State.init (some sampleUsers) (some samplePoint)) singleRecords =
          some s ∧ ∀ i, s.phase i = .returned :=
    exists_run_of_any (by decide +kernel)
  obtain ⟨times, db', -, hlen, hcalls, husers, hpoint⟩ :=
    undisturbed_calls_serialise sampleCalls "child@example.com" sampleAccount sampleUsers
      samplePoint 0 rfl rfl rfl singleRecords s hrun rfl fun i _ => hret i
  exact ⟨s, times, db', hrun, hlen, hcalls, husers, hpoint⟩

end Ledger

end HomeBank
