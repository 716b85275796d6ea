import HomeBank.Lib.Contention
import HomeBank.Proofs.Audit

/-! Payments to one child against each other. Every attempt that is rolled back is paid for
by another payment that has committed, so the number of records is bounded by the number of
calls; a schedule of equally fast calls reaches the bound. And no payment can keep another
from returning. -/

namespace HomeBank.Ledger

open Dart Firestore Optimistic Transition

variable {ι : Type} [DecidableEq ι] {calls : ι → PointArgs} {b₀ : Int64} {users : UserDoc}
  {point : PointDoc} {es : List (Event ι)} {s s' : State ι}

/-- The rolled-back attempts so far are paid for by versions of the users document: those of
a call by the versions up to the one that its present attempt has read. -/
structure Covered (es : List (Event ι)) (s : State ι) : Prop where
  ver_eq : s.users.ver = (committed es).length
  charged : Charged (rolledBack es) (committed es)
  notIdle : ∀ i ∈ rolledBack es, s.phase i ≠ .idle
  open_le : ∀ i, s.phase i ≠ .returned → (rolledBack es).count i ≤ s.users.ver
  read_le : ∀ i snap total, (s.phase i).attempt? = some (snap, total) →
    (rolledBack es).count i ≤ snap.ver

theorem Covered.init (users : Option UserDoc) (point : Option PointDoc) :
    Covered [] (State.init users point : State ι) := by
  refine ⟨rfl, charged_nil, by simp [rolledBack], fun i _ => Nat.zero_le _, ?_⟩
  rintro i snap total ⟨⟩

/-- A call moves on, and possibly the point document with it. -/
theorem Covered.goto (hc : Covered es s) {e : Event ι} (hcommitted : e.committed? = none)
    (hrolledBack : e.rolledBack? = none) {i : ι} {p : Phase} (hopen : s.phase i ≠ .returned)
    (hidle : p ≠ .idle) (husers : s'.users = s.users)
    (hread : ∀ snap total, p.attempt? = some (snap, total) →
      snap = s.users ∨ ∃ total, (s.phase i).attempt? = some (snap, total))
    (hphase : ∀ j, s'.phase j = if j = i then p else s.phase j) : Covered (es ++ [e]) s' := by
  have hlog : committed (es ++ [e]) = committed es := by rw [committed_snoc, hcommitted]; simp
  have hback : rolledBack (es ++ [e]) = rolledBack es := by rw [rolledBack_snoc, hrolledBack]; simp
  refine ⟨?_, ?_, fun j hj => ?_, fun j hj => ?_, fun j snap total hj => ?_⟩
  · rw [husers, hlog]
    exact hc.ver_eq
  · rw [hback, hlog]
    exact hc.charged
  · rw [hphase]
    split
    · exact hidle
    · exact hc.notIdle j (hback ▸ hj)
  · rw [hphase] at hj
    rw [hback, husers]
    split at hj
    · next hji => exact hji ▸ hc.open_le i hopen
    · exact hc.open_le j hj
  · rw [hphase] at hj
    rw [hback]
    split at hj
    · next hji =>
      subst hji
      rcases hread snap total hj with rfl | ⟨total', hold⟩
      · exact hc.open_le j hopen
      · exact hc.read_le j snap total' hold
    · exact hc.read_le j snap total hj

theorem Covered.commitUser (hc : Covered es s) (i : ι) (users' : Option UserDoc) :
    Covered (es ++ [.commitUser i])
      { s.goto i .returned with users := s.users.write users' } := by
  have hlog : committed (es ++ [.commitUser i]) = committed es ++ [i] := committed_snoc es _
  have hback : rolledBack (es ++ [.commitUser i]) = rolledBack es := by
    simp [rolledBack_snoc, Event.rolledBack?]
  refine ⟨?_, ?_, fun j hj => ?_, fun j hj => ?_, fun j snap total hj => ?_⟩
  · simp [hlog, hc.ver_eq]
  · rw [hback, hlog]
    exact hc.charged.append [i]
  · rw [hback] at hj
    rw [goto_phase]
    split
    · simp
    · exact hc.notIdle j hj
  · rw [goto_phase] at hj
    rw [hback]
    split at hj
    · exact absurd rfl hj
    · exact Nat.le_succ_of_le (hc.open_le j hj)
  · rw [goto_phase] at hj
    rw [hback]
    split at hj
    · cases hj
    · exact hc.read_le j snap total hj

/-- The users document has been written since the attempt has read it. -/
theorem Covered.rerunUser (hc : Covered es s) (hi : Inv calls b₀ es s) {i : ι}
    {snap : Cell (Option UserDoc)} {total : Int64} (hp : s.phase i = .recorded snap total)
    (hv : snap.ver ≠ s.users.ver) : Covered (es ++ [.rerunUser i]) (s.goto i .ready) := by
  have hlog : committed (es ++ [.rerunUser i]) = committed es := by
    simp [committed_snoc, Event.committed?]
  have hback : rolledBack (es ++ [.rerunUser i]) = rolledBack es ++ [i] := rolledBack_snoc es _
  have hattempt : (s.phase i).attempt? = some (snap, total) := by rw [hp]; rfl
  have hlt : (rolledBack es).count i < s.users.ver := by
    have hread := hc.read_le i snap total hattempt
    have hseen := (hi.seen i snap total hattempt).1.ver_le
    omega
  have hother : ∀ j, j ≠ i → (rolledBack es ++ [i]).count j = (rolledBack es).count j := by
    intro j hne
    simp [hne.symm]
  refine ⟨?_, ?_, fun j hj => ?_, fun j hj => ?_, fun j snap' total' hj => ?_⟩
  · rw [hlog]
    exact hc.ver_eq
  · rw [hlog, hback]
    have hnew : i ∉ committed es := fun hmem => by simp [(hi.closed i).1 hmem] at hp
    exact hc.charged.refuse hnew (by rw [← hc.ver_eq]; exact hlt)
  · rw [hback, List.mem_append, List.mem_singleton] at hj
    rw [goto_phase]
    split
    · simp
    · next hne => exact hc.notIdle j (hj.resolve_right hne)
  · rw [goto_phase] at hj
    rw [hback, goto_users]
    split at hj
    · next hji =>
      subst hji
      simpa using hlt
    · next hne =>
      rw [hother j hne]
      exact hc.open_le j hj
  · rw [goto_phase] at hj
    rw [hback]
    split at hj
    · cases hj
    · next hne =>
      rw [hother j hne]
      exact hc.read_le j snap' total' hj

theorem covered_step (hi : Inv calls b₀ es s) (hc : Covered es s) {e : Event ι}
    (h : Step calls s e s') : Covered (es ++ [e]) s' := by
  cases h with
  | commitUser hp hv hd => exact hc.commitUser _ _
  | rerunUser hp hv => exact hc.rerunUser hi hp hv
  | start hp =>
    exact hc.goto rfl rfl (by simp [hp]) (by simp) rfl (by rintro _ _ ⟨⟩) (goto_phase s _ · _)
  | readUser hp ht =>
    refine hc.goto rfl rfl (by simp [hp]) (by simp) rfl ?_ (goto_phase s _ · _)
    rintro _ _ ⟨⟩
    exact .inl rfl
  | readPoint hp | commitPoint hp hv hb hd | rerunPoint hp hv =>
    refine hc.goto rfl rfl (by simp [hp]) (by simp) rfl ?_ (goto_phase s _ · _)
    rintro _ _ ⟨⟩
    exact .inr ⟨_, by rw [hp]; rfl⟩
  | fail hidle hret =>
    exact hc.goto rfl rfl hret (by simp) rfl (by rintro _ _ ⟨⟩) (goto_phase s _ · _)

theorem covered_run (hb : intField (some users) "point" = .ok b₀) {doc : Option PointDoc}
    (h : run (step calls) (State.init (some users) doc) es = some s) : Covered es s :=
  run_induction (P := fun es s => Covered es s) (Covered.init _ _)
    (fun _ _ _ _ hrun hc hs => covered_step (inv_run hb hrun) hc (step_cases hs)) h

theorem add_half (n : ℕ) : n + n * (n - 1) / 2 = n * (n + 1) / 2 := by
  have htriangle := Nat.triangle_succ n
  rw [Nat.add_sub_cancel, Nat.mul_comm] at htriangle
  omega

/-- The balance can be read, and every month list of the point document. -/
structure Serves (s : State ι) : Prop where
  users : ∃ users b, s.users.val = some users ∧ intField (some users) "point" = .ok b
  point : ∃ point value entries, s.point.val = some point ∧ Holds value entries point

omit [DecidableEq ι] in
theorem Serves.newTotal (hs : Serves s) (n : Int64) :
    ∃ total, newTotal n s.users.val = .ok total := by
  obtain ⟨users, b, husers, hb⟩ := hs.users
  refine ⟨b + n, ?_⟩
  rw [husers, HomeBank.newTotal, hb]
  rfl

def Event.call : Event ι → ι
  | .start i | .readUser i | .readPoint i _ | .commitPoint i | .rerunPoint i | .commitUser i
  | .rerunUser i | .fail i => i

/-- Some steps of call `i` that lead from `s` to `s'` and touch no other call. -/
structure Alone (calls : ι → PointArgs) (i : ι) (s : State ι) (es : List (Event ι))
    (s' : State ι) : Prop where
  own : ∀ e ∈ es, e.call = i
  runs : run (step calls) s es = some s'
  others : ∀ j, j ≠ i → s'.phase j = s.phase j
  serves : Serves s → Serves s'

theorem Alone.trans {i : ι} {es es' : List (Event ι)} {s₁ s₂ s₃ : State ι}
    (h : Alone calls i s₁ es s₂) (h' : Alone calls i s₂ es' s₃) :
    Alone calls i s₁ (es ++ es') s₃ := by
  refine ⟨fun e he => ?_, ?_, fun j hne => (h'.others j hne).trans (h.others j hne),
    fun hs => h'.serves (h.serves hs)⟩
  · exact (List.mem_append.1 he).elim (h.own e) (h'.own e)
  · rw [run_append, h.runs]
    exact h'.runs

/-- A step that writes to no document. -/
theorem alone_goto {i : ι} {e : Event ι} {p : Phase} (hown : e.call = i)
    (h : step calls s e = some (s.goto i p)) : Alone calls i s [e] (s.goto i p) := by
  refine ⟨by simpa using hown, by simp [run, h], fun j hne => ?_, fun hs => ⟨hs.users, hs.point⟩⟩
  rw [goto_phase, if_neg hne]

section

variable (calls)

/-- An `addRecord` call that has read the point document as it is writes its record. -/
theorem alone_commitPoint (hs : Serves s) {i : ι} {snap : Cell (Option UserDoc)} {total : Int64}
    {recordSnap : Cell (Option PointDoc)} {today : DateTime}
    (hp : s.phase i = .recording snap total recordSnap today) (hsnap : recordSnap = s.point) :
    ∃ s', Alone calls i s [.commitPoint i] s' ∧ s'.users = s.users ∧
      s'.phase i = .recorded snap total := by
  obtain ⟨point, value, entries, hpoint, hholds⟩ := hs.point
  obtain ⟨u, hbody, hholds'⟩ := hholds.addRecordBody (calls i) total today
  subst hsnap
  refine ⟨{ s.goto i (.recorded snap total) with point := s.point.write (some (u.apply point)) },
    ⟨by simp [Event.call], ?_, fun j hne => ?_, fun hs => ⟨hs.users, _, _, _, rfl, hholds'⟩⟩, rfl,
    ?_⟩
  · simp only [run, step, hp, if_true, hpoint, hbody, Option.bind_some]
  · rw [goto_phase, if_neg hne]
  · rw [goto_phase, if_pos rfl]

/-- An `addRecord` call without a disturbance. -/
theorem alone_record (hs : Serves s) {i : ι} {snap : Cell (Option UserDoc)} {total : Int64}
    (hp : s.phase i = .opened snap total) (today : DateTime) :
    ∃ s', Alone calls i s [.readPoint i today, .commitPoint i] s' ∧ s'.users = s.users ∧
      s'.phase i = .recorded snap total := by
  have hread : Alone calls i s [.readPoint i today]
      (s.goto i (.recording snap total s.point today)) := alone_goto rfl (by simp only [step, hp])
  have hrecording : (s.goto i (.recording snap total s.point today)).phase i =
      .recording snap total s.point today := by rw [goto_phase, if_pos rfl]
  obtain ⟨s', hcommit, husers, hphase⟩ := alone_commitPoint calls (hread.serves hs) hrecording rfl
  exact ⟨s', hread.trans hcommit, husers, hphase⟩

/-- The events of an attempt up to its commit. -/
def attempt (today : DateTime) (i : ι) : List (Event ι) :=
  [.readUser i, .readPoint i today, .commitPoint i]

theorem alone_attempt (hs : Serves s) {i : ι} (hp : s.phase i = .ready) (today : DateTime) :
    ∃ s' total, Alone calls i s (attempt today i) s' ∧ s'.users = s.users ∧
      s'.phase i = .recorded s.users total := by
  obtain ⟨total, htotal⟩ := hs.newTotal (calls i).point
  have hread : Alone calls i s [.readUser i] (s.goto i (.opened s.users total)) :=
    alone_goto rfl (by simp only [step, hp, htotal])
  obtain ⟨s', hrecord, husers, hphase⟩ := alone_record calls (hread.serves hs)
    (by rw [goto_phase, if_pos rfl]) today
  exact ⟨s', total, hread.trans hrecord, husers, hphase⟩

theorem alone_commitUser (hs : Serves s) {i : ι} {snap : Cell (Option UserDoc)} {total : Int64}
    (hp : s.phase i = .recorded snap total) (hv : snap.ver = s.users.ver) :
    ∃ s', Alone calls i s [.commitUser i] s' ∧ s'.users.ver = s.users.ver + 1 ∧
      s'.phase i = .returned := by
  obtain ⟨users, b, husers, hb⟩ := hs.users
  refine ⟨{ s.goto i .returned with
    users := s.users.write (some ((totalUpdate total).apply users)) },
    ⟨by simp [Event.call], ?_, fun j hne => ?_,
      fun hs => ⟨⟨_, _, rfl, intField_insert users "point" total⟩, hs.point⟩⟩, rfl, ?_⟩
  · simp only [run, step, hp, if_pos hv, husers, Option.map_some, Option.bind_some]
  · rw [goto_phase, if_neg hne]
  · rw [goto_phase, if_pos rfl]

/-! The end of a call. -/

theorem alone_from_ready (hs : Serves s) {i : ι} (hp : s.phase i = .ready) (today : DateTime) :
    ∃ es' s', es'.length ≤ 4 ∧ Alone calls i s es' s' ∧ s'.phase i = .returned := by
  obtain ⟨s₁, total, hattempt, husers, hphase⟩ := alone_attempt calls hs hp today
  obtain ⟨s', hcommit, -, hret⟩ := alone_commitUser calls (hattempt.serves hs) hphase (by rw [husers])
  exact ⟨_, s', by simp [attempt], hattempt.trans hcommit, hret⟩

theorem alone_from_recorded (hs : Serves s) {i : ι} {snap : Cell (Option UserDoc)} {total : Int64}
    (hp : s.phase i = .recorded snap total) (today : DateTime) :
    ∃ es' s', es'.length ≤ 5 ∧ Alone calls i s es' s' ∧ s'.phase i = .returned := by
  by_cases hv : snap.ver = s.users.ver
  · obtain ⟨s', hcommit, -, hret⟩ := alone_commitUser calls hs hp hv
    exact ⟨_, s', by simp, hcommit, hret⟩
  · have hrerun : Alone calls i s [.rerunUser i] (s.goto i .ready) :=
      alone_goto rfl (by simp only [step, hp, if_neg hv])
    obtain ⟨es', s', hlen, hrest, hret⟩ := alone_from_ready calls (hrerun.serves hs)
      (i := i) (by rw [goto_phase, if_pos rfl]) today
    exact ⟨_, s', by simpa using Nat.succ_le_succ hlen, hrerun.trans hrest, hret⟩

theorem alone_from_opened (hs : Serves s) {i : ι} {snap : Cell (Option UserDoc)} {total : Int64}
    (hp : s.phase i = .opened snap total) (today : DateTime) :
    ∃ es' s', es'.length ≤ 7 ∧ Alone calls i s es' s' ∧ s'.phase i = .returned := by
  obtain ⟨s₁, hrecord, -, hphase⟩ := alone_record calls hs hp today
  obtain ⟨es', s', hlen, hrest, hret⟩ := alone_from_recorded calls (hrecord.serves hs) hphase today
  refine ⟨_, s', ?_, hrecord.trans hrest, hret⟩
  rw [List.length_append, List.length_cons, List.length_singleton]
  omega

theorem alone_from_recording (hs : Serves s) (hr : RecordInv calls point es s) {i : ι}
    {snap : Cell (Option UserDoc)} {total : Int64} {recordSnap : Cell (Option PointDoc)}
    {read : DateTime} (hp : s.phase i = .recording snap total recordSnap read) (today : DateTime) :
    ∃ es' s', es'.length ≤ 8 ∧ Alone calls i s es' s' ∧ s'.phase i = .returned := by
  by_cases hv : recordSnap.ver = s.point.ver
  · have hsnap := Cell.ext ((hr.seen i snap total recordSnap read hp).val_eq hv) hv
    obtain ⟨s₁, hcommit, -, hphase⟩ := alone_commitPoint calls hs hp hsnap
    obtain ⟨es', s', hlen, hrest, hret⟩ := alone_from_recorded calls (hcommit.serves hs) hphase today
    refine ⟨_, s', ?_, hcommit.trans hrest, hret⟩
    rw [List.length_append, List.length_singleton]
    omega
  · have hrerun : Alone calls i s [.rerunPoint i] (s.goto i (.opened snap total)) :=
      alone_goto rfl (by simp only [step, hp, if_neg hv])
    obtain ⟨es', s', hlen, hrest, hret⟩ := alone_from_opened calls (hrerun.serves hs)
      (i := i) (by rw [goto_phase, if_pos rfl]) today
    refine ⟨_, s', ?_, hrerun.trans hrest, hret⟩
    rw [List.length_append, List.length_singleton]
    omega

end

theorem serves_run (hb : intField (some users) "point" = .ok b₀)
    {value : Option (Value PointMap)} {old : List Entry} (hholds : Holds value old point)
    (h : run (step calls) (State.init (some users) (some point)) es = some s) : Serves s := by
  obtain ⟨users', husers⟩ := Option.isSome_iff_exists.1 (users_isSome h)
  obtain ⟨entries, chain, ht⟩ := trail_run hb h
  obtain ⟨point', hpoint, hholds'⟩ := holds_replay hholds ht.point_eq
  exact ⟨⟨users', _, husers, husers ▸ (inv_run hb h).balance⟩, point', value, _, hpoint, hholds'⟩

/-- All calls attempt to commit at the same time. One of them succeeds, the others start
over. -/
def rounds (today : DateTime) : List ι → List (Event ι)
  | [] => []
  | i :: is =>
    (i :: is).flatMap (attempt today) ++ [.commitUser i] ++ is.map .rerunUser ++ rounds today is

/-- The same from the beginning of the calls. -/
def contended (today : DateTime) (is : List ι) : List (Event ι) := is.map .start ++ rounds today is

/-- One of the two documents is missing, and no payment has got past that. -/
structure Stuck (s : State ι) : Prop where
  missing : s.users.val = none ∨
    s.point.val = none ∧ ∀ i snap total, s.phase i ≠ .recorded snap total
  ne_returned : ∀ i, s.phase i ≠ .returned

theorem Stuck.goto {s : State ι} (hs : Stuck s) (i : ι) {p : Phase} (hreturned : p ≠ .returned)
    (hrecorded : ∀ snap total, p ≠ .recorded snap total) : Stuck (s.goto i p) := by
  refine ⟨hs.missing.imp_right fun hpoint => ⟨hpoint.1, fun j snap total => ?_⟩, fun j => ?_⟩
  · rw [goto_phase]
    split
    · exact hrecorded snap total
    · exact hpoint.2 j snap total
  · rw [goto_phase]
    split
    · exact hreturned
    · exact hs.ne_returned j

theorem stuck_step {s s' : State ι} {e : Event ι} (hs : Stuck s) (h : step calls s e = some s') :
    Stuck s' := by
  cases step_cases h with
  | start hp | readUser hp ht | readPoint hp | rerunPoint hp hv | rerunUser hp hv | fail hp hr =>
    exact hs.goto _ (by rintro ⟨⟩) (by rintro _ _ ⟨⟩)
  | commitPoint hp hv hb hd =>
    -- the point document is there, so the users document is not
    have husers := hs.missing.resolve_right fun hpoint => by simp [hpoint.1] at hd
    refine ⟨.inl husers, fun j => ?_⟩
    simp only [goto_phase]
    split
    · rintro ⟨⟩
    · exact hs.ne_returned j
  | commitUser hp hv hd =>
    rcases hs.missing with husers | ⟨-, hrecorded⟩
    · simp [husers] at hd
    · exact absurd hp (hrecorded _ _ _)

/-- Where a document is missing, no payment ever returns. -/
theorem ne_returned_of_missing {users : Option UserDoc} {point : Option PointDoc}
    (hmissing : users = none ∨ point = none)
    (h : run (step calls) (State.init users point) es = some s) (i : ι) : s.phase i ≠ .returned := by
  have hinit : Stuck (State.init users point : State ι) :=
    ⟨hmissing.imp_right fun hpoint => ⟨hpoint, by rintro _ _ _ ⟨⟩⟩, by rintro _ ⟨⟩⟩
  exact (run_induction (P := fun _ s => Stuck s) hinit
    (fun _ _ _ _ _ hs hstep => stuck_step hs hstep) h).ne_returned i

section Logs

omit [DecidableEq ι]

theorem stored_append (es es' : List (Event ι)) : stored (es ++ es') = stored es ++ stored es' :=
  List.filterMap_append

theorem started_append (es es' : List (Event ι)) :
    started (es ++ es') = started es ++ started es' := List.filterMap_append

theorem stored_attempts (today : DateTime) (is : List ι) :
    stored (is.flatMap (attempt today)) = is := by
  induction is with
  | nil => rfl
  | cons i is ih =>
    rw [List.flatMap_cons, stored_append, ih]
    rfl

theorem started_attempts (today : DateTime) (is : List ι) :
    started (is.flatMap (attempt today)) = [] := by
  induction is with
  | nil => rfl
  | cons i is ih =>
    rw [List.flatMap_cons, started_append, ih]
    rfl

theorem stored_reruns (is : List ι) : stored (is.map Event.rerunUser) = [] :=
  List.filterMap_eq_nil_iff.2 (by simp [Event.stored?])

theorem started_reruns (is : List ι) : started (is.map Event.rerunUser) = [] :=
  List.filterMap_eq_nil_iff.2 (by simp [Event.started?])

theorem stored_starts (is : List ι) : stored (is.map Event.start) = [] :=
  List.filterMap_eq_nil_iff.2 (by simp [Event.stored?])

theorem started_starts (is : List ι) : started (is.map Event.start) = is := by
  rw [started, List.filterMap_map]
  exact List.filterMap_some

theorem length_stored_rounds (today : DateTime) (is : List ι) :
    (stored (rounds today is)).length = is.length * (is.length + 1) / 2 := by
  induction is with
  | nil => simp [rounds, stored]
  | cons i is ih =>
    have hround : stored (rounds today (i :: is)) = i :: is ++ stored (rounds today is) := by
      rw [rounds, stored_append, stored_append, stored_append, stored_attempts, stored_reruns,
        List.append_nil, show stored [Event.commitUser i] = [] from rfl, List.append_nil]
    have hhalf := add_half (is.length + 1)
    rw [Nat.add_sub_cancel, Nat.mul_comm (is.length + 1) is.length] at hhalf
    rw [hround, List.length_append, ih, List.length_cons, hhalf]

theorem started_rounds (today : DateTime) (is : List ι) : started (rounds today is) = [] := by
  induction is with
  | nil => rfl
  | cons i is ih =>
    rw [rounds, started_append, started_append, started_append, started_attempts, started_reruns, ih]
    rfl

end Logs

variable (calls)

theorem run_starts {is : List ι} (hnodup : is.Nodup) (hs : Serves s)
    (hidle : ∀ i ∈ is, s.phase i = .idle) :
    ∃ s', run (step calls) s (is.map .start) = some s' ∧ Serves s' ∧
      (∀ i ∈ is, s'.phase i = .ready) ∧ ∀ j, j ∉ is → s'.phase j = s.phase j := by
  induction is generalizing s with
  | nil => exact ⟨s, rfl, hs, by simp, fun _ _ => rfl⟩
  | cons i is ih =>
    rw [List.nodup_cons] at hnodup
    rw [List.forall_mem_cons] at hidle
    have hstart : Alone calls i s [.start i] (s.goto i .ready) :=
      alone_goto rfl (by simp only [step, hidle.1])
    have hrest : ∀ j ∈ is, (s.goto i .ready).phase j = .idle := fun j hj =>
      (hstart.others j (ne_of_mem_of_not_mem hj hnodup.1)).trans (hidle.2 j hj)
    obtain ⟨s', hrun, hs', hready, hothers⟩ := ih hnodup.2 (hstart.serves hs) hrest
    refine ⟨s', ?_, hs', List.forall_mem_cons.2 ⟨?_, hready⟩, fun j hj => ?_⟩
    · rw [List.map_cons, ← List.singleton_append, run_append, hstart.runs]
      exact hrun
    · rw [hothers i hnodup.1, goto_phase, if_pos rfl]
    · rw [List.mem_cons, not_or] at hj
      exact (hothers j hj.2).trans (hstart.others j hj.1)

theorem run_attempts (today : DateTime) {is : List ι} (hnodup : is.Nodup) (hs : Serves s)
    (hready : ∀ i ∈ is, s.phase i = .ready) :
    ∃ s', run (step calls) s (is.flatMap (attempt today)) = some s' ∧ Serves s' ∧
      s'.users = s.users ∧ (∀ i ∈ is, ∃ total, s'.phase i = .recorded s.users total) ∧
      ∀ j, j ∉ is → s'.phase j = s.phase j := by
  induction is generalizing s with
  | nil => exact ⟨s, rfl, hs, rfl, by simp, fun _ _ => rfl⟩
  | cons i is ih =>
    rw [List.nodup_cons] at hnodup
    rw [List.forall_mem_cons] at hready
    obtain ⟨s₁, total, hattempt, husers, hphase⟩ := alone_attempt calls hs hready.1 today
    have hrest : ∀ j ∈ is, s₁.phase j = .ready := fun j hj =>
      (hattempt.others j (ne_of_mem_of_not_mem hj hnodup.1)).trans (hready.2 j hj)
    obtain ⟨s', hrun, hs', husers', hrecorded, hothers⟩ := ih hnodup.2 (hattempt.serves hs) hrest
    rw [husers] at husers' hrecorded
    refine ⟨s', ?_, hs', husers', List.forall_mem_cons.2 ⟨⟨total, ?_⟩, hrecorded⟩, fun j hj => ?_⟩
    · rw [List.flatMap_cons, run_append, hattempt.runs]
      exact hrun
    · rw [hothers i hnodup.1, hphase]
    · rw [List.mem_cons, not_or] at hj
      exact (hothers j hj.2).trans (hattempt.others j hj.1)

theorem run_reruns {is : List ι} (hnodup : is.Nodup) (hs : Serves s)
    (hstale : ∀ i ∈ is, ∃ snap total, s.phase i = .recorded snap total ∧
      snap.ver ≠ s.users.ver) :
    ∃ s', run (step calls) s (is.map .rerunUser) = some s' ∧ Serves s' ∧
      (∀ i ∈ is, s'.phase i = .ready) ∧ ∀ j, j ∉ is → s'.phase j = s.phase j := by
  induction is generalizing s with
  | nil => exact ⟨s, rfl, hs, by simp, fun _ _ => rfl⟩
  | cons i is ih =>
    rw [List.nodup_cons] at hnodup
    rw [List.forall_mem_cons] at hstale
    obtain ⟨⟨snap, total, hp, hv⟩, htail⟩ := hstale
    have hrerun : Alone calls i s [.rerunUser i] (s.goto i .ready) :=
      alone_goto rfl (by simp only [step, hp, if_neg hv])
    have hrest : ∀ j ∈ is, ∃ snap total, (s.goto i .ready).phase j = .recorded snap total ∧
        snap.ver ≠ (s.goto i .ready).users.ver := by
      intro j hj
      obtain ⟨snap', total', hp', hv'⟩ := htail j hj
      exact ⟨snap', total', (hrerun.others j (ne_of_mem_of_not_mem hj hnodup.1)).trans hp', hv'⟩
    obtain ⟨s', hrun, hs', hready, hothers⟩ := ih hnodup.2 (hrerun.serves hs) hrest
    refine ⟨s', ?_, hs', List.forall_mem_cons.2 ⟨?_, hready⟩, fun j hj => ?_⟩
    · rw [List.map_cons, ← List.singleton_append, run_append, hrerun.runs]
      exact hrun
    · rw [hothers i hnodup.1, goto_phase, if_pos rfl]
    · rw [List.mem_cons, not_or] at hj
      exact (hothers j hj.2).trans (hrerun.others j hj.1)

theorem run_rounds (today : DateTime) {is : List ι} (hnodup : is.Nodup) (hs : Serves s)
    (hready : ∀ i ∈ is, s.phase i = .ready) :
    ∃ s', run (step calls) s (rounds today is) = some s' ∧ (∀ i ∈ is, s'.phase i = .returned) ∧
      ∀ j, j ∉ is → s'.phase j = s.phase j := by
  induction is generalizing s with
  | nil => exact ⟨s, rfl, by simp, fun _ _ => rfl⟩
  | cons i is ih =>
    obtain ⟨s₁, hrun₁, hs₁, husers, hrecorded, hothers₁⟩ := run_attempts calls today hnodup hs hready
    rw [List.nodup_cons] at hnodup
    rw [List.forall_mem_cons] at hrecorded
    obtain ⟨⟨total, hphase⟩, htail⟩ := hrecorded
    obtain ⟨s₂, hcommit, hver, hret⟩ := alone_commitUser calls hs₁ hphase (by rw [husers])
    -- the commit has made the others stale
    have hstale : ∀ j ∈ is, ∃ snap total, s₂.phase j = .recorded snap total ∧
        snap.ver ≠ s₂.users.ver := by
      intro j hj
      obtain ⟨total', hp⟩ := htail j hj
      refine ⟨s.users, total', ?_, ?_⟩
      · rw [hcommit.others j (ne_of_mem_of_not_mem hj hnodup.1), hp]
      · rw [hver, husers]
        omega
    obtain ⟨s₃, hrun₃, hs₃, hready₃, hothers₃⟩ := run_reruns calls hnodup.2 (hcommit.serves hs₁) hstale
    obtain ⟨s', hrun', hret', hothers'⟩ := ih hnodup.2 hs₃ hready₃
    refine ⟨s', ?_, List.forall_mem_cons.2 ⟨?_, hret'⟩, fun j hj => ?_⟩
    · rw [rounds, run_append, run_append, run_append, hrun₁, Option.bind_some, hcommit.runs,
        Option.bind_some, hrun₃]
      exact hrun'
    · rw [hothers' i hnodup.1, hothers₃ i hnodup.1, hret]
    · have hnot := hj
      rw [List.mem_cons, not_or] at hj
      rw [hothers' j hj.2, hothers₃ j hj.2, hcommit.others j hj.1, hothers₁ j hnot]

end HomeBank.Ledger
