import Mathlib.Algebra.BigOperators.Group.List.Basic
import HomeBank.Spec.Ledger

/-! What every interleaving of `changePoint` calls keeps. The balance is the initial one
plus the points of the calls that have committed, each once. A record is appended in
every attempt that gets as far as its commit, so a call has one record for its last
attempt and one more for each attempt that was rolled back. -/

namespace HomeBank.Ledger

open Dart Firestore Optimistic Transition

variable {ι : Type} [DecidableEq ι]

/-- Everything one step can do. -/
inductive Step (calls : ι → PointArgs) (s : State ι) : Event ι → State ι → Prop
  | start {i} (hp : s.phase i = .idle) : Step calls s (.start i) (s.goto i .ready)
  | readUser {i total} (hp : s.phase i = .ready)
      (ht : newTotal (calls i).point s.users.val = .ok total) :
      Step calls s (.readUser i) (s.goto i (.opened s.users total))
  | readPoint {i today snap total} (hp : s.phase i = .opened snap total) :
      Step calls s (.readPoint i today) (s.goto i (.recording snap total s.point today))
  | commitPoint {i today snap total recordSnap u d}
      (hp : s.phase i = .recording snap total recordSnap today) (hv : recordSnap.ver = s.point.ver)
      (hb : addRecordBody (calls i) total today recordSnap.val = .ok (some u))
      (hd : s.point.val = some d) :
      Step calls s (.commitPoint i)
        { s.goto i (.recorded snap total) with point := s.point.write (some (u.apply d)) }
  | rerunPoint {i today snap total recordSnap}
      (hp : s.phase i = .recording snap total recordSnap today) (hv : recordSnap.ver ≠ s.point.ver) :
      Step calls s (.rerunPoint i) (s.goto i (.opened snap total))
  | commitUser {i snap total d} (hp : s.phase i = .recorded snap total)
      (hv : snap.ver = s.users.ver) (hd : s.users.val = some d) :
      Step calls s (.commitUser i)
        { s.goto i .returned with users := s.users.write (some ((totalUpdate total).apply d)) }
  | rerunUser {i snap total} (hp : s.phase i = .recorded snap total)
      (hv : snap.ver ≠ s.users.ver) : Step calls s (.rerunUser i) (s.goto i .ready)
  | fail {i} (hidle : s.phase i ≠ .idle) (hret : s.phase i ≠ .returned) :
      Step calls s (.fail i) (s.goto i .threw)

theorem step_cases {calls : ι → PointArgs} {s s' : State ι} {e : Event ι}
    (h : step calls s e = some s') : Step calls s e s' := by
  cases e with
  | start i =>
    simp only [step] at h
    split at h
    · next hp => cases h; exact .start hp
    · cases h
  | readUser i =>
    simp only [step] at h
    split at h
    · next hp =>
      split at h
      · next ht => cases h; exact .readUser hp ht
      · cases h
    · cases h
  | readPoint i today =>
    simp only [step] at h
    split at h
    · next hp => cases h; exact .readPoint hp
    · cases h
  | commitPoint i =>
    simp only [step] at h
    split at h
    · next hp =>
      split at h
      · next hv =>
        split at h
        · next hb hd => cases h; exact .commitPoint hp hv hb hd
        · cases h
      · cases h
    · cases h
  | rerunPoint i =>
    simp only [step] at h
    split at h
    · next hp =>
      split at h
      · cases h
      · next hv => cases h; exact .rerunPoint hp hv
    · cases h
  | commitUser i =>
    simp only [step] at h
    split at h
    · next hp =>
      split at h
      · next hv =>
        obtain ⟨d, hd, rfl⟩ := Option.map_eq_some_iff.1 h
        exact .commitUser hp hv hd
      · cases h
    · cases h
  | rerunUser i =>
    simp only [step] at h
    split at h
    · next hp =>
      split at h
      · cases h
      · next hv => cases h; exact .rerunUser hp hv
    · cases h
  | fail i =>
    simp only [step] at h
    split at h
    · cases h
    · cases h
    · cases h
    · next hidle hret _ => cases h; exact .fail hidle hret

/-- The users document that an open attempt has read, and the balance it has buffered. -/
def Phase.attempt? : Phase → Option (Cell (Option UserDoc) × Int64)
  | .opened snap total | .recording snap total _ _ | .recorded snap total => some (snap, total)
  | _ => none

@[simp] theorem goto_users (s : State ι) (i : ι) (p : Phase) : (s.goto i p).users = s.users := rfl

@[simp] theorem goto_point (s : State ι) (i : ι) (p : Phase) : (s.goto i p).point = s.point := rfl

@[simp] theorem goto_phase (s : State ι) (i j : ι) (p : Phase) :
    (s.goto i p).phase j = if j = i then p else s.phase j := by
  simp [State.goto, Function.update_apply]

/-- A call leaves its idle phase only when it is started. -/
theorem Step.idle {calls : ι → PointArgs} {s s' : State ι} {e : Event ι} (h : Step calls s e s')
    {j : ι} (hidle : s.phase j = .idle) (hne : e.started? ≠ some j) : s'.phase j = .idle := by
  cases h with
  | @start i hp =>
    have hji : j ≠ i := by
      rintro rfl
      exact hne rfl
    rw [goto_phase, if_neg hji, hidle]
  | @readUser i total hp ht | @readPoint i today snap total hp
  | @commitPoint i today snap total recordSnap u d hp hv hb hd
  | @rerunPoint i today snap total recordSnap hp hv | @commitUser i snap total d hp hv hd
  | @rerunUser i snap total hp hv | @fail i hp hret =>
    have hji : j ≠ i := by
      rintro rfl
      simp [hidle] at hp
    simp only [goto_phase, if_neg hji, hidle]

omit [DecidableEq ι] in
theorem committed_snoc (es : List (Event ι)) (e : Event ι) :
    committed (es ++ [e]) = committed es ++ e.committed?.toList :=
  filterMap_snoc _ es e

theorem newTotal_eq_ok {point total : Int64} {doc : Option UserDoc}
    (h : newTotal point doc = .ok total) :
    ∃ balance, intField doc "point" = .ok balance ∧ total = balance + point := by
  unfold newTotal at h
  cases hb : intField doc "point" with
  | error e => rw [hb] at h; cases h
  | ok balance =>
    rw [hb] at h
    cases h
    exact ⟨balance, rfl, rfl⟩

/-- The part of a state on which the balance depends. -/
structure Inv (calls : ι → PointArgs) (b₀ : Int64) (es : List (Event ι)) (s : State ι) : Prop where
  seen : ∀ i snap total, (s.phase i).attempt? = some (snap, total) →
    s.users.Seen snap ∧ newTotal (calls i).point snap.val = .ok total
  balance : intField s.users.val "point" =
    .ok (b₀ + ((committed es).map fun i => (calls i).point).sum)
  once : (committed es).Nodup
  closed : ∀ i, i ∈ committed es ↔ s.phase i = .returned

omit [DecidableEq ι] in
theorem Inv.init (calls : ι → PointArgs) {b₀ : Int64} {users : Option UserDoc}
    (hb : intField users "point" = .ok b₀) (point : Option PointDoc) :
    Inv calls b₀ [] (State.init users point) := by
  constructor <;> simp [State.init, committed, Phase.attempt?, hb]

/-- A call moves on, and possibly the point document with it, without committing its
users transaction. -/
theorem Inv.goto {calls : ι → PointArgs} {b₀ : Int64} {es : List (Event ι)} {s s' : State ι}
    (hi : Inv calls b₀ es s) {e : Event ι} (he : e.committed? = none) {i : ι} {p : Phase}
    (hopen : s.phase i ≠ .returned) (hp : p ≠ .returned)
    (hseen : ∀ snap total, p.attempt? = some (snap, total) →
      s.users.Seen snap ∧ newTotal (calls i).point snap.val = .ok total)
    (husers : s'.users = s.users) (hphase : ∀ j, s'.phase j = if j = i then p else s.phase j) :
    Inv calls b₀ (es ++ [e]) s' := by
  have hlog : committed (es ++ [e]) = committed es := by rw [committed_snoc, he]; simp
  constructor
  · intro j snap total hj
    rw [hphase] at hj
    rw [husers]
    split at hj
    · next hji => subst hji; exact hseen snap total hj
    · exact hi.seen j snap total hj
  · rw [hlog, husers]
    exact hi.balance
  · rw [hlog]
    exact hi.once
  · intro j
    rw [hlog, hi.closed, hphase]
    split
    · next hji => subst hji; simp [hopen, hp]
    · rfl

/-- The users transaction commits on the version that its attempt has read, so the total
it stores is the current balance plus its own points. -/
theorem Inv.commitUser {calls : ι → PointArgs} {b₀ : Int64} {es : List (Event ι)} {s : State ι}
    (hi : Inv calls b₀ es s) {i : ι} {snap : Cell (Option UserDoc)} {total : Int64} {d : UserDoc}
    (hp : s.phase i = .recorded snap total) (hv : snap.ver = s.users.ver) :
    Inv calls b₀ (es ++ [.commitUser i])
      { s.goto i .returned with users := s.users.write (some ((totalUpdate total).apply d)) } := by
  have hlog : committed (es ++ [.commitUser i]) = committed es ++ [i] := committed_snoc es _
  have hnew : i ∉ committed es := fun hmem => by simp [(hi.closed i).1 hmem] at hp
  obtain ⟨hseen, htotal⟩ := hi.seen i snap total (by rw [hp]; rfl)
  rw [hseen.val_eq hv] at htotal
  obtain ⟨balance, hbalance, rfl⟩ := newTotal_eq_ok htotal
  rw [hi.balance] at hbalance
  cases hbalance
  constructor
  · intro j snap' total' hj
    simp only [goto_phase] at hj
    split at hj
    · cases hj
    · obtain ⟨hs, ht⟩ := hi.seen j snap' total' hj
      exact ⟨hs.write _, ht⟩
  · rw [hlog, List.map_append, List.sum_append]
    simp only [Cell.write_val, totalUpdate, Update.apply, intField_insert, List.map_cons,
      List.map_nil, List.sum_cons, List.sum_nil, add_zero, add_assoc]
  · rw [hlog]
    exact List.nodup_append.2 ⟨hi.once, List.nodup_singleton i, by
      rintro j hj k hk rfl
      exact hnew (List.mem_singleton.1 hk ▸ hj)⟩
  · intro j
    rw [hlog, List.mem_append, List.mem_singleton, hi.closed]
    simp only [goto_phase]
    split
    · next hji => simp [hji]
    · next hji => simp [hji]

theorem inv_step {calls : ι → PointArgs} {b₀ : Int64} {es : List (Event ι)} {s s' : State ι}
    {e : Event ι} (hi : Inv calls b₀ es s) (h : step calls s e = some s') :
    Inv calls b₀ (es ++ [e]) s' := by
  cases step_cases h with
  | start hp => exact hi.goto rfl (by simp [hp]) (by simp) (by rintro _ _ ⟨⟩) rfl (goto_phase s _ · _)
  | readUser hp ht =>
    refine hi.goto rfl (by simp [hp]) (by simp) ?_ rfl (goto_phase s _ · _)
    rintro _ _ ⟨⟩
    exact ⟨Cell.Seen.refl _, ht⟩
  | @readPoint i today snap total hp =>
    refine hi.goto rfl (by simp [hp]) (by simp) ?_ rfl (goto_phase s _ · _)
    rintro _ _ ⟨⟩
    exact hi.seen i snap total (by rw [hp]; rfl)
  | @commitPoint i today snap total recordSnap u d hp hv hb hd =>
    refine hi.goto rfl (by simp [hp]) (by simp) ?_ rfl (goto_phase s _ · _)
    rintro _ _ ⟨⟩
    exact hi.seen i snap total (by rw [hp]; rfl)
  | @rerunPoint i today snap total recordSnap hp hv =>
    refine hi.goto rfl (by simp [hp]) (by simp) ?_ rfl (goto_phase s _ · _)
    rintro _ _ ⟨⟩
    exact hi.seen i snap total (by rw [hp]; rfl)
  | commitUser hp hv hd => exact hi.commitUser hp hv
  | rerunUser hp hv =>
    exact hi.goto rfl (by simp [hp]) (by simp) (by rintro _ _ ⟨⟩) rfl (goto_phase s _ · _)
  | fail hidle hret => exact hi.goto rfl hret (by simp) (by rintro _ _ ⟨⟩) rfl (goto_phase s _ · _)

theorem inv_run {calls : ι → PointArgs} {b₀ : Int64} {users : Option UserDoc}
    {point : Option PointDoc} {es : List (Event ι)} {s : State ι}
    (hb : intField users "point" = .ok b₀)
    (h : run (step calls) (State.init users point) es = some s) : Inv calls b₀ es s :=
  run_induction (P := Inv calls b₀) (Inv.init calls hb point) (fun _ _ _ _ _ hi hs => inv_step hi hs) h

theorem users_isSome {calls : ι → PointArgs} {users : UserDoc} {point : Option PointDoc}
    {es : List (Event ι)} {s : State ι}
    (h : run (step calls) (State.init (some users) point) es = some s) :
    s.users.val.isSome = true := by
  refine run_induction (P := fun _ s => s.users.val.isSome = true) rfl ?_ h
  intro es s e s' _ hs hstep
  cases step_cases hstep <;> first | exact hs | rfl

/-- Whatever the interleaving, the retries and the fate of `addRecord`: the stored balance
is the initial one plus the points of exactly the calls whose users transaction has
committed, each counted once, in the wrap-around addition of Dart's `int`. -/
theorem no_balance_update_lost (calls : ι → PointArgs) (users : UserDoc) (point : Option PointDoc)
    (b₀ : Int64) (hb : intField (some users) "point" = .ok b₀) (es : List (Event ι)) (s : State ι)
    (h : run (step calls) (State.init (some users) point) es = some s) :
    (∃ users', s.users.val = some users' ∧ intField (some users') "point" =
      .ok (b₀ + ((committed es).map fun i => (calls i).point).sum)) ∧
    (committed es).Nodup ∧ ∀ i, i ∈ committed es ↔ s.phase i = .returned := by
  have hi := inv_run hb h
  obtain ⟨users', husers⟩ := Option.isSome_iff_exists.1 (users_isSome h)
  exact ⟨⟨users', husers, husers ▸ hi.balance⟩, hi.once, hi.closed⟩

/-! The records. -/

theorem addRecordBody_eq_ok {args : PointArgs} {total : Int64} {today : DateTime} {d : PointDoc}
    {u : Update PointMap} (h : addRecordBody args total today (some d) = .ok (some u)) :
    u = ⟨getYearMonth today, .list (rowsAt d (getYearMonth today) ++
      [(recordModel args total today).toJson])⟩ := by
  rw [addRecordBody_eq] at h
  cases hl : listField (some d) (getYearMonth today) with
  | error e => rw [hl] at h; cases h
  | ok data =>
    rw [hl] at h
    cases h
    rw [listField_eq_ok hl]
    rfl

theorem recorded_addRecord {args : PointArgs} {total : Int64} {today : DateTime} {d : PointDoc}
    {u : Update PointMap} (h : addRecordBody args total today (some d) = .ok (some u)) :
    recorded (u.apply d) = args ::ₘ recorded d := by
  rw [addRecordBody_eq_ok h, recorded, Update.apply, rows_append, Multiset.map_cons]
  rfl

/-- A call has a record for its present attempt. -/
def Phase.hasRecord : Phase → Bool
  | .recorded _ _ | .returned => true
  | _ => false

structure RecordInv (calls : ι → PointArgs) (point : PointDoc) (es : List (Event ι))
    (s : State ι) : Prop where
  seen : ∀ i snap total recordSnap today,
    s.phase i = .recording snap total recordSnap today → s.point.Seen recordSnap
  records : ∃ d, s.point.val = some d ∧
    recorded d = recorded point + ((stored es).map calls : Multiset PointArgs)
  count : ∀ i, s.phase i ≠ .threw →
    (stored es).count i = (rolledBack es).count i + if (s.phase i).hasRecord then 1 else 0
  startedOnce : (started es).Nodup
  isStarted : ∀ i, i ∈ started es ↔ s.phase i ≠ .idle

omit [DecidableEq ι] in
theorem started_snoc (es : List (Event ι)) (e : Event ι) :
    started (es ++ [e]) = started es ++ e.started?.toList :=
  filterMap_snoc _ es e

omit [DecidableEq ι] in
theorem stored_snoc (es : List (Event ι)) (e : Event ι) :
    stored (es ++ [e]) = stored es ++ e.stored?.toList :=
  filterMap_snoc _ es e

omit [DecidableEq ι] in
theorem rolledBack_snoc (es : List (Event ι)) (e : Event ι) :
    rolledBack (es ++ [e]) = rolledBack es ++ e.rolledBack?.toList :=
  filterMap_snoc _ es e

theorem RecordInv.init (calls : ι → PointArgs) (users : Option UserDoc) (point : PointDoc) :
    RecordInv calls point [] (State.init users (some point)) := by
  constructor <;>
    simp [State.init, stored, rolledBack, started, Phase.hasRecord]

theorem RecordInv.seen_step {calls : ι → PointArgs} {point : PointDoc} {es : List (Event ι)}
    {s s' : State ι} {e : Event ι} (hi : RecordInv calls point es s) (h : Step calls s e s') :
    ∀ j snap total recordSnap today,
      s'.phase j = .recording snap total recordSnap today → s'.point.Seen recordSnap := by
  intro j snap total recordSnap today hj
  cases h with
  | readPoint hp =>
    simp only [goto_phase, goto_point] at hj ⊢
    split at hj
    · cases hj
      exact Cell.Seen.refl _
    · exact hi.seen j snap total recordSnap today hj
  | commitPoint hp hv hb hd =>
    simp only [goto_phase] at hj
    split at hj
    · cases hj
    · exact (hi.seen j snap total recordSnap today hj).write _
  | start hp | readUser hp ht | rerunPoint hp hv | commitUser hp hv hd | rerunUser hp hv
  | fail hidle hret =>
    simp only [goto_phase] at hj
    split at hj
    · cases hj
    · exact hi.seen j snap total recordSnap today hj

/-- The one step that writes to the point document adds the record of its own call. -/
theorem RecordInv.records_step {calls : ι → PointArgs} {point : PointDoc} {es : List (Event ι)}
    {s s' : State ι} {e : Event ι} (hi : RecordInv calls point es s) (h : Step calls s e s') :
    ∃ d, s'.point.val = some d ∧
      recorded d = recorded point + ((stored (es ++ [e])).map calls : Multiset PointArgs) := by
  obtain ⟨d₀, hd₀, hrec⟩ := hi.records
  rw [stored_snoc]
  cases h with
  | @commitPoint i today snap total recordSnap u d hp hv hb hd =>
    have hseen := hi.seen i snap total recordSnap today hp
    rw [hseen.val_eq hv, hd] at hb
    obtain rfl : d₀ = d := Option.some.inj (hd₀.symm.trans hd)
    refine ⟨_, rfl, ?_⟩
    rw [recorded_addRecord hb, hrec, List.map_append, ← Multiset.coe_add, ← add_assoc,
      ← Multiset.singleton_add, add_comm]
    rfl
  | start hp | readUser hp ht | readPoint hp | rerunPoint hp hv | commitUser hp hv hd
  | rerunUser hp hv | fail hidle hret =>
    exact ⟨d₀, hd₀, by simpa [Event.stored?] using hrec⟩

/-- A call commits one record per attempt, and only its last attempt is not rolled back. -/
theorem RecordInv.count_step {calls : ι → PointArgs} {point : PointDoc} {es : List (Event ι)}
    {s s' : State ι} {e : Event ι} (hi : RecordInv calls point es s) (h : Step calls s e s') :
    ∀ j, s'.phase j ≠ .threw → (stored (es ++ [e])).count j =
      (rolledBack (es ++ [e])).count j + if (s'.phase j).hasRecord then 1 else 0 := by
  intro j hj
  have hcount := hi.count j
  rw [stored_snoc, rolledBack_snoc]
  cases h with
  | @commitPoint i today snap total recordSnap u d hp hv hb hd =>
    rcases eq_or_ne j i with rfl | hne
    · simp [Event.stored?, Event.rolledBack?, hcount, hp, Phase.hasRecord]
    · simp only [goto_phase, if_neg hne] at hj ⊢
      simpa [Event.stored?, Event.rolledBack?, hne.symm] using hcount hj
  | @rerunUser i snap total hp hv =>
    rcases eq_or_ne j i with rfl | hne
    · simp [Event.stored?, Event.rolledBack?, hcount, hp, Phase.hasRecord]
    · simp only [goto_phase, if_neg hne] at hj ⊢
      simpa [Event.stored?, Event.rolledBack?, hne.symm] using hcount hj
  | @start i hp | @readUser i total hp ht | @readPoint i today snap total hp
  | @rerunPoint i today snap total recordSnap hp hv | @commitUser i snap total d hp hv hd =>
    rcases eq_or_ne j i with rfl | hne
    · simp [Event.stored?, Event.rolledBack?, hcount, hp, Phase.hasRecord]
    · simp only [goto_phase, if_neg hne] at hj ⊢
      simpa [Event.stored?, Event.rolledBack?] using hcount hj
  | @fail i hidle hret =>
    rcases eq_or_ne j i with rfl | hne
    · simp at hj
    · simp only [goto_phase, if_neg hne] at hj ⊢
      simpa [Event.stored?, Event.rolledBack?] using hcount hj

theorem RecordInv.started_step {calls : ι → PointArgs} {point : PointDoc} {es : List (Event ι)}
    {s s' : State ι} {e : Event ι} (hi : RecordInv calls point es s) (h : Step calls s e s') :
    (started (es ++ [e])).Nodup ∧ ∀ j, j ∈ started (es ++ [e]) ↔ s'.phase j ≠ .idle := by
  rw [started_snoc]
  cases h with
  | @start i hp =>
    have hnew : i ∉ started es := fun hmem => (hi.isStarted i).1 hmem hp
    refine ⟨List.nodup_append.2 ⟨hi.startedOnce, List.nodup_singleton i, ?_⟩, fun j => ?_⟩
    · rintro j hj k hk rfl
      exact hnew (List.mem_singleton.1 hk ▸ hj)
    · rw [List.mem_append, hi.isStarted, goto_phase]
      split <;> simp_all [Event.started?]
  | @readUser i total hp ht | @readPoint i today snap total hp
  | @commitPoint i today snap total recordSnap u d hp hv hb hd
  | @rerunPoint i today snap total recordSnap hp hv | @commitUser i snap total d hp hv hd
  | @rerunUser i snap total hp hv =>
    refine ⟨by simpa [Event.started?] using hi.startedOnce, fun j => ?_⟩
    simp only [Event.started?, Option.toList_none, List.append_nil, hi.isStarted, goto_phase]
    split
    · next hji => simp [hji, hp]
    · rfl
  | @fail i hidle hret =>
    refine ⟨by simpa [Event.started?] using hi.startedOnce, fun j => ?_⟩
    simp only [Event.started?, Option.toList_none, List.append_nil, hi.isStarted, goto_phase]
    split
    · next hji => simp [hji, hidle]
    · rfl

theorem recordInv_run {calls : ι → PointArgs} {users : Option UserDoc} {point : PointDoc}
    {es : List (Event ι)} {s : State ι}
    (h : run (step calls) (State.init users (some point)) es = some s) :
    RecordInv calls point es s := by
  refine run_induction (P := RecordInv calls point) (RecordInv.init calls users point) ?_ h
  intro es s e s' _ hi hstep
  have hc := step_cases hstep
  exact ⟨hi.seen_step hc, hi.records_step hc, hi.count_step hc, (hi.started_step hc).1,
    (hi.started_step hc).2⟩

/-- When no call is left half done, the commits of `addRecord` are one for each call and
one more for each attempt that was rolled back. -/
theorem RecordInv.stored_eq {calls : ι → PointArgs} {point : PointDoc} {es : List (Event ι)}
    {s : State ι} (hi : RecordInv calls point es s)
    (hdone : ∀ i ∈ started es, s.phase i = .returned) :
    (stored es : Multiset ι) = started es + rolledBack es := by
  ext i
  simp only [Multiset.coe_add, Multiset.coe_count, List.count_append]
  by_cases hmem : i ∈ started es
  · rw [hi.count i (by simp [hdone i hmem]), List.count_eq_one_of_mem hi.startedOnce hmem,
      hdone i hmem, add_comm]
    rfl
  · have hidle : s.phase i = .idle := by simpa using mt (hi.isStarted i).2 hmem
    rw [hi.count i (by simp [hidle]), List.count_eq_zero_of_not_mem hmem, hidle]
    simp [Phase.hasRecord]

/-- In a run in which every call returns, the point document gains exactly one record per
call if and only if no users transaction had an attempt refused at its commit: each
rolled-back attempt leaves one record too many. -/
theorem one_record_per_call_iff (calls : ι → PointArgs) (users : UserDoc) (point : PointDoc)
    (es : List (Event ι)) (s : State ι)
    (h : run (step calls) (State.init (some users) (some point)) es = some s)
    (hdone : ∀ i ∈ started es, s.phase i = .returned) :
    (∃ point', s.point.val = some point' ∧
      recorded point' = recorded point + ((started es).map calls : Multiset PointArgs)) ↔
    rolledBack es = [] := by
  have hi := recordInv_run h
  obtain ⟨point', hval, hrec⟩ := hi.records
  have hstored : ((stored es).map calls : Multiset PointArgs) =
      (started es).map calls + (rolledBack es).map calls := by
    simpa using congrArg (Multiset.map calls) (hi.stored_eq hdone)
  constructor
  · intro ⟨point'', hval', hrec'⟩
    obtain rfl : point' = point'' := Option.some.inj (hval.symm.trans hval')
    rw [hrec, hstored, ← add_assoc, add_eq_left] at hrec'
    simpa using hrec'
  · intro hnone
    refine ⟨point', hval, ?_⟩
    rw [hrec, hstored, hnone]
    simp

def sampleCalls : Bool → PointArgs
  | false => ⟨"作業類", "homework", 5⟩
  | true => ⟨"家事類", "dishes", 7⟩

/-- Both calls read the users document; one commits; the other has written its record by
then, is refused, and writes a second one when it runs again. -/
def doubledRecord : List (Event Bool) :=
  [.start false, .start true, .readUser false, .readUser true,
    .readPoint false sampleTime, .commitPoint false, .commitUser false,
    .readPoint true sampleTime, .commitPoint true, .rerunUser true,
    .readUser true, .readPoint true sampleTime, .commitPoint true, .commitUser true]

def Phase.hasReturned : Phase → Bool
  | .returned => true
  | _ => false

theorem Phase.hasReturned_iff (p : Phase) : p.hasReturned = true ↔ p = .returned := by
  cases p <;> simp [hasReturned]

instance (p : Phase) : Decidable (p = .returned) := decidable_of_iff _ p.hasReturned_iff

theorem one_record_per_call_fails :
    ∃ s, run (step sampleCalls) (State.init (some sampleUsers) (some samplePoint)) doubledRecord =
        some s ∧
      (∀ i ∈ started doubledRecord, s.phase i = .returned) ∧
      ¬ ∃ point', s.point.val = some point' ∧ recorded point' =
        recorded samplePoint + ((started doubledRecord).map sampleCalls : Multiset PointArgs) := by
  obtain ⟨s, hrun, hret, d, hd, hcard⟩ :
      ∃ s, run (step sampleCalls) (State.init (some sampleUsers) (some samplePoint)) doubledRecord =
          some s ∧
        (∀ i, s.phase i = .returned) ∧ ∃ d ∈ s.point.val, (rows d).card = 3 :=
    exists_run_of_any (by decide +kernel)
  refine ⟨s, hrun, fun i _ => hret i, ?_⟩
  intro ⟨point', hval, hrec⟩
  obtain rfl : d = point' := Option.some.inj (hd.symm.trans hval)
  have hc := congrArg Multiset.card hrec
  rw [recorded, Multiset.card_map, hcard] at hc
  revert hc
  decide +kernel

/-- The same two calls one after the other. -/
def singleRecords : List (Event Bool) :=
  [.start false, .readUser false, .readPoint false sampleTime, .commitPoint false,
    .commitUser false, .start true, .readUser true, .readPoint true sampleTime,
    .commitPoint true, .commitUser true]

theorem one_record_per_call_singleRecords :
    ∃ s point', run (step sampleCalls) (State.init (some sampleUsers) (some samplePoint))
        singleRecords = some s ∧ s.point.val = some point' ∧ recorded point' =
      recorded samplePoint + ((started singleRecords).map sampleCalls : Multiset PointArgs) := by
  obtain ⟨s, hrun, hret⟩ :
      ∃ s, run (step sampleCalls) (State.init (some sampleUsers) (some samplePoint)) singleRecords =
          some s ∧ ∀ i, s.phase i = .returned :=
    exists_run_of_any (by decide +kernel)
  obtain ⟨point', hval, hrec⟩ := (one_record_per_call_iff sampleCalls sampleUsers samplePoint
    singleRecords s hrun fun i _ => hret i).2 rfl
  exact ⟨s, point', hrun, hval, hrec⟩

theorem no_balance_update_lost_doubledRecord :
    ∃ s users', run (step sampleCalls) (State.init (some sampleUsers) (some samplePoint))
        doubledRecord = some s ∧ s.users.val = some users' ∧
      intField (some users') "point" = .ok 12 := by
  obtain ⟨s, hrun, -⟩ :
      ∃ s, run (step sampleCalls) (State.init (some sampleUsers) (some samplePoint)) doubledRecord =
          some s ∧ s.phase false = .returned :=
    exists_run_of_any (by decide +kernel)
  obtain ⟨⟨users', hval, hb⟩, -⟩ := no_balance_update_lost sampleCalls sampleUsers
    (some samplePoint) 0 rfl doubledRecord s hrun
  exact ⟨s, users', hrun, hval, hb⟩

end HomeBank.Ledger
