import Mathlib.Algebra.BigOperators.Group.Finset.Basic
import Mathlib.Algebra.BigOperators.Intervals
import Mathlib.Algebra.Order.BigOperators.Group.Finset
import HomeBank.Lib.Optimistic

/-! How often an optimistic transaction has to start over. Each refusal is paid for by
another call that has committed since the attempt read the document, so a call is refused
at most once for each call that commits before it. And no call waits for another: an
open call whose handler returns can commit by its own next steps. -/

namespace Optimistic

open Transition

variable {ι : Type*} [DecidableEq ι]

theorem Cell.ext {α : Type*} {c c' : Cell α} (hval : c.val = c'.val) (hver : c.ver = c'.ver) :
    c = c' := by
  cases c
  cases c'
  simp_all

/-- No element occurs in `refused` more often than there are elements before it in
`order`, or in all of `order` if it is not there. -/
def Charged (refused order : List ι) : Prop := ∀ i, refused.count i ≤ order.idxOf i

section Charged

variable {refused order : List ι}

theorem charged_nil : Charged ([] : List ι) [] := fun i => by simp

theorem idxOf_le_idxOf_append (order rest : List ι) (j : ι) :
    order.idxOf j ≤ (order ++ rest).idxOf j := by
  by_cases hmem : j ∈ order
  · rw [List.idxOf_append_of_mem hmem]
  · rw [List.idxOf_append_of_notMem hmem, List.idxOf_of_notMem hmem]
    exact Nat.le_add_right _ _

theorem Charged.append (h : Charged refused order) (rest : List ι) :
    Charged refused (order ++ rest) :=
  fun j => (h j).trans (idxOf_le_idxOf_append order rest j)

theorem Charged.refuse (h : Charged refused order) {i : ι} (hnew : i ∉ order)
    (hlt : refused.count i < order.length) : Charged (refused ++ [i]) order := by
  intro j
  rw [List.count_append]
  rcases eq_or_ne i j with rfl | hne
  · rw [List.idxOf_of_notMem hnew]
    simpa using hlt
  · simpa [hne] using h j

theorem map_idxOf (h : order.Nodup) :
    (order.map fun i => order.idxOf i) = List.range order.length := by
  refine List.ext_getElem (by simp) fun n hn _ => ?_
  simp [h.idxOf_getElem n (by simpa using hn)]

/-- All refusals together are at most one for each pair of elements of the order. -/
theorem Charged.length_le_of_subset (h : Charged refused order) (hnodup : order.Nodup)
    (hsub : ∀ i ∈ refused, i ∈ order) :
    refused.length ≤ order.length * (order.length - 1) / 2 := by
  have hcount : ∑ i ∈ order.toFinset, refused.count i = refused.length := by
    have hcard := Multiset.sum_count_eq_card (s := order.toFinset) (m := refused)
      fun i hi => List.mem_toFinset.2 (hsub i hi)
    simpa using hcard
  have hsum : ∑ i ∈ order.toFinset, order.idxOf i = ∑ n ∈ Finset.range order.length, n := by
    have hrange := List.sum_toFinset (fun n : ℕ => n) (List.nodup_range (n := order.length))
    rw [List.sum_toFinset _ hnodup, map_idxOf hnodup, ← List.toFinset_range, hrange, List.map_id']
  calc refused.length = ∑ i ∈ order.toFinset, refused.count i := hcount.symm
    _ ≤ ∑ i ∈ order.toFinset, order.idxOf i := Finset.sum_le_sum fun i _ => h i
    _ = order.length * (order.length - 1) / 2 := by rw [hsum, Finset.sum_range_id]

/-- Elements that are refused and not in the order can be put behind it, in any order. -/
theorem Charged.length_le (h : Charged refused order) (hnodup : order.Nodup) :
    refused.length ≤
      (order ++ refused).toFinset.card * ((order ++ refused).toFinset.card - 1) / 2 := by
  let late := refused.dedup.filter (· ∉ order)
  have hlate : ∀ i, i ∈ late ↔ i ∈ refused ∧ i ∉ order := fun i => by
    simp [late, List.mem_filter, List.mem_dedup]
  have hnodup' : (order ++ late).Nodup :=
    hnodup.append (refused.nodup_dedup.filter _) fun i hi hi' => ((hlate i).1 hi').2 hi
  have hmem : ∀ i, i ∈ order ++ late ↔ i ∈ order ++ refused := fun i => by
    rw [List.mem_append, List.mem_append, hlate]
    tauto
  have hset : (order ++ late).toFinset = (order ++ refused).toFinset :=
    Finset.ext fun i => by rw [List.mem_toFinset, List.mem_toFinset, hmem]
  rw [← hset, List.toFinset_card_of_nodup hnodup']
  exact (h.append late).length_le_of_subset hnodup' fun i hi =>
    (hmem i).2 (List.mem_append_right _ hi)

end Charged

variable {Op D U ε : Type*}

def Event.rerun? : Event ι → Option ι
  | .rerun i => some i
  | _ => none

/-- The calls with an attempt whose commit was refused, once for each such attempt. -/
def reruns (es : List (Event ι)) : List ι := es.filterMap Event.rerun?

omit [DecidableEq ι] in
theorem reruns_snoc (es : List (Event ι)) (e : Event ι) :
    reruns (es ++ [e]) = reruns es ++ e.rerun?.toList :=
  filterMap_snoc _ es e

/-- The calls that have committed or been refused. -/
def contenders (es : List (Event ι)) : Finset ι := (committed es ++ reruns es).toFinset

/-- The refusals so far are paid for by versions: those of a call by the versions up to the
one that its present attempt has read. -/
structure Paid (es : List (Event ι)) (s : State ι D) : Prop where
  ver_le : s.doc.ver ≤ (committed es).length
  charged : Charged (reruns es) (committed es)
  open_le : ∀ i, s.phase i ≠ .returned → (reruns es).count i ≤ s.doc.ver
  read_le : ∀ i snap, s.phase i = .read snap → (reruns es).count i ≤ snap.ver

theorem Paid.init (doc₀ : Option D) : Paid [] (State.init doc₀ : State ι D) := by
  refine ⟨Nat.le_refl _, charged_nil, fun i _ => Nat.zero_le _, ?_⟩
  rintro i snap ⟨⟩

/-- An open call moves on without a commit, possibly after a refusal. -/
theorem Paid.goto {H : Handlers Op D U ε} {op : ι → Op} {doc₀ : Option D} {es : List (Event ι)}
    {s : State ι D} (hp : Paid es s) (hi : Inv H op doc₀ es s) {e : Event ι}
    (hcommit : e.committed? = none) {i : ι} {p : Phase D} (hopen : s.phase i ≠ .returned)
    (hrerun : ∀ j ∈ e.rerun?, j = i ∧ (reruns es).count i < s.doc.ver)
    (hread : ∀ snap, p = .read snap → e.rerun? = none ∧ snap = s.doc) :
    Paid (es ++ [e]) (s.goto i p) := by
  have hlog : committed (es ++ [e]) = committed es := by rw [committed_snoc, hcommit]; simp
  have hnew : i ∉ committed es := fun hmem => hopen ((hi.closed i).1 hmem)
  have hle := hp.ver_le
  have hother : ∀ j, j ≠ i → (reruns (es ++ [e])).count j = (reruns es).count j := by
    intro j hne
    rw [reruns_snoc, List.count_append]
    cases he : e.rerun? with
    | none => simp
    | some k =>
      obtain rfl := (hrerun k he).1
      simp [hne.symm]
  have hself : (reruns (es ++ [e])).count i ≤ s.doc.ver := by
    rw [reruns_snoc, List.count_append]
    cases he : e.rerun? with
    | none => simpa using hp.open_le i hopen
    | some k =>
      obtain ⟨rfl, hlt⟩ := hrerun k he
      simpa using hlt
  refine ⟨?_, ?_, fun j hj => ?_, fun j snap hj => ?_⟩
  · rw [hlog]
    exact hle
  · intro j
    rw [hlog]
    rcases eq_or_ne j i with rfl | hne
    · rw [List.idxOf_of_notMem hnew]
      exact hself.trans hle
    · rw [hother j hne]
      exact hp.charged j
  · rcases eq_or_ne j i with rfl | hne
    · exact hself
    · rw [State.goto_phase_of_ne s hne] at hj
      rw [hother j hne]
      exact hp.open_le j hj
  · rcases eq_or_ne j i with rfl | hne
    · rw [State.goto_phase_self] at hj
      obtain ⟨-, rfl⟩ := hread snap hj
      exact hself
    · rw [State.goto_phase_of_ne s hne] at hj
      rw [hother j hne]
      exact hp.read_le j snap hj

theorem Paid.commit {es : List (Event ι)} {s : State ι D} (hp : Paid es s) (i : ι)
    {c : Cell (Option D)} (hlo : s.doc.ver ≤ c.ver) (hhi : c.ver ≤ s.doc.ver + 1) :
    Paid (es ++ [.commit i]) { s.goto i .returned with doc := c } := by
  have hlog : committed (es ++ [.commit i]) = committed es ++ [i] := committed_snoc es _
  have hreruns : reruns (es ++ [.commit i]) = reruns es := by simp [reruns_snoc, Event.rerun?]
  have hle := hp.ver_le
  refine ⟨?_, ?_, fun j hj => ?_, fun j snap hj => ?_⟩
  · rw [hlog, List.length_append, List.length_singleton]
    simp only
    omega
  · rw [hlog, hreruns]
    exact hp.charged.append [i]
  · have hne : j ≠ i := by
      rintro rfl
      exact hj (State.goto_phase_self s j _)
    rw [hreruns]
    exact (hp.open_le j (by simpa [State.goto, hne] using hj)).trans hlo
  · have hne : j ≠ i := by
      rintro rfl
      simp [State.goto] at hj
    rw [hreruns]
    exact hp.read_le j snap (by simpa [State.goto, hne] using hj)

/-- A refused attempt has read a version that is no longer the current one. -/
theorem paid_step {H : Handlers Op D U ε} {op : ι → Op} {doc₀ : Option D} {es : List (Event ι)}
    {s s' : State ι D} {e : Event ι} (hi : Inv H op doc₀ es s) (hp : Paid es s)
    (h : step H op s e = some s') : Paid (es ++ [e]) s' := by
  rcases step_cases h with ⟨i, rfl, hphase, rfl⟩ | ⟨i, snap, rfl, hphase, -, hbody⟩ |
    ⟨i, snap, rfl, hphase, hv, rfl⟩ | ⟨i, rfl, hphase, rfl⟩
  · refine hp.goto hi rfl (by simp [hphase]) (by rintro j ⟨⟩) ?_
    rintro snap ⟨⟩
    exact ⟨rfl, rfl⟩
  · rcases hbody with ⟨-, rfl⟩ | ⟨u, d, -, -, rfl⟩
    · exact hp.commit i (Nat.le_refl _) (Nat.le_succ _)
    · exact hp.commit i (Nat.le_succ _) (Nat.le_refl _)
  · refine hp.goto hi rfl (by simp [hphase]) ?_ (by rintro snap ⟨⟩)
    rintro j ⟨⟩
    have hread := hp.read_le i snap hphase
    have hseen := (hi.seen i snap hphase).ver_le
    exact ⟨rfl, by omega⟩
  · exact hp.goto hi rfl hphase (by rintro j ⟨⟩) (by rintro snap ⟨⟩)

theorem paid_run {H : Handlers Op D U ε} {op : ι → Op} {doc₀ : Option D} {es : List (Event ι)}
    {s : State ι D} (h : run (step H op) (State.init doc₀) es = some s) : Paid es s :=
  run_induction (P := fun es s => Paid es s) (Paid.init doc₀)
    (fun _ _ _ _ hrun hp hs => paid_step (inv_run hrun) hp hs) h

/-! Replay. -/

/-- Making the committed calls one after another, none of which fails, gives the document. -/
theorem replay_run {H : Handlers Op D U ε} {op : ι → Op} {doc₀ : Option D} {es : List (Event ι)}
    {s : State ι D} (h : run (step H op) (State.init doc₀) es = some s) :
    (committed es).foldlM (fun doc i => H.commit (op i) doc) doc₀ = some s.doc.val := by
  refine run_induction (P := fun es s =>
    (committed es).foldlM (fun doc i => H.commit (op i) doc) doc₀ = some s.doc.val) rfl ?_ h
  intro es s e s' hrun ih hstep
  rw [committed_snoc, List.foldlM_append, ih, Option.bind_eq_bind, Option.bind_some]
  rcases step_cases hstep with ⟨i, rfl, -, rfl⟩ | ⟨i, snap, rfl, hphase, hv, hbody⟩ |
    ⟨i, snap, rfl, -, -, rfl⟩ | ⟨i, rfl, -, rfl⟩
  · rfl
  · rw [((inv_run hrun).seen i snap hphase).val_eq hv] at hbody
    have hcommit : H.commit (op i) s.doc.val = some s'.doc.val := by
      rcases hbody with ⟨hb, rfl⟩ | ⟨u, d, hb, hd, rfl⟩
      · exact H.commit_of_body_none hb
      · exact H.commit_of_body hd hb
    simp [Event.committed?, hcommit]
  · rfl
  · rfl

/-! Progress. -/

/-- A call whose handler throws on every document never returns. -/
theorem ne_returned_of_throws {H : Handlers Op D U ε} {op : ι → Op} {i : ι} {doc₀ : Option D}
    (hthrows : ∀ doc, ∃ e, H.body (op i) doc = .error e) {es : List (Event ι)} {s : State ι D}
    (h : run (step H op) (State.init doc₀) es = some s) : s.phase i ≠ .returned := by
  refine run_induction (P := fun _ s => s.phase i ≠ .returned) (by simp [State.init]) ?_ h
  intro es s e s' _ ih hstep
  rcases step_cases hstep with ⟨j, rfl, -, rfl⟩ | ⟨j, snap, rfl, -, -, hbody⟩ |
    ⟨j, snap, rfl, -, -, rfl⟩ | ⟨j, rfl, -, rfl⟩
  case inr.inl =>
    have hne : i ≠ j := by
      rintro rfl
      obtain ⟨e, he⟩ := hthrows snap.val
      rcases hbody with ⟨hb, -⟩ | ⟨u, d, hb, -, -⟩ <;> simp [he] at hb
    rcases hbody with ⟨-, rfl⟩ | ⟨u, d, -, -, rfl⟩ <;> simpa [State.goto, hne] using ih
  all_goals
    rcases eq_or_ne i j with rfl | hne
    · simp
    · rwa [State.goto_phase_of_ne s hne]

/-- The call has neither returned nor thrown. -/
def Phase.Open : Phase D → Prop
  | .ready | .read _ => True
  | .returned | .threw => False

instance : ∀ p : Phase D, Decidable p.Open
  | .ready | .read _ => inferInstanceAs (Decidable True)
  | .returned | .threw => inferInstanceAs (Decidable False)

def Event.call : Event ι → ι
  | .read i | .commit i | .rerun i | .fail i => i

/-- An attempt that has read the current document commits at once. -/
theorem exists_step_commit {H : Handlers Op D U ε} {op : ι → Op} {s : State ι D} {i : ι}
    {doc' : Option D} (hphase : s.phase i = .read s.doc)
    (hcommit : H.commit (op i) s.doc.val = some doc') :
    ∃ s', step H op s (.commit i) = some s' ∧ s'.phase i = .returned ∧ s'.doc.val = doc' := by
  obtain ⟨u, hbody, ⟨rfl, rfl⟩ | ⟨v, d, rfl, hd, rfl⟩⟩ := H.of_commit hcommit
  · refine ⟨s.goto i .returned, ?_, State.goto_phase_self s i _, rfl⟩
    simp only [step, hphase, if_true, hbody]
  · refine ⟨{ s.goto i .returned with doc := s.doc.write (some (H.apply v d)) }, ?_,
      State.goto_phase_self s i _, rfl⟩
    rw [hd] at hbody
    simp only [step, hphase, if_true, hd, hbody, Option.map_some]

theorem exists_run_of_ready {H : Handlers Op D U ε} {op : ι → Op} {s : State ι D} {i : ι}
    {doc' : Option D} (hphase : s.phase i = .ready)
    (hcommit : H.commit (op i) s.doc.val = some doc') :
    ∃ s', run (step H op) s [.read i, .commit i] = some s' ∧ s'.phase i = .returned ∧
      s'.doc.val = doc' := by
  have hread : step H op s (.read i) = some (s.goto i (.read s.doc)) := by
    simp only [step, hphase]
  obtain ⟨s', hstep, hdone⟩ := exists_step_commit (s := s.goto i (.read s.doc))
    (State.goto_phase_self s i _) hcommit
  refine ⟨s', ?_, hdone⟩
  simp only [run, hread, hstep, Option.bind_some]

/-- An open call whose handler returns on the present document can commit by at most three
steps of its own, whatever the others are doing. -/
theorem exists_run_commit {H : Handlers Op D U ε} {op : ι → Op} {doc₀ : Option D}
    {es : List (Event ι)} {s : State ι D} (hi : Inv H op doc₀ es s) {i : ι} {doc' : Option D}
    (hopen : (s.phase i).Open) (hcommit : H.commit (op i) s.doc.val = some doc') :
    ∃ es' s', es'.length ≤ 3 ∧ (∀ e ∈ es', e.call = i) ∧ run (step H op) s es' = some s' ∧
      s'.phase i = .returned ∧ s'.doc.val = doc' := by
  cases hphase : s.phase i with
  | ready =>
    obtain ⟨s', hrun, hdone⟩ := exists_run_of_ready hphase hcommit
    exact ⟨_, s', by simp, by simp [Event.call], hrun, hdone⟩
  | read snap =>
    by_cases hv : snap.ver = s.doc.ver
    · obtain rfl : snap = s.doc := Cell.ext ((hi.seen i snap hphase).val_eq hv) hv
      obtain ⟨s', hstep, hdone⟩ := exists_step_commit hphase hcommit
      refine ⟨[.commit i], s', by simp, by simp [Event.call], ?_, hdone⟩
      simp only [run, hstep, Option.bind_some]
    · -- the attempt starts over, and nobody comes in between any more
      have hrerun : step H op s (.rerun i) = some (s.goto i .ready) := by
        simp only [step, hphase, if_neg hv]
      obtain ⟨s', hrun, hdone⟩ := exists_run_of_ready (s := s.goto i .ready)
        (State.goto_phase_self s i _) hcommit
      refine ⟨[.rerun i, .read i, .commit i], s', by simp, by simp [Event.call], ?_, hdone⟩
      rw [run, hrerun]
      exact hrun
  | returned | threw =>
    rw [hphase] at hopen
    exact hopen.elim

end Optimistic
