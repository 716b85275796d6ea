import Mathlib.Data.List.Nodup
import Mathlib.Logic.Function.Basic
import Mathlib.Order.Basic
import HomeBank.Lib.Run

/-! Optimistic transactions on one document, run by any number of callers. An
attempt reads the document with its version, runs its handler on what it read,
and commits only while the version is the one it read; otherwise it starts over
from a fresh read. Every interleaving ends in the document that the committed
calls produce one after another, in commit order. -/

namespace Optimistic

open Transition

/-- A value at the server with the number of writes it has received. -/
structure Cell (α : Type*) where
  val : α
  ver : ℕ

namespace Cell

variable {α : Type*} {c snap : Cell α}

def write (c : Cell α) (a : α) : Cell α := ⟨a, c.ver + 1⟩

@[simp] theorem write_val (c : Cell α) (a : α) : (c.write a).val = a := rfl

@[simp] theorem write_ver (c : Cell α) (a : α) : (c.write a).ver = c.ver + 1 := rfl

/-- `snap` is an earlier reading of `c`: while no write has come in between, it
still holds the current value. -/
structure Seen (c snap : Cell α) : Prop where
  ver_le : snap.ver ≤ c.ver
  val_eq : snap.ver = c.ver → snap.val = c.val

theorem Seen.refl (c : Cell α) : Seen c c := ⟨Nat.le_refl _, fun _ => rfl⟩

theorem Seen.write (h : Seen c snap) (a : α) : Seen (c.write a) snap := by
  refine ⟨Nat.le_succ_of_le h.ver_le, fun he => ?_⟩
  have hle := h.ver_le
  simp only [write_ver] at he
  omega

end Cell

/-- The code of a family of transactions: what the handler buffers when it has read
the document, and what a buffered update does to the stored document. -/
structure Handlers (Op D U ε : Type*) where
  body : Op → Option D → Except ε (Option U)
  apply : U → D → D

namespace Handlers

variable {Op D U ε : Type*} (H : Handlers Op D U ε)

/-- The document after `op` has committed on it; `none` when it cannot commit: its
handler throws, or it updates a document that does not exist. -/
def commit (op : Op) (doc : Option D) : Option (Option D) :=
  match H.body op doc with
  | .error _ => none
  | .ok none => some doc
  | .ok (some u) => doc.map fun d => some (H.apply u d)

/-- The same as an effect on documents, where what cannot commit changes nothing. -/
def effect (op : Op) (doc : Option D) : Option D := (H.commit op doc).getD doc

theorem effect_of_commit {op : Op} {doc doc' : Option D} (h : H.commit op doc = some doc') :
    H.effect op doc = doc' := by
  rw [effect, h]
  rfl

theorem commit_of_body {op : Op} {doc : Option D} {d : D} {u : U}
    (hd : doc = some d) (h : H.body op doc = .ok (some u)) :
    H.commit op doc = some (some (H.apply u d)) := by
  subst hd
  rw [commit, h]
  rfl

theorem commit_of_body_none {op : Op} {doc : Option D} (h : H.body op doc = .ok none) :
    H.commit op doc = some doc := by
  rw [commit, h]

theorem of_commit {op : Op} {doc doc' : Option D} (h : H.commit op doc = some doc') :
    ∃ u, H.body op doc = .ok u ∧ ((u = none ∧ doc' = doc) ∨
      ∃ v d, u = some v ∧ doc = some d ∧ doc' = some (H.apply v d)) := by
  unfold commit at h
  split at h
  · cases h
  · next hbody => exact ⟨none, hbody, .inl ⟨rfl, (Option.some.inj h).symm⟩⟩
  · next v hbody =>
    obtain ⟨d, hd, hdoc⟩ := Option.map_eq_some_iff.1 h
    exact ⟨some v, hbody, .inr ⟨v, d, rfl, hd, hdoc.symm⟩⟩

/-- On an existing document only the handler decides. -/
theorem effect_of_body {op : Op} {d : D} {u : Option U} (h : H.body op (some d) = .ok u) :
    H.effect op (some d) = some (u.elim d fun u => H.apply u d) := by
  rw [effect, commit, h]
  cases u <;> rfl

theorem effect_of_error {op : Op} {doc : Option D} {e : ε} (h : H.body op doc = .error e) :
    H.effect op doc = doc := by
  rw [effect, commit, h]
  rfl

end Handlers

/-- Where one call of `runTransaction` stands. -/
inductive Phase (D : Type*) where
  | ready
  | read (snap : Cell (Option D))
  | returned
  | threw

structure State (ι D : Type*) where
  doc : Cell (Option D)
  phase : ι → Phase D

/-- The attempts of call `i`. It may give up while it is open: a read that fails, a
handler that throws, a refusal after the last retry. -/
inductive Event (ι : Type*) where
  | read (i : ι)
  | commit (i : ι)
  | rerun (i : ι)
  | fail (i : ι)

variable {ι Op D U ε : Type*}

def State.init (doc : Option D) : State ι D := ⟨⟨doc, 0⟩, fun _ => .ready⟩

variable [DecidableEq ι]

def State.goto (s : State ι D) (i : ι) (p : Phase D) : State ι D :=
  { s with phase := Function.update s.phase i p }

@[simp] theorem State.goto_doc (s : State ι D) (i : ι) (p : Phase D) : (s.goto i p).doc = s.doc :=
  rfl

@[simp] theorem State.goto_phase_self (s : State ι D) (i : ι) (p : Phase D) :
    (s.goto i p).phase i = p := by
  simp [State.goto]

theorem State.goto_phase_of_ne (s : State ι D) {i j : ι} (h : j ≠ i) (p : Phase D) :
    (s.goto i p).phase j = s.phase j := by
  simp [State.goto, h]

def step (H : Handlers Op D U ε) (op : ι → Op) (s : State ι D) : Event ι → Option (State ι D)
  | .read i =>
    match s.phase i with
    | .ready => some (s.goto i (.read s.doc))
    | _ => none
  | .commit i =>
    match s.phase i with
    | .read snap =>
      if snap.ver = s.doc.ver then
        match H.body (op i) snap.val with
        | .error _ => none
        | .ok none => some (s.goto i .returned)
        | .ok (some u) =>
          -- an update of a document that does not exist is rejected
          s.doc.val.map fun d =>
            { s.goto i .returned with doc := s.doc.write (some (H.apply u d)) }
      else none
    | _ => none
  | .rerun i =>
    match s.phase i with
    | .read snap => if snap.ver = s.doc.ver then none else some (s.goto i .ready)
    | _ => none
  | .fail i =>
    match s.phase i with
    | .ready => some (s.goto i .threw)
    | .read _ => some (s.goto i .threw)
    | _ => none

def Event.committed? : Event ι → Option ι
  | .commit i => some i
  | _ => none

/-- The calls in the order in which they committed. -/
def committed (es : List (Event ι)) : List ι := es.filterMap Event.committed?

omit [DecidableEq ι] in
theorem committed_snoc (es : List (Event ι)) (e : Event ι) :
    committed (es ++ [e]) = committed es ++ e.committed?.toList :=
  filterMap_snoc _ es e

/-- Everything one step can do. -/
theorem step_cases {H : Handlers Op D U ε} {op : ι → Op} {s s' : State ι D} {e : Event ι}
    (h : step H op s e = some s') :
    (∃ i, e = .read i ∧ s.phase i = .ready ∧ s' = s.goto i (.read s.doc)) ∨
    (∃ i snap, e = .commit i ∧ s.phase i = .read snap ∧ snap.ver = s.doc.ver ∧
      ((H.body (op i) snap.val = .ok none ∧ s' = s.goto i .returned) ∨
        ∃ u d, H.body (op i) snap.val = .ok (some u) ∧ s.doc.val = some d ∧
          s' = { s.goto i .returned with doc := s.doc.write (some (H.apply u d)) })) ∨
    (∃ i snap, e = .rerun i ∧ s.phase i = .read snap ∧ snap.ver ≠ s.doc.ver ∧
      s' = s.goto i .ready) ∨
    (∃ i, e = .fail i ∧ s.phase i ≠ .returned ∧ s' = s.goto i .threw) := by
  cases e with
  | read i =>
    simp only [step] at h
    split at h
    · next hp => exact .inl ⟨i, rfl, hp, (Option.some.inj h).symm⟩
    · cases h
  | commit i =>
    simp only [step] at h
    split at h
    · next snap hp =>
      split at h
      · next hv =>
        refine .inr (.inl ⟨i, snap, rfl, hp, hv, ?_⟩)
        split at h
        · cases h
        · next hb => exact .inl ⟨hb, (Option.some.inj h).symm⟩
        · next u hb =>
          obtain ⟨d, hd, hs⟩ := Option.map_eq_some_iff.1 h
          exact .inr ⟨u, d, hb, hd, hs.symm⟩
      · cases h
    · cases h
  | rerun i =>
    simp only [step] at h
    split at h
    · next snap hp =>
      split at h
      · cases h
      · next hv => exact .inr (.inr (.inl ⟨i, snap, rfl, hp, hv, (Option.some.inj h).symm⟩))
    · cases h
  | fail i =>
    refine .inr (.inr (.inr ⟨i, rfl, ?_⟩))
    simp only [step] at h
    split at h
    · next hp => exact ⟨by simp [hp], (Option.some.inj h).symm⟩
    · next snap hp => exact ⟨by simp [hp], (Option.some.inj h).symm⟩
    · cases h

/-- What the open attempts and the closed calls have in common at every moment. -/
structure Inv (H : Handlers Op D U ε) (op : ι → Op) (doc₀ : Option D) (es : List (Event ι))
    (s : State ι D) : Prop where
  seen : ∀ i snap, s.phase i = .read snap → s.doc.Seen snap
  serial : s.doc.val = (committed es).foldl (fun doc i => H.effect (op i) doc) doc₀
  once : (committed es).Nodup
  closed : ∀ i, i ∈ committed es ↔ s.phase i = .returned

omit [DecidableEq ι] in
theorem Inv.init (H : Handlers Op D U ε) (op : ι → Op) (doc₀ : Option D) :
    Inv H op doc₀ [] (State.init doc₀) := by
  constructor <;> simp [State.init, committed]

/-- An open call moves on without committing. -/
theorem Inv.goto {H : Handlers Op D U ε} {op : ι → Op} {doc₀ : Option D} {es : List (Event ι)}
    {s : State ι D} (hi : Inv H op doc₀ es s) {e : Event ι} (he : e.committed? = none) {i : ι}
    {p : Phase D} (hopen : s.phase i ≠ .returned) (hp : p ≠ .returned)
    (hseen : ∀ snap, p = .read snap → s.doc.Seen snap) :
    Inv H op doc₀ (es ++ [e]) (s.goto i p) := by
  have hlog : committed (es ++ [e]) = committed es := by rw [committed_snoc, he]; simp
  constructor
  · intro j snap hj
    rcases eq_or_ne j i with rfl | hne
    · exact hseen snap (by simpa using hj)
    · rw [State.goto_phase_of_ne s hne] at hj
      exact hi.seen j snap hj
  · rw [hlog]
    exact hi.serial
  · rw [hlog]
    exact hi.once
  · intro j
    rw [hlog, hi.closed]
    rcases eq_or_ne j i with rfl | hne
    · simp [hopen, hp]
    · rw [State.goto_phase_of_ne s hne]

/-- An attempt commits on the version it has read. -/
theorem Inv.commit {H : Handlers Op D U ε} {op : ι → Op} {doc₀ : Option D} {es : List (Event ι)}
    {s : State ι D} (hi : Inv H op doc₀ es s) {i : ι} (hopen : s.phase i ≠ .returned)
    {c : Cell (Option D)} (hc : ∀ snap, s.doc.Seen snap → c.Seen snap)
    (heff : c.val = H.effect (op i) s.doc.val) :
    Inv H op doc₀ (es ++ [.commit i]) { s.goto i .returned with doc := c } := by
  have hlog : committed (es ++ [.commit i]) = committed es ++ [i] := by
    rw [committed_snoc]
    rfl
  have hnew : i ∉ committed es := fun h => hopen ((hi.closed i).1 h)
  constructor
  · intro j snap hj
    rcases eq_or_ne j i with rfl | hne
    · simp [State.goto] at hj
    · exact hc snap (hi.seen j snap (by simpa [State.goto, hne] using hj))
  · rw [hlog, List.foldl_append, ← hi.serial]
    exact heff
  · rw [hlog]
    exact List.nodup_append.2 ⟨hi.once, List.nodup_singleton i, by
      rintro j hj k hk rfl
      exact hnew (List.mem_singleton.1 hk ▸ hj)⟩
  · intro j
    rw [hlog, List.mem_append, List.mem_singleton, hi.closed]
    rcases eq_or_ne j i with rfl | hne
    · simp [State.goto]
    · simp [State.goto, hne]

theorem inv_step {H : Handlers Op D U ε} {op : ι → Op} {doc₀ : Option D} {es : List (Event ι)}
    {s s' : State ι D} {e : Event ι} (hi : Inv H op doc₀ es s) (h : step H op s e = some s') :
    Inv H op doc₀ (es ++ [e]) s' := by
  rcases step_cases h with ⟨i, rfl, hp, rfl⟩ | ⟨i, snap, rfl, hp, hv, hbody⟩ |
    ⟨i, snap, rfl, hp, -, rfl⟩ | ⟨i, rfl, hp, rfl⟩
  · refine hi.goto rfl (by simp [hp]) (by simp) ?_
    rintro snap ⟨⟩
    exact Cell.Seen.refl s.doc
  · have hopen : s.phase i ≠ .returned := by simp [hp]
    have hval : snap.val = s.doc.val := (hi.seen i snap hp).val_eq hv
    rw [hval] at hbody
    rcases hbody with ⟨hb, rfl⟩ | ⟨u, d, hb, hd, rfl⟩
    · exact hi.commit hopen (fun _ h => h) (H.effect_of_commit (H.commit_of_body_none hb)).symm
    · exact hi.commit hopen (fun _ h => h.write _) (H.effect_of_commit (H.commit_of_body hd hb)).symm
  · exact hi.goto rfl (by simp [hp]) (by simp) (by rintro snap ⟨⟩)
  · exact hi.goto rfl hp (by simp) (by rintro snap ⟨⟩)

theorem inv_run {H : Handlers Op D U ε} {op : ι → Op} {doc₀ : Option D} {es : List (Event ι)}
    {s : State ι D} (h : run (step H op) (State.init doc₀) es = some s) : Inv H op doc₀ es s :=
  run_induction (P := Inv H op doc₀) (Inv.init H op doc₀) (fun _ _ _ _ _ hi hs => inv_step hi hs) h

/-- A step leaves the document alone, or commits one operation on it as it stands. -/
theorem Inv.step_doc {H : Handlers Op D U ε} {op : ι → Op} {doc₀ : Option D} {es : List (Event ι)}
    {s s' : State ι D} {e : Event ι} (hi : Inv H op doc₀ es s) (h : step H op s e = some s') :
    (∃ i, e = .commit i ∧ s'.doc.val = H.effect (op i) s.doc.val) ∨
      e.committed? = none ∧ s'.doc.val = s.doc.val := by
  have hserial := (inv_step hi h).serial
  rw [committed_snoc, List.foldl_append, ← hi.serial] at hserial
  cases e with
  | commit i => exact .inl ⟨i, rfl, hserial⟩
  | read i | rerun i | fail i => exact .inr ⟨rfl, hserial⟩

end Optimistic
