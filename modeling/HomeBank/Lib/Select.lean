import Mathlib.Data.List.Basic

/-! `where` on a list with a test that may throw, where the first exception ends it, and the
selections of a list by the values of a key. -/

namespace Select

variable {α : Type} {ε : Type*} {test : α → Except ε Bool} {p : α → Bool} {l r : List α}

def whereM (test : α → Except ε Bool) : List α → Except ε (List α)
  | [] => .ok []
  | element :: data => do
    let keep ← test element
    let rest ← whereM test data
    return if keep then element :: rest else rest

theorem whereM_eq_ok (h : ∀ a ∈ l, test a = .ok (p a)) : whereM test l = .ok (l.filter p) := by
  induction l with
  | nil => rfl
  | cons a l ih =>
    rw [List.forall_mem_cons] at h
    rw [whereM, h.1, ih h.2]
    cases hp : p a <;> simp [hp, bind, Except.bind, pure, Except.pure]

/-- A list is returned only when the test has returned for every element. -/
theorem exists_ok_of_whereM (h : whereM test l = .ok r) : ∀ a ∈ l, ∃ b, test a = .ok b := by
  induction l generalizing r with
  | nil => simp
  | cons a l ih =>
    rw [whereM] at h
    cases htest : test a with
    | error e => simp [htest, bind, Except.bind] at h
    | ok b =>
      cases hrest : whereM test l with
      | error e => simp [htest, hrest, bind, Except.bind] at h
      | ok rest => exact List.forall_mem_cons.2 ⟨⟨b, htest⟩, ih hrest⟩

/-- What a test says that returns, as a function. -/
def passed (test : α → Except ε Bool) (a : α) : Bool :=
  match test a with
  | .ok b => b
  | .error _ => false

theorem whereM_eq_passed (h : ∀ a ∈ l, ∃ b, test a = .ok b) :
    whereM test l = .ok (l.filter (passed test)) := by
  refine whereM_eq_ok fun a ha => ?_
  obtain ⟨b, hb⟩ := h a ha
  rw [passed, hb]

theorem exists_whereM_iff : (∃ r, whereM test l = .ok r) ↔ ∀ a ∈ l, ∃ b, test a = .ok b :=
  ⟨fun ⟨_, h⟩ => exists_ok_of_whereM h, fun h => ⟨_, whereM_eq_passed h⟩⟩

theorem subset_of_whereM (h : whereM test l = .ok r) : r ⊆ l := by
  rw [whereM_eq_passed (exists_ok_of_whereM h)] at h
  rw [← Except.ok.inj h]
  exact List.filter_subset_self ..

/-- The list returned is the selection by `p` exactly when the test says what `p` says. -/
theorem whereM_eq_ok_iff : whereM test l = .ok (l.filter p) ↔ ∀ a ∈ l, test a = .ok (p a) := by
  refine ⟨fun h a ha => ?_, whereM_eq_ok⟩
  have hok := exists_ok_of_whereM h
  rw [whereM_eq_passed hok] at h
  obtain ⟨b, hb⟩ := hok a ha
  have hsame : l.filter (passed test) = l.filter p := Except.ok.inj h
  have hmem : a ∈ l.filter (passed test) ↔ a ∈ l.filter p := by rw [hsame]
  simp only [List.mem_filter, ha, true_and, passed, hb] at hmem
  rw [hb, Bool.eq_iff_iff.2 hmem]

/-- A traversal returns exactly when it does at every element. -/
theorem exists_mapM_iff {β : Type} {ε : Type} {f : α → Except ε β} {l : List α} :
    (∃ r, l.mapM f = .ok r) ↔ ∀ a ∈ l, ∃ b, f a = .ok b := by
  induction l with
  | nil => exact ⟨by simp, fun _ => ⟨[], rfl⟩⟩
  | cons a l ih =>
    rw [List.forall_mem_cons, ← ih, List.mapM_cons]
    cases ha : f a with
    | error e => simp [bind, Except.bind]
    | ok b =>
      cases hl : l.mapM f with
      | error e => simp [bind, Except.bind]
      | ok r => simp [bind, Except.bind, pure, Except.pure]

theorem mapM_eq_ok {β : Type} {ε : Type} {f : α → Except ε β} {g : α → β}
    (h : ∀ a ∈ l, f a = .ok (g a)) : l.mapM f = .ok (l.map g) := by
  induction l with
  | nil => rfl
  | cons a l ih =>
    rw [List.forall_mem_cons] at h
    rw [List.mapM_cons, h.1, ih h.2]
    rfl

/-- What a traversal gives at the elements at which it returns. -/
def collected {β : Type} {ε : Type} (f : α → Except ε β) (l : List α) : List β :=
  l.filterMap fun a => (f a).toOption

theorem mapM_eq_collected {β : Type} {ε : Type} {f : α → Except ε β} {l : List α}
    (h : ∀ a ∈ l, ∃ b, f a = .ok b) : l.mapM f = .ok (collected f l) := by
  induction l with
  | nil => rfl
  | cons a l ih =>
    rw [List.forall_mem_cons] at h
    obtain ⟨⟨b, hb⟩, hl⟩ := h
    have hfirst : collected f (a :: l) = b :: collected f l :=
      List.filterMap_cons_some (by rw [hb]; rfl)
    rw [List.mapM_cons, hb, ih hl, hfirst]
    rfl

theorem collected_eq_map {β : Type} {ε : Type} {f : α → Except ε β} {g : α → β}
    (h : ∀ a, f a = .ok (g a)) (l : List α) : collected f l = l.map g := by
  have hsome : (fun a => (f a).toOption) = some ∘ g := funext fun a => by rw [h]; rfl
  rw [collected, hsome, List.filterMap_eq_map]

/-- The selections by all values that a key takes make up the list. -/
theorem flatMap_filter_perm {κ : Type*} [DecidableEq κ] (key : α → κ) {ks : List κ} (hks : ks.Nodup)
    (h : ∀ a ∈ l, key a ∈ ks) : (ks.flatMap fun k => l.filter fun a => key a = k).Perm l := by
  induction ks generalizing l with
  | nil =>
    rw [List.eq_nil_iff_forall_not_mem.2 fun a ha => List.not_mem_nil (h a ha)]
    exact .refl _
  | cons k ks ih =>
    obtain ⟨hk, hks⟩ := List.nodup_cons.1 hks
    have hrest : (ks.flatMap fun k' => l.filter fun a => key a = k') =
        ks.flatMap fun k' => (l.filter fun a => !decide (key a = k)).filter fun a => key a = k' := by
      refine List.flatMap_congr fun k' hk' => ?_
      rw [List.filter_filter]
      refine List.filter_congr fun a _ => ?_
      by_cases ha : key a = k'
      · have hne : k' ≠ k := fun heq => hk (heq ▸ hk')
        simp [ha, hne]
      · simp [ha]
    have hkeys : ∀ a ∈ l.filter (fun a => !decide (key a = k)), key a ∈ ks := by
      intro a ha
      obtain ⟨ha, hne⟩ := List.mem_filter.1 ha
      exact (List.mem_cons.1 (h a ha)).resolve_left (by simpa using hne)
    rw [List.flatMap_cons, hrest]
    exact ((ih hks hkeys).append_left _).trans (List.filter_append_perm _ l)

/-- An element lies in the selection by its own value, as often as in the list, and in no
other. -/
theorem count_filter_key {κ : Type*} [DecidableEq α] [DecidableEq κ] (key : α → κ) (k : κ) (a : α)
    (l : List α) : (l.filter fun b => key b = k).count a = if key a = k then l.count a else 0 := by
  split
  · next ha => exact List.count_filter (by simpa using ha)
  · next ha => exact List.count_eq_zero.2 fun hmem => ha (by simpa using (List.mem_filter.1 hmem).2)

end Select
