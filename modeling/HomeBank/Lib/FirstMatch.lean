import Mathlib.Data.Multiset.AddSub

/-! The first element of a list that passes a test, replaced by other elements. What a
loop with an index and a `break` does to a list is such a change, and so is what an
operation on one element does to a bag. -/

namespace FirstMatch

variable {α β : Type*} {p : α → Bool} {r : α → List α}

/-- The first element that passes `p` gives way to `r` of it. -/
def changeFirst (p : α → Bool) (r : α → List α) : List α → List α
  | [] => []
  | a :: l => if p a then r a ++ l else a :: changeFirst p r l

theorem changeFirst_of_findIdx?_eq_none {l : List α} (h : l.findIdx? p = none) :
    changeFirst p r l = l := by
  rw [List.findIdx?_eq_none_iff] at h
  induction l with
  | nil => rfl
  | cons a l ih =>
    rw [List.forall_mem_cons] at h
    rw [changeFirst, if_neg (by simp [h.1]), ih h.2]

/-- Assigning to the element at the index that the search has found. -/
theorem modify_findIdx? {f : α → α} {l : List α} {i : ℕ} (h : l.findIdx? p = some i) :
    l.modify i f = changeFirst p (fun a => [f a]) l := by
  induction l generalizing i with
  | nil => cases h
  | cons a l ih =>
    rw [List.findIdx?_cons] at h
    rw [changeFirst]
    split at h
    · next hp =>
      cases h
      rw [if_pos hp]
      rfl
    · next hp =>
      obtain ⟨j, hj, rfl⟩ := Option.map_eq_some_iff.1 h
      rw [if_neg hp, List.modify_succ_cons, ih hj]

/-- Removing the element at the index that the search has found. -/
theorem eraseIdx_findIdx? {l : List α} {i : ℕ} (h : l.findIdx? p = some i) :
    l.eraseIdx i = changeFirst p (fun _ => []) l := by
  induction l generalizing i with
  | nil => cases h
  | cons a l ih =>
    rw [List.findIdx?_cons] at h
    rw [changeFirst]
    split at h
    · next hp =>
      cases h
      rw [if_pos hp]
      rfl
    · next hp =>
      obtain ⟨j, hj, rfl⟩ := Option.map_eq_some_iff.1 h
      rw [if_neg hp, List.eraseIdx_cons_succ, ih hj]

/-- The element that the search has found. -/
theorem exists_of_findIdx? {l : List α} {i : ℕ} (h : l.findIdx? p = some i) :
    ∃ l₁ a l₂, p a = true ∧ l = l₁ ++ a :: l₂ ∧ ∀ r, changeFirst p r l = l₁ ++ r a ++ l₂ := by
  induction l generalizing i with
  | nil => cases h
  | cons a l ih =>
    rw [List.findIdx?_cons] at h
    split at h
    · next hp => exact ⟨[], a, l, hp, rfl, fun r => by simp [changeFirst, hp]⟩
    · next hp =>
      obtain ⟨j, hj, rfl⟩ := Option.map_eq_some_iff.1 h
      obtain ⟨l₁, b, l₂, hb, rfl, hr⟩ := ih hj
      exact ⟨a :: l₁, b, l₂, hb, rfl, fun r => by simp [changeFirst, hp, hr]⟩

theorem changeFirst_map {q : β → Bool} {t : β → List β} {g : α → β} (hq : ∀ a, q (g a) = p a)
    (ht : ∀ a, p a = true → t (g a) = (r a).map g) (l : List α) :
    changeFirst q t (l.map g) = (changeFirst p r l).map g := by
  induction l with
  | nil => rfl
  | cons a l ih =>
    rw [List.map_cons, changeFirst, changeFirst, hq]
    split
    · next hp => rw [ht a hp, List.map_append]
    · rw [ih, List.map_cons]

/-- A selection that keeps all that passes the test, and all that replaces it. -/
theorem filter_changeFirst {k : α → Bool}
    (hk : ∀ a, p a = true → k a = true ∧ (r a).filter k = r a) (l : List α) :
    (changeFirst p r l).filter k = changeFirst p r (l.filter k) := by
  induction l with
  | nil => rfl
  | cons a l ih =>
    rw [changeFirst]
    split
    · next hp =>
      rw [List.filter_append, (hk a hp).2, List.filter_cons_of_pos (hk a hp).1, changeFirst,
        if_pos hp]
    · next hp =>
      cases hka : k a with
      | true =>
        rw [List.filter_cons_of_pos hka, List.filter_cons_of_pos hka, changeFirst, if_neg hp, ih]
      | false =>
        rw [List.filter_cons_of_neg (by simp [hka]), List.filter_cons_of_neg (by simp [hka]), ih]

/-- A selection that takes nothing of what passes the test does not see the change. -/
theorem filter_changeFirst_of_not {k : α → Bool}
    (hk : ∀ a, p a = true → k a = false ∧ (r a).filter k = []) (l : List α) :
    (changeFirst p r l).filter k = l.filter k := by
  induction l with
  | nil => rfl
  | cons a l ih =>
    rw [changeFirst]
    split
    · next hp =>
      rw [List.filter_append, (hk a hp).2, List.filter_cons_of_neg (by simp [(hk a hp).1]),
        List.nil_append]
    · rw [List.filter_cons, List.filter_cons, ih]

theorem map_changeFirst_sublist {g : α → β} (hr : ∀ a, p a = true → ((r a).map g).Sublist [g a])
    (l : List α) : ((changeFirst p r l).map g).Sublist (l.map g) := by
  induction l with
  | nil => exact List.Sublist.refl _
  | cons a l ih =>
    rw [changeFirst]
    split
    · next hp =>
      rw [List.map_append]
      exact (hr a hp).append (List.Sublist.refl _)
    · exact ih.cons_cons _

/-- As bags: when the test is for one value, one copy of it gives way. -/
theorem coe_changeFirst [DecidableEq α] (a : α) (r : α → List α) (l : List α) :
    (changeFirst (fun b => decide (b = a)) r l : Multiset α) =
      if a ∈ l then (r a : Multiset α) + (l : Multiset α).erase a else l := by
  induction l with
  | nil => rfl
  | cons b l ih =>
    rw [changeFirst]
    by_cases hb : b = a
    · subst hb
      simp
    · have hmem : a ∈ b :: l ↔ a ∈ l := by simp [Ne.symm hb]
      rw [if_neg (by simpa using hb), ← Multiset.cons_coe, ih, ← Multiset.cons_coe,
        Multiset.erase_cons_tail _ hb]
      simp only [hmem]
      split
      · rw [Multiset.add_cons]
      · rfl

end FirstMatch
