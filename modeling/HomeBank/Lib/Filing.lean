import Mathlib.Order.Lattice
import HomeBank.Lib.Document

/-! Documents that file items by a key: one field is the header, every other field is
the list of the items whose key is its name, in a common order of all items. Read in the
order of the keys, the lists give back items that came in that order. -/

namespace Firestore

variable {α ρ : Type*} {header : String} {value : Option (Value ρ)} {key : α → String} {stored : α → ρ}
  {items items' : List α} {doc : Document ρ}

/-- The items with key `k`, as rows. -/
def filed (key : α → String) (stored : α → ρ) (items : List α) (k : String) : List ρ :=
  (items.filter fun a => key a = k).map stored

structure Files (header : String) (value : Option (Value ρ)) (key : α → String) (stored : α → ρ)
    (items : List α) (doc : Document ρ) : Prop where
  header_eq : doc.lookup header = value
  list_eq : ∀ k, k ≠ header → doc.lookup k = some (.list (filed key stored items k)) ∨
    (doc.lookup k = none ∧ filed key stored items k = [])
  bag : rows doc = (items : Multiset α).map stored

/-- A document that holds only its header files nothing. -/
theorem Files.init {v : Value ρ} (hv : v.rows = []) :
    Files header (some v) key stored [] ((∅ : Document ρ).insert header v) := by
  refine ⟨AList.lookup_insert _, fun k hk => .inr ⟨?_, rfl⟩, ?_⟩
  · rw [AList.lookup_insert_ne hk]
    exact AList.lookup_empty k
  · rw [rows_insert_erase, hv]
    rfl

theorem Files.listField (h : Files header value key stored items doc) {k : String} (hk : k ≠ header) :
    listField (some doc) k = .ok (filed key stored items k) := by
  rcases h.list_eq k hk with hlist | ⟨hnone, hnil⟩
  · exact listField_list hlist
  · rw [hnil]
    exact listField_none hnone

/-- A selection that differs in nothing but the items of one key is the same for all other
keys. -/
theorem filed_congr {k k' : String} (hne : k' ≠ k)
    (hothers : (items'.filter fun a => key a ≠ k) = items.filter fun a => key a ≠ k) :
    filed key stored items' k' = filed key stored items k' := by
  have hsub : ∀ l : List α, (l.filter fun a => key a ≠ k).filter (fun a => key a = k') =
      l.filter fun a => key a = k' := by
    intro l
    rw [List.filter_filter]
    refine List.filter_congr fun a _ => ?_
    by_cases ha : key a = k'
    · simp [ha, hne]
    · simp [ha]
  rw [filed, filed, ← hsub items', hothers, hsub]

/-- Writing one list anew files other items when the rest of them are as they were. -/
theorem Files.put (h : Files header value key stored items doc) {k : String} (hk : k ≠ header)
    (hothers : (items'.filter fun a => key a ≠ k) = items.filter fun a => key a ≠ k) :
    Files header value key stored items' (doc.insert k (.list (filed key stored items' k))) := by
  refine ⟨?_, fun k' hk' => ?_, ?_⟩
  · rw [AList.lookup_insert_ne hk.symm]
    exact h.header_eq
  · rcases eq_or_ne k' k with rfl | hne
    · exact .inl (AList.lookup_insert _)
    · rw [AList.lookup_insert_ne hne, filed_congr hne hothers]
      exact h.list_eq k' hk'
  · have hrows := rows_insert doc k (.list (filed key stored items' k))
    rw [listField_eq_ok (h.listField hk), h.bag] at hrows
    have hsplit : ∀ l : List α, (l : Multiset α).map stored = (filed key stored l k : Multiset ρ) +
        ((l.filter fun a => key a ≠ k).map stored : Multiset ρ) := by
      intro l
      have hparts := Multiset.filter_add_not (fun a : α => key a = k) l
      rw [filed, ← Multiset.map_coe, ← Multiset.map_coe, ← Multiset.map_add]
      congr 1
      simpa using hparts.symm
    refine add_right_cancel (hrows.trans ?_)
    rw [hsplit items', hsplit items, hothers, Value.rows]
    abel

/-- Appending a row to the list of its key files one more item. -/
theorem Files.append (h : Files header value key stored items doc) (a : α) (ha : key a ≠ header) :
    Files header value key stored (items ++ [a])
      (doc.insert (key a) (.list (filed key stored items (key a) ++ [stored a]))) := by
  have hothers : ((items ++ [a]).filter fun b => key b ≠ key a) =
      items.filter fun b => key b ≠ key a := by
    simp
  have hlist : filed key stored (items ++ [a]) (key a) =
      filed key stored items (key a) ++ [stored a] := by
    simp [filed]
  rw [← hlist]
  exact h.put ha hothers

section Order

variable {κ : Type*} [LinearOrder κ] {f : α → κ}

/-- In a sorted list the items with the least key come first. -/
theorem filter_append_filter {k : κ} {l : List α} (hl : l.Pairwise fun a b => f a ≤ f b)
    (hk : ∀ a ∈ l, k ≤ f a) : (l.filter fun a => f a = k) ++ (l.filter fun a => f a ≠ k) = l := by
  induction l with
  | nil => rfl
  | cons a l ih =>
    rw [List.pairwise_cons] at hl
    rw [List.forall_mem_cons] at hk
    by_cases ha : f a = k
    · simpa [ha] using ih hl.2 hk.2
    · have hlt : ∀ b ∈ l, f b ≠ k := fun b hb heq =>
        ha (le_antisymm (heq ▸ hl.1 b hb) hk.1)
      have hnone : (l.filter fun b => f b = k) = [] :=
        List.filter_eq_nil_iff.2 fun b hb => by simpa using hlt b hb
      have hall : (l.filter fun b => f b ≠ k) = l :=
        List.filter_eq_self.2 fun b hb => by simpa using hlt b hb
      rw [List.filter_cons_of_neg (by simpa using ha), List.filter_cons_of_pos (by simpa using ha),
        hnone, hall, List.nil_append]

/-- The lists of the keys, one after another in the order of the keys, are the whole list. -/
theorem flatMap_filter {ks : List κ} (hks : ks.Pairwise (· < ·)) {l : List α}
    (hl : l.Pairwise fun a b => f a ≤ f b) (hmem : ∀ a ∈ l, f a ∈ ks) :
    (ks.flatMap fun k => l.filter fun a => f a = k) = l := by
  induction ks generalizing l with
  | nil =>
    cases l with
    | nil => rfl
    | cons a l => exact absurd (hmem a List.mem_cons_self) List.not_mem_nil
  | cons k ks ih =>
    rw [List.pairwise_cons] at hks
    have hleast : ∀ a ∈ l, k ≤ f a := by
      intro a ha
      rcases List.mem_cons.1 (hmem a ha) with heq | hlater
      · exact heq.ge
      · exact (hks.1 _ hlater).le
    have hrest : (ks.flatMap fun k' => l.filter fun a => f a = k') =
        ks.flatMap fun k' => (l.filter fun a => f a ≠ k).filter fun a => f a = k' := by
      refine List.flatMap_congr fun k' hk' => ?_
      rw [List.filter_filter]
      refine List.filter_congr fun a _ => ?_
      by_cases ha : f a = k'
      · simp [ha, (hks.1 k' hk').ne']
      · simp [ha]
    have htail : ∀ a ∈ l.filter (fun a => f a ≠ k), f a ∈ ks := by
      intro a ha
      obtain ⟨ha, hne⟩ := List.mem_filter.1 ha
      exact (List.mem_cons.1 (hmem a ha)).resolve_left (by simpa using hne)
    rw [List.flatMap_cons, hrest, ih hks.2 (hl.sublist List.filter_sublist) htail]
    exact filter_append_filter hl hleast

end Order

end Firestore
