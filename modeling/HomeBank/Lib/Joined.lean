import Mathlib.Data.List.Basic
import Mathlib.Data.List.Infix

/-! Words made of parts with a separator between each two that follow each other. -/

variable {α : Type*} {sep : α} {P Q : List α → Prop} {u v w : List α}

/-- `w` is one or more parts, each with `P`, joined by single separators. -/
def JoinedBy (sep : α) (P : List α → Prop) (w : List α) : Prop :=
  ∃ parts, parts ≠ [] ∧ w = [sep].intercalate parts ∧ ∀ part ∈ parts, P part

/-- No separator at the beginning or at the end, and no two in a row. -/
structure WellSeparated (sep : α) (w : List α) : Prop where
  front : ¬ [sep] <+: w
  back : ¬ [sep] <:+ w
  inner : ¬ [sep, sep] <:+: w

theorem JoinedBy.single (h : P u) : JoinedBy sep P u :=
  ⟨[u], List.cons_ne_nil u [], List.intercalate_singleton.symm, List.forall_mem_singleton.2 h⟩

theorem JoinedBy.cons (h : P u) (hv : JoinedBy sep P v) : JoinedBy sep P (u ++ sep :: v) := by
  obtain ⟨parts, hne, rfl, hparts⟩ := hv
  refine ⟨u :: parts, List.cons_ne_nil u parts, ?_, List.forall_mem_cons.2 ⟨h, hparts⟩⟩
  rw [List.intercalate_cons_of_ne_nil hne, List.append_assoc]
  rfl

/-- The induction rule: `Q` holds of a part alone, and of a part before a word that has it. -/
theorem JoinedBy.induction (hsingle : ∀ u, P u → Q u)
    (hcons : ∀ u v, P u → Q v → Q (u ++ sep :: v)) (h : JoinedBy sep P w) : Q w := by
  obtain ⟨parts, hne, rfl, hparts⟩ := h
  induction parts with
  | nil => exact absurd rfl hne
  | cons u rest ih =>
    obtain ⟨hu, hrest⟩ := List.forall_mem_cons.1 hparts
    by_cases hnil : rest = []
    · rw [hnil, List.intercalate_singleton]
      exact hsingle u hu
    · rw [List.intercalate_cons_of_ne_nil hnil, List.append_assoc]
      exact hcons u _ hu (ih hnil hrest)

theorem JoinedBy.mono {P' : List α → Prop} (hmono : ∀ u, P u → P' u) (h : JoinedBy sep P w) :
    JoinedBy sep P' w := by
  obtain ⟨parts, hne, hw, hparts⟩ := h
  exact ⟨parts, hne, hw, fun part hpart => hmono part (hparts part hpart)⟩

theorem JoinedBy.forall_mem {q : α → Prop} (hP : ∀ u, P u → ∀ a ∈ u, q a) (hsep : q sep)
    (h : JoinedBy sep P w) : ∀ a ∈ w, q a := by
  refine h.induction (Q := fun w => ∀ a ∈ w, q a) hP ?_
  intro u v hu hv
  exact List.forall_mem_append.2 ⟨hP u hu, List.forall_mem_cons.2 ⟨hsep, hv⟩⟩

/-- What holds of every letter of the word holds of those of its parts. -/
theorem JoinedBy.and_forall {q : α → Prop} (h : JoinedBy sep P w) :
    (∀ a ∈ w, q a) → JoinedBy sep (fun u => P u ∧ ∀ a ∈ u, q a) w := by
  refine h.induction (Q := fun w => (∀ a ∈ w, q a) →
    JoinedBy sep (fun u => P u ∧ ∀ a ∈ u, q a) w) ?_ ?_
  · intro u hu hq
    exact .single ⟨hu, hq⟩
  · intro u v hu ih hq
    obtain ⟨hqu, hqv⟩ := List.forall_mem_append.1 hq
    exact .cons ⟨hu, hqu⟩ (ih (List.forall_mem_cons.1 hqv).2)

theorem JoinedBy.exists_head {q : α → Prop} (hP : ∀ u, P u → ∃ a ∈ u.head?, q a)
    (h : JoinedBy sep P w) : ∃ a ∈ w.head?, q a := by
  refine h.induction (Q := fun w => ∃ a ∈ w.head?, q a) hP ?_
  intro u v hu _
  obtain ⟨a, ha, hq⟩ := hP u hu
  exact ⟨a, List.mem_head?_append_of_mem_head? ha, hq⟩

/-- A word without the separator is well separated. -/
theorem wellSeparated_of_notMem (h : sep ∉ w) : WellSeparated sep w where
  front := fun hfront => h (hfront.mem (List.mem_singleton_self sep))
  back := fun hback => h (hback.mem (List.mem_singleton_self sep))
  inner := fun hinner => h (hinner.mem (List.mem_cons_self ..))

/-- One more part in front, neither empty nor with a separator in it. -/
theorem WellSeparated.cons (hne : u ≠ []) (hu : sep ∉ u) (hv : v ≠ []) (h : WellSeparated sep v) :
    WellSeparated sep (u ++ sep :: v) where
  front := by
    obtain ⟨a, u, rfl⟩ := List.exists_cons_of_ne_nil hne
    intro hfront
    obtain ⟨rfl, _⟩ := List.cons_prefix_cons.1 hfront
    exact hu (List.mem_cons_self ..)
  back := by
    intro hback
    refine h.back (List.suffix_of_suffix_length_le hback ?_ (List.length_pos_iff.2 hv))
    exact (List.suffix_cons sep v).trans (List.suffix_append u _)
  inner := by
    clear hne
    induction u with
    | nil =>
      intro hinner
      rcases List.infix_cons_iff.1 hinner with hfront | hinner
      · exact h.front (List.cons_prefix_cons.1 hfront).2
      · exact h.inner hinner
    | cons a u ih =>
      intro hinner
      rcases List.infix_cons_iff.1 hinner with hfront | hinner
      · exact hu ((List.cons_prefix_cons.1 hfront).1 ▸ List.mem_cons_self ..)
      · exact ih (fun hmem => hu (List.mem_cons_of_mem a hmem)) hinner

/-- Joining parts that are not empty and hold no separator gives a well separated word. -/
theorem JoinedBy.wellSeparated (hP : ∀ u, P u → u ≠ [] ∧ sep ∉ u) (h : JoinedBy sep P w) :
    WellSeparated sep w := by
  have hboth : w ≠ [] ∧ WellSeparated sep w := by
    refine h.induction (Q := fun w => w ≠ [] ∧ WellSeparated sep w) ?_ ?_
    · intro u hu
      exact ⟨(hP u hu).1, wellSeparated_of_notMem (hP u hu).2⟩
    · intro u v hu hv
      exact ⟨List.append_ne_nil_of_right_ne_nil u (List.cons_ne_nil sep v),
        hv.2.cons (hP u hu).1 (hP u hu).2 hv.1⟩
  exact hboth.2

theorem eq_nil_of_cons_eq_append {a : α} (hv : a ∉ v) (h : a :: v = u ++ a :: w) : u = [] := by
  match u with
  | [] => rfl
  | b :: u =>
    refine absurd ?_ hv
    rw [(List.cons.inj h).2]
    exact List.mem_append_right u (List.mem_cons_self ..)

/-- A word is split in one way at the last of a letter's places. -/
theorem append_cons_inj_of_last {a : α} {x y : List α} (hv : a ∉ v) (hy : a ∉ y)
    (h : u ++ a :: v = x ++ a :: y) : u = x ∧ v = y := by
  rcases List.append_eq_append_iff.1 h with ⟨mid, hx, hmid⟩ | ⟨mid, hu, hmid⟩
  · obtain rfl := eq_nil_of_cons_eq_append hv hmid
    exact ⟨by rw [hx, List.append_nil], (List.cons.inj hmid).2⟩
  · obtain rfl := eq_nil_of_cons_eq_append hy hmid
    exact ⟨by rw [hu, List.append_nil], (List.cons.inj hmid).2.symm⟩
