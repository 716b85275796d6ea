import Mathlib.Computability.Language
import HomeBank.Lib.Joined

/-! Regular expressions over classes of letters. What an expression means is a language; the
matcher takes derivatives, and `accepts_iff` says that it decides membership. -/

open scoped Computability

inductive Regex (α : Type*)
  | fail
  | nil
  | one (p : α → Bool)
  | alt (r s : Regex α)
  | seq (r s : Regex α)
  | star (r : Regex α)

namespace Regex

variable {α : Type*} {r s : Regex α} {p q : α → Bool} {w u : List α} {a b : α}

instance : Add (Regex α) := ⟨alt⟩
instance : Mul (Regex α) := ⟨seq⟩

def plus (r : Regex α) : Regex α := r * star r

def opt (r : Regex α) : Regex α := nil + r

/-- One or more of `r`, with `sep` between two that follow each other. -/
def sepBy (r sep : Regex α) : Regex α := r * star (sep * r)

/-- The words that an expression stands for. -/
def lang : Regex α → Language α
  | fail => 0
  | nil => 1
  | one p => {w | ∃ a, p a = true ∧ w = [a]}
  | alt r s => r.lang + s.lang
  | seq r s => r.lang * s.lang
  | star r => r.lang∗

theorem mem_one : w ∈ (one p).lang ↔ ∃ a, p a = true ∧ w = [a] := Iff.rfl

theorem mem_add : w ∈ (r + s).lang ↔ w ∈ r.lang ∨ w ∈ s.lang := Iff.rfl

theorem mem_mul : w ∈ (r * s).lang ↔ ∃ u ∈ r.lang, ∃ v ∈ s.lang, u ++ v = w := Iff.rfl

theorem mem_star :
    w ∈ (star r).lang ↔ ∃ ws : List (List α), w = ws.flatten ∧ ∀ v ∈ ws, v ∈ r.lang := Iff.rfl

/-! ### The matcher -/

/-- Whether the empty word is one of the expression's. -/
def nullable : Regex α → Bool
  | fail => false
  | nil => true
  | one _ => false
  | alt r s => r.nullable || s.nullable
  | seq r s => r.nullable && s.nullable
  | star _ => true

/-- What is left to be matched after the letter `a`. -/
def deriv (a : α) : Regex α → Regex α
  | fail => fail
  | nil => fail
  | one p => if p a then nil else fail
  | alt r s => r.deriv a + s.deriv a
  | seq r s => if r.nullable then r.deriv a * s + s.deriv a else r.deriv a * s
  | star r => r.deriv a * star r

def accepts (r : Regex α) : List α → Bool
  | [] => r.nullable
  | a :: w => (r.deriv a).accepts w

theorem nullable_iff : r.nullable = true ↔ [] ∈ r.lang := by
  induction r with
  | fail => simp [nullable, lang]
  | nil => simp [nullable, lang]
  | one p => simp [nullable, mem_one]
  | alt r s ihr ihs =>
    rw [nullable, Bool.or_eq_true, ihr, ihs]
    exact mem_add.symm
  | seq r s ihr ihs => simp [nullable, lang, ihr, ihs, Language.mem_mul]
  | star r => exact iff_of_true rfl (Language.nil_mem_kstar r.lang)

/-- A word of a product that is not empty takes its first letter from the left factor, unless
that one is empty. -/
theorem cons_mem_mul {l m : Language α} :
    a :: w ∈ l * m ↔ (∃ u, a :: u ∈ l ∧ ∃ v ∈ m, u ++ v = w) ∨ [] ∈ l ∧ a :: w ∈ m := by
  rw [Language.mem_mul]
  refine ⟨?_, ?_⟩
  · intro ⟨u, hu, v, hv, huv⟩
    cases u with
    | nil => exact .inr ⟨hu, by rwa [← huv]⟩
    | cons b u =>
      obtain ⟨rfl, rfl⟩ := List.cons.inj huv
      exact .inl ⟨u, hu, v, hv, rfl⟩
  · intro h
    obtain ⟨u, hu, v, hv, rfl⟩ | ⟨hnil, hw⟩ := h
    · exact ⟨a :: u, hu, v, hv, rfl⟩
    · exact ⟨[], hnil, a :: w, hw, rfl⟩

theorem cons_mem_kstar {l : Language α} :
    a :: w ∈ l∗ ↔ ∃ u, a :: u ∈ l ∧ ∃ v ∈ l∗, u ++ v = w := by
  refine ⟨?_, ?_⟩
  · intro h
    obtain ⟨ws, hflat, hws⟩ := Language.mem_kstar_iff_exists_nonempty.1 h
    -- the pieces are not empty, so the first of them holds the letter
    match ws, hws with
    | [], _ => cases hflat
    | [] :: _, hws => exact absurd rfl (hws [] (List.mem_cons_self ..)).2
    | (b :: u) :: rest, hws =>
      obtain ⟨rfl, rfl⟩ := List.cons.inj hflat
      refine ⟨u, (hws _ (List.mem_cons_self ..)).1, rest.flatten, ?_, rfl⟩
      exact Language.join_mem_kstar fun v hv => (hws v (List.mem_cons_of_mem _ hv)).1
  · intro ⟨u, hu, v, ⟨ws, hv, hws⟩, huv⟩
    refine ⟨(a :: u) :: ws, by rw [List.flatten_cons, ← hv, List.cons_append, huv], ?_⟩
    exact List.forall_mem_cons.2 ⟨hu, hws⟩

theorem mem_deriv : w ∈ (r.deriv a).lang ↔ a :: w ∈ r.lang := by
  induction r generalizing w with
  | fail => exact Iff.rfl
  | nil => exact iff_of_false (Language.notMem_zero w) (List.cons_ne_nil a w)
  | one p =>
    unfold deriv
    split
    · next hp => exact ⟨fun h => ⟨a, hp, by rw [(h : w = [])]⟩, fun ⟨b, _, hw⟩ => (List.cons.inj hw).2⟩
    · next hp =>
      refine iff_of_false (Language.notMem_zero w) ?_
      intro ⟨b, hb, hw⟩
      rw [← (List.cons.inj hw).1] at hb
      exact hp hb
  | alt r s ihr ihs => exact or_congr ihr ihs
  | seq r s ihr ihs =>
    have hleft : w ∈ (r.deriv a * s).lang ↔ ∃ u, a :: u ∈ r.lang ∧ ∃ v ∈ s.lang, u ++ v = w :=
      exists_congr fun u => and_congr ihr Iff.rfl
    unfold deriv
    rw [lang, cons_mem_mul, ← nullable_iff]
    split
    · next hnull => rw [mem_add, hleft, ihs, hnull, eq_self_iff_true, true_and]
    · next hnull => simp only [hleft, hnull, false_and, or_false, Bool.false_eq_true]
  | star r ih =>
    rw [deriv, lang, cons_mem_kstar]
    exact exists_congr fun u => and_congr ih Iff.rfl

/-- The matcher decides the language. -/
theorem accepts_iff : r.accepts w = true ↔ w ∈ r.lang := by
  induction w generalizing r with
  | nil => exact nullable_iff
  | cons a w ih => rw [accepts, ih, mem_deriv]

/-! ### Words of the derived forms -/

theorem mem_star_one : w ∈ (star (one p)).lang ↔ ∀ a ∈ w, p a = true := by
  refine ⟨?_, ?_⟩
  · intro h a ha
    obtain ⟨ws, rfl, hws⟩ := mem_star.1 h
    obtain ⟨v, hv, hav⟩ := List.mem_flatten.1 ha
    obtain ⟨b, hb, rfl⟩ := hws v hv
    rwa [List.mem_singleton.1 hav]
  · intro hw
    refine mem_star.2 ⟨w.map fun a => [a], by rw [← List.flatMap_def, List.flatMap_singleton'], ?_⟩
    intro v hv
    obtain ⟨a, ha, rfl⟩ := List.mem_map.1 hv
    exact ⟨a, hw a ha, rfl⟩

theorem append_mem_plus (hu : u ∈ r.lang) (hw : w ∈ (star r).lang) : u ++ w ∈ (plus r).lang :=
  Language.append_mem_mul hu hw

theorem mem_plus_of_mem (hw : w ∈ r.lang) : w ∈ (plus r).lang := by
  rw [← List.append_nil w]
  exact append_mem_plus hw (Language.nil_mem_kstar _)

theorem star_cons (hu : u ∈ r.lang) (hw : w ∈ (star r).lang) : u ++ w ∈ (star r).lang := by
  obtain ⟨ws, rfl, hws⟩ := mem_star.1 hw
  exact mem_star.2 ⟨u :: ws, rfl, List.forall_mem_cons.2 ⟨hu, hws⟩⟩

theorem star_append (hu : u ∈ (star r).lang) (hw : w ∈ r.lang) : u ++ w ∈ (star r).lang := by
  obtain ⟨ws, rfl, hws⟩ := mem_star.1 hu
  refine mem_star.2 ⟨ws ++ [w], by simp, ?_⟩
  intro v hv
  rcases List.mem_append.1 hv with hv | hv
  · exact hws v hv
  · rwa [List.mem_singleton.1 hv]

theorem plus_append (hu : u ∈ (plus r).lang) (hw : w ∈ r.lang) : u ++ w ∈ (plus r).lang := by
  obtain ⟨v, hv, x, hx, rfl⟩ := hu
  rw [List.append_assoc]
  exact append_mem_plus hv (star_append hx hw)

/-- What holds of the empty word, and still holds with a word of `r` put in front, holds of
every word of `star r`. -/
theorem star_induction {P : List α → Prop} (hnil : P [])
    (hcons : ∀ u ∈ r.lang, ∀ v, P v → P (u ++ v)) : ∀ w ∈ (star r).lang, P w := by
  intro w ⟨ws, hw, hws⟩
  subst hw
  induction ws with
  | nil => exact hnil
  | cons u ws ih =>
    obtain ⟨hu, hws⟩ := List.forall_mem_cons.1 hws
    exact hcons u hu ws.flatten (ih hws)

theorem plus_induction {P : List α → Prop} (hone : ∀ u ∈ r.lang, P u)
    (hcons : ∀ u ∈ r.lang, ∀ v, P v → P (u ++ v)) : ∀ w ∈ (plus r).lang, P w := by
  intro w hw
  obtain ⟨u, hu, v, hv, rfl⟩ := mem_mul.1 hw
  suffices hrest : v = [] ∨ P v by
    rcases hrest with rfl | hP
    · rw [List.append_nil]
      exact hone u hu
    · exact hcons u hu v hP
  refine star_induction (P := fun v => v = [] ∨ P v) (.inl rfl) ?_ v hv
  intro x hx y hy
  rcases hy with rfl | hy
  · rw [List.append_nil]
    exact .inr (hone x hx)
  · exact .inr (hcons x hx y hy)

theorem mem_plus_one : w ∈ (plus (one p)).lang ↔ w ≠ [] ∧ ∀ a ∈ w, p a = true := by
  refine ⟨?_, ?_⟩
  · intro ⟨u, ⟨a, ha, hu⟩, v, hv, huv⟩
    rw [← (huv : u ++ v = w), hu]
    exact ⟨List.cons_ne_nil a v, List.forall_mem_cons.2 ⟨ha, mem_star_one.1 hv⟩⟩
  · intro ⟨hne, hw⟩
    obtain ⟨a, v, rfl⟩ := List.exists_cons_of_ne_nil hne
    obtain ⟨ha, hv⟩ := List.forall_mem_cons.1 hw
    exact append_mem_plus (u := [a]) ⟨a, ha, rfl⟩ (mem_star_one.2 hv)

section Letter

variable [DecidableEq α]

/-- The expression for one given letter. -/
def letter (a : α) : Regex α := one fun b => b = a

theorem mem_letter : w ∈ (letter a).lang ↔ w = [a] := by
  rw [letter, mem_one]
  simp

theorem mem_letter_mul : w ∈ (letter a * r).lang ↔ ∃ v ∈ r.lang, a :: v = w := by
  rw [mem_mul]
  simp [mem_letter]

/-- The words of `sepBy` are those joined from words of `r`. -/
theorem mem_sepBy : w ∈ (sepBy r (letter a)).lang ↔ JoinedBy a (· ∈ r.lang) w := by
  refine ⟨?_, ?_⟩
  · intro hw
    obtain ⟨u, hu, v, hv, rfl⟩ := mem_mul.1 hw
    refine star_induction (P := fun v => ∀ u ∈ r.lang, JoinedBy a (· ∈ r.lang) (u ++ v)) ?_ ?_ v hv u hu
    · intro u hu
      rw [List.append_nil]
      exact .single hu
    · intro x hx y ih u hu
      obtain ⟨part, hpart, rfl⟩ := mem_letter_mul.1 hx
      exact .cons hu (ih part hpart)
  · intro hw
    refine hw.induction (fun u hu => ?_) (fun u v hu hv => ?_)
    · rw [← List.append_nil u]
      exact Language.append_mem_mul hu (Language.nil_mem_kstar _)
    · obtain ⟨x, hx, y, hy, rfl⟩ := mem_mul.1 hv
      exact Language.append_mem_mul hu (star_cons (mem_letter_mul.2 ⟨x, hx, rfl⟩) hy)

end Letter

end Regex
