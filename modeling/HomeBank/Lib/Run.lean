import Mathlib.Data.List.Induction

/-! Runs of an executable transition system. A step either has a next state or
is not allowed; a run is a list of events, each allowed in the state before it. -/

namespace Transition

variable {S E : Type*} {step : S → E → Option S} {s₀ s s' : S} {es fs : List E} {e : E}

def run (step : S → E → Option S) : S → List E → Option S
  | s, [] => some s
  | s, e :: es => (step s e).bind fun s' => run step s' es

@[simp] theorem run_nil : run step s [] = some s := rfl

theorem run_append : run step s (es ++ fs) = (run step s es).bind fun s' => run step s' fs := by
  induction es generalizing s with
  | nil => rfl
  | cons e es ih =>
    cases h : step s e with
    | none => simp [run, h]
    | some s' => simp [run, h, ih]

theorem run_snoc : run step s (es ++ [e]) = (run step s es).bind (step · e) := by
  rw [run_append]
  congr 1
  funext s'
  cases h : step s' e <;> simp [run, h]

theorem run_snoc_iff :
    run step s₀ (es ++ [e]) = some s' ↔ ∃ s, run step s₀ es = some s ∧ step s e = some s' := by
  rw [run_snoc, Option.bind_eq_some_iff]

/-- Induction over a run from its first event on, for facts about the whole history. -/
theorem run_induction {P : List E → S → Prop} (init : P [] s₀)
    (next : ∀ es s e s', run step s₀ es = some s → P es s → step s e = some s' → P (es ++ [e]) s')
    (h : run step s₀ es = some s) : P es s := by
  induction es using List.reverseRecOn generalizing s with
  | nil => cases h; exact init
  | append_singleton es e ih =>
    obtain ⟨s₁, h₁, hs⟩ := run_snoc_iff.1 h
    exact next es s₁ e s h₁ (ih h₁) hs

/-- Every step of the run is taken in a state where `ok` holds of it. -/
def Guarded (step : S → E → Option S) (ok : S → E → Prop) (s₀ : S) (es : List E) : Prop :=
  ∀ pre e post s, es = pre ++ e :: post → run step s₀ pre = some s → ok s e

theorem Guarded.of_append {ok : S → E → Prop} (h : Guarded step ok s₀ (es ++ fs)) :
    Guarded step ok s₀ es := by
  intro pre e post s he hrun
  exact h pre e (post ++ fs) s (by simp [he]) hrun

theorem Guarded.last {ok : S → E → Prop} (h : Guarded step ok s₀ (es ++ [e]))
    (hrun : run step s₀ es = some s) : ok s e :=
  h es e [] s rfl hrun

/-- Induction over a run whose steps all meet a condition on the state before them. -/
theorem guarded_induction {ok : S → E → Prop} {P : List E → S → Prop} (init : P [] s₀)
    (next : ∀ es s e s', run step s₀ es = some s → P es s → ok s e → step s e = some s' →
      P (es ++ [e]) s')
    (h : run step s₀ es = some s) (hg : Guarded step ok s₀ es) : P es s := by
  refine run_induction (P := fun es s => Guarded step ok s₀ es → P es s) (fun _ => init) ?_ h hg
  intro es s e s' hrun ih hs hg
  exact next es s e s' hrun (ih hg.of_append) (hg.last hrun) hs

/-- The condition is checked event by event, along the run. -/
def Checked (step : S → E → Option S) (ok : S → E → Prop) : S → List E → Prop
  | _, [] => True
  | s, e :: es => ok s e ∧ ∀ s' ∈ step s e, Checked step ok s' es

instance Checked.decidable {ok : S → E → Prop} [∀ s e, Decidable (ok s e)] :
    ∀ s es, Decidable (Checked step ok s es)
  | _, [] => inferInstanceAs (Decidable True)
  | s, e :: es =>
    have : ∀ s', Decidable (Checked step ok s' es) := fun s' => Checked.decidable s' es
    inferInstanceAs (Decidable (ok s e ∧ ∀ s' ∈ step s e, Checked step ok s' es))

theorem Checked.guarded {ok : S → E → Prop} (h : Checked step ok s₀ es) : Guarded step ok s₀ es := by
  induction es generalizing s₀ with
  | nil =>
    intro pre e post s hes
    simp at hes
  | cons e es ih =>
    intro pre f post s hes hrun
    cases pre with
    | nil =>
      cases hes
      cases hrun
      exact h.1
    | cons e' pre =>
      obtain ⟨rfl, rfl⟩ := List.cons.inj hes
      obtain ⟨s', hs', hrun'⟩ := Option.bind_eq_some_iff.1 hrun
      exact ih (h.2 s' hs') pre f post s rfl hrun'

/-- What is seen along a run, in the state before each of its events. -/
def observed {β : Type*} (step : S → E → Option S) (look : S → E → Option β) : S → List E → List β
  | _, [] => []
  | s, e :: es => (look s e).toList ++ (step s e).elim [] fun s' => observed step look s' es

theorem observed_snoc {β : Type*} (look : S → E → Option β) (h : run step s₀ es = some s) (e : E) :
    observed step look s₀ (es ++ [e]) = observed step look s₀ es ++ (look s e).toList := by
  induction es generalizing s₀ with
  | nil =>
    cases h
    cases hstep : step s e <;> simp [observed, hstep]
  | cons e' es ih =>
    obtain ⟨s', hs', hrest⟩ := Option.bind_eq_some_iff.1 h
    simp [observed, hs', ih hrest]

/-- How a run on fixed events is evaluated. -/
theorem exists_run_of_any {p : S → Prop} [DecidablePred p]
    (h : (run step s₀ es).any (fun s => decide (p s)) = true) :
    ∃ s, run step s₀ es = some s ∧ p s := by
  obtain ⟨s, hs, hp⟩ := (Option.any_eq_true _ _).1 h
  exact ⟨s, hs, of_decide_eq_true hp⟩

/-- A log read off the events grows with them. -/
theorem filterMap_snoc {β : Type*} (f : E → Option β) (es : List E) (e : E) :
    (es ++ [e]).filterMap f = es.filterMap f ++ (f e).toList := by
  rw [List.filterMap_append]
  cases h : f e <;> simp [h]

end Transition
