import HomeBank.Proofs.EmailValidator
import HomeBank.Spec.CustomInput

/-! The two controllers of a field are synchronised in one direction. What the page writes to
its own controller is never shown, so a field that is filled in by the page is out of sync, and
the read-only email field of both member pages stays empty. -/

namespace HomeBank

open Transition

namespace CustomInput

variable {s s' s₀ : CustomInput} {e : Event}

/-- What an event does to a field: typing and choosing write both texts, a rebuild writes none
and an assignment only the caller's. -/
theorem step_cases (h : s.step e = some s') :
    s'.InSync ∨ s' = s ∨ ∃ text, e = .assign text ∧ s' = s.assign text := by
  cases e with
  | type value =>
    obtain ⟨_, hs⟩ := Option.ite_none_left_eq_some.1 h
    cases hs
    exact .inl rfl
  | choose selection =>
    obtain ⟨_, hs⟩ := Option.ite_none_right_eq_some.1 h
    cases hs
    exact .inl rfl
  | rebuild =>
    cases h
    exact .inr (.inl rfl)
  | assign text =>
    cases h
    exact .inr (.inr ⟨text, rfl, rfl⟩)

theorem inSync_step (hs : s.InSync) (hok : s.AssignsShown e) (h : s.step e = some s') :
    s'.InSync := by
  obtain hs' | rfl | ⟨text, rfl, rfl⟩ := step_cases h
  · exact hs'
  · exact hs
  · exact (hok text rfl).symm

/-- A field is in sync in every state of a run just where it starts empty and the page assigns
no text but the one shown. -/
theorem inSyncThroughout_iff (hnew : s₀.editingController = "") (events : List Event) :
    s₀.InSyncThroughout events ↔
      s₀.textEditingController = "" ∧ Guarded step AssignsShown s₀ events := by
  refine ⟨?_, ?_⟩
  · intro h
    refine ⟨(h [] s₀ (List.nil_prefix ..) rfl).symm.trans hnew, ?_⟩
    intro pre e post s hes hrun text he
    have hpre : pre ++ [e] <+: events := ⟨post, by rw [hes, List.append_assoc]; rfl⟩
    have hnext : run step s₀ (pre ++ [e]) = some (s.assign text) := by
      rw [run_snoc_iff]
      exact ⟨s, hrun, by rw [he]; rfl⟩
    exact (h _ _ hpre hnext).symm
  · intro ⟨hempty, hguard⟩ pre s ⟨post, hpre⟩ hrun
    subst hpre
    refine guarded_induction (P := fun _ s => s.InSync) ?_ ?_ hrun hguard.of_append
    · exact hnew.trans hempty.symm
    · intro _ s e s' _ hs hok hstep
      exact inSync_step hs hok hstep

end CustomInput

namespace MemberModifyPage

variable {page : Page} {s s' : State} {events : List Event}

/-- The email field shows nothing, and nothing can be typed or chosen in it. -/
structure EmailHidden (s : State) : Prop where
  readOnly : (s.input .email).readOnly = true
  suggestons : (s.input .email).suggestons = []
  shown : (s.input .email).editingController = ""

/-- What is asked of a page: its form is opened so and stays so when it is built again. -/
structure HidesEmail (page : Page) : Prop where
  opened : EmailHidden page.opened
  build : ∀ currentUser s, EmailHidden s → EmailHidden (page.build currentUser s)

theorem parentPage_hidesEmail (user : UserModel) (currentUser : Option UserModel) :
    HidesEmail (parentPage user currentUser) where
  opened := ⟨rfl, rfl, rfl⟩
  build := fun _ _ hs => ⟨hs.readOnly, hs.suggestons, hs.shown⟩

theorem childPage_hidesEmail (currentUser : Option UserModel) :
    HidesEmail (childPage currentUser) where
  opened := ⟨rfl, rfl, rfl⟩
  build := fun _ _ hs => ⟨hs.readOnly, hs.suggestons, hs.shown⟩

/-- What an edit does: one field takes a step that is no assignment. -/
theorem edit_cases {field : Field} {e : CustomInput.Event}
    (h : page.step s (.edit field e) = some s') :
    ∃ input, (s.input field).step e = some input ∧ (∀ text, e ≠ .assign text) ∧
      s' = s.setInput field input := by
  have hassign : ∀ text, e ≠ .assign text := by
    intro text he
    rw [he] at h
    cases h
  rw [Page.step.eq_2 page s field e hassign, Option.map_eq_some_iff] at h
  obtain ⟨input, hinput, hs'⟩ := h
  exact ⟨input, hinput, hassign, hs'.symm⟩

/-- A read-only field without suggestions is not edited. -/
theorem step_of_readOnly {input input' : CustomInput} {e : CustomInput.Event}
    (hread : input.readOnly = true) (hnone : input.suggestons = [])
    (hassign : ∀ text, e ≠ .assign text) (h : input.step e = some input') : input' = input := by
  cases e with
  | type value =>
    rw [CustomInput.step, if_pos hread] at h
    cases h
  | choose selection =>
    rw [CustomInput.step, hnone, if_neg List.not_mem_nil] at h
    cases h
  | rebuild =>
    cases h
    rfl
  | assign text => exact absurd rfl (hassign text)

theorem emailHidden_step (hpage : HidesEmail page) (hs : EmailHidden s) {e : Event}
    (h : page.step s e = some s') : EmailHidden s' := by
  cases e with
  | rebuild currentUser =>
    cases h
    exact hpage.build currentUser s hs
  | edit field e =>
    obtain ⟨input, hinput, hassign, rfl⟩ := edit_cases h
    have hemail : (s.setInput field input).input .email = s.input .email := by
      by_cases hfield : field = .email
      · subst hfield
        rw [step_of_readOnly hs.readOnly hs.suggestons hassign hinput]
        exact Function.update_self Field.email _ s.input
      · exact Function.update_of_ne (Ne.symm hfield) _ s.input
    exact ⟨by rw [hemail, hs.readOnly], by rw [hemail, hs.suggestons], by rw [hemail, hs.shown]⟩

theorem emailHidden_run (hpage : HidesEmail page) (h : run page.step page.opened events = some s) :
    EmailHidden s :=
  run_induction (P := fun _ s => EmailHidden s) hpage.opened
    (fun _ _ _ _ _ hs hstep => emailHidden_step hpage hs hstep) h

theorem validate_eq_false (hs : EmailHidden s) : validate s = false := by
  have hemail : validator s .email (some (s.input .email).editingController) =
      some "email_required" := by
    rw [hs.shown]
    rfl
  unfold validate
  simp [hemail]

/-- Neither page ever submits, whatever is typed and however often it is built. -/
theorem onTap_eq_invalid (hpage : HidesEmail page)
    (h : run page.step page.opened events = some s) : page.onTap s = .invalid := by
  unfold Page.onTap
  rw [validate_eq_false (emailHidden_run hpage h)]
  rfl

theorem prefilledSubmits_iff (hpage : HidesEmail page) (user : UserModel)
    (rebuilds : List (Option UserModel)) :
    PrefilledSubmits page user rebuilds ↔ ¬ Acceptable user := by
  refine ⟨?_, fun h haccept => absurd haccept h⟩
  intro h haccept
  obtain ⟨s, args, hrun, htap, _⟩ := h haccept
  rw [onTap_eq_invalid hpage hrun] at htap
  cases htap

/-- A field agrees with its caller in every state of a run just where the caller's text is
empty at first and every assignment writes the text that is shown then; a form that a page fills
in with an acceptable name and email never passes validation. -/
theorem shown_is_submitted_iff (readOnly : Bool) (suggestons : List String) (text : String)
    (events : List CustomInput.Event) (user : UserModel) (currentUser : Option UserModel)
    (rebuilds : List (Option UserModel)) (n : ℕ) :
    (CustomInput.InSyncThroughout ⟨readOnly, suggestons, text, ""⟩ events ↔
      text = "" ∧ Guarded CustomInput.step CustomInput.AssignsShown
        ⟨readOnly, suggestons, text, ""⟩ events) ∧
    (PrefilledSubmits (parentPage user currentUser) user rebuilds ↔ ¬ Acceptable user) ∧
    (PrefilledSubmits (childPage (some user)) user (List.replicate n (some user)) ↔
      ¬ Acceptable user) :=
  ⟨CustomInput.inSyncThroughout_iff rfl events,
    prefilledSubmits_iff (parentPage_hidesEmail user currentUser) user rebuilds,
    prefilledSubmits_iff (childPage_hidesEmail (some user)) user _⟩

def sampleMember : UserModel := { email := "ming@example.com", name := "王小明" }

/-- The parent opens the page of a member: the name and the email are not shown, and the form
is refused. -/
theorem prefilled_form_refused :
    ¬ CustomInput.InSyncThroughout ((parentPage sampleMember none).opened.input .userName) [] ∧
      Acceptable sampleMember ∧
      ¬ PrefilledSubmits (parentPage sampleMember none) sampleMember [] := by
  have haccept : Acceptable sampleMember := ⟨by decide +kernel, by decide +kernel⟩
  refine ⟨?_, haccept, ?_⟩
  · intro h
    have hshown : "" = "王小明" := h [] _ (List.nil_prefix ..) rfl
    exact absurd hshown (by decide)
  · intro h
    obtain ⟨s, args, hrun, htap, _⟩ := h haccept
    cases hrun
    cases htap

end MemberModifyPage

end HomeBank
