import HomeBank.Spec.Session

/-! Two sessions compared. No handler resets the user: it is the guest from the first guest
entry on, through every sign-out. -/

namespace HomeBank.Session

open Transition

/-- The user of a session depends on nothing but whether there has been a guest entry. -/
theorem user_of_run {es : List Event} {s : State} (h : run step State.init es = some s) :
    s.auth.user = if .guestEntry ∈ es then guest else {} := by
  refine run_induction (P := fun es s => s.auth.user = if .guestEntry ∈ es then guest else {}) rfl ?_ h
  intro es s e s' _ hs hstep
  cases e with
  | guestEntry =>
    cases hstep
    simp
  | login email password =>
    cases hstep
    simpa [AuthProvider.listen_eq, AuthProvider.loginUser] using hs
  | registration userName email password =>
    cases hstep
    simpa [AuthProvider.listen_eq, AuthProvider.signUpWithEmail] using hs
  | parentSignOut =>
    obtain ⟨-, hs'⟩ := Option.ite_none_right_eq_some.1 hstep
    cases hs'
    simpa using hs
  | childSignOut returns =>
    obtain ⟨-, hs'⟩ := Option.ite_none_right_eq_some.1 hstep
    cases returns <;> cases hs' <;> simpa using hs

theorem guest_ne_default : guest ≠ {} := by decide

/-- An entry always leads to the home page, of the guest or of whoever was there. -/
theorem step_entry {s : State} {e : Event} (he : e.isEntry = true) :
    step s e = some ⟨⟨if e = .guestEntry then guest else s.auth.user⟩, .home⟩ := by
  cases e with
  | guestEntry => rfl
  | login email password => simp [step, AuthProvider.listen_eq, AuthProvider.loginUser]
  | registration userName email password =>
    simp [step, AuthProvider.listen_eq, AuthProvider.signUpWithEmail]
  | parentSignOut | childSignOut returns => cases he

/-- Every later state shows the same user and the same home page in both sessions. The states
right after the sign-outs, in which no entry has been made yet, are not among them. -/
def SameLater (s₁ s₂ : State) (cont : List Event) : Prop :=
  ∀ p q, cont = p ++ q → p ≠ [] → ∀ t₁ t₂, run step s₁ p = some t₁ → run step s₂ p = some t₂ →
    t₁.auth.user = t₂.auth.user ∧ t₁.shown = t₂.shown

theorem sameLater_nil (s₁ s₂ : State) : SameLater s₁ s₂ [] := by
  intro p q hcont hp
  exact absurd (List.append_eq_nil_iff.1 hcont.symm).1 hp

/-- After one common entry both sessions are in the same state, if they have the same user,
and differ at once otherwise. -/
theorem sameLater_cons {s₁ s₂ : State} {e : Event} {cont : List Event} (he : e.isEntry = true) :
    SameLater s₁ s₂ (e :: cont) ↔ e = .guestEntry ∨ s₁.auth.user = s₂.auth.user := by
  have h₁ := step_entry (s := s₁) he
  have h₂ := step_entry (s := s₂) he
  refine ⟨?_, ?_⟩
  · intro hsame
    have hone := hsame [e] cont rfl (by simp) _ _
      (by rw [run, h₁]; rfl) (by rw [run, h₂]; rfl)
    by_cases hguest : e = .guestEntry
    · exact .inl hguest
    · exact .inr (by simpa [hguest] using hone.1)
  · intro heq
    have hstep : step s₁ e = step s₂ e := by
      rw [h₁, h₂]
      rcases heq with rfl | heq
      · rfl
      · rw [heq]
    rintro (_ | ⟨e', p⟩) q hcont hp t₁ t₂ ht₁ ht₂
    · exact absurd rfl hp
    · obtain ⟨rfl, -⟩ := List.cons.inj hcont
      rw [run, hstep] at ht₁
      rw [run] at ht₂
      obtain rfl : t₁ = t₂ := Option.some.inj (ht₁.symm.trans ht₂)
      exact ⟨rfl, rfl⟩

/-- A sign-out is no guest entry. -/
theorem guestEntry_mem_signOut {es : List Event} {e : Event} (he : e.isSignOut = true) :
    .guestEntry ∈ es ++ [e] ↔ .guestEntry ∈ es := by
  cases e with
  | parentSignOut | childSignOut returns => simp
  | guestEntry => cases he
  | login email password => cases he
  | registration userName email password => cases he

/-- Right after a sign-out the user is still there, and no home page is shown, unless it was a
child's and has thrown. -/
theorem signedOut {es : List Event} {e : Event} {s : State}
    (h : run step State.init (es ++ [e]) = some s) (he : e.isSignOut = true) :
    s.auth.user = (if .guestEntry ∈ es then guest else {}) ∧
      s.shown = if e = .childSignOut false then some .child else none := by
  refine ⟨?_, ?_⟩
  · rw [user_of_run h]
    simp only [guestEntry_mem_signOut he]
  · rw [run_snoc] at h
    obtain ⟨s₀, -, hlast⟩ := Option.bind_eq_some_iff.1 h
    cases e with
    | parentSignOut =>
      obtain ⟨-, hs⟩ := Option.ite_none_right_eq_some.1 hlast
      cases hs
      simp [State.shown]
    | childSignOut returns =>
      obtain ⟨⟨hpage, hchild⟩, hs⟩ := Option.ite_none_right_eq_some.1 hlast
      cases returns <;> cases hs <;> simp [State.shown, hpage, hchild]
    | guestEntry => cases he
    | login email password => cases he
    | registration userName email password => cases he

/-- Two sessions that end in a confirmed sign-out look the same from the next entry on
exactly when that entry is a guest entry, or either both had a guest entry before their
sign-out or neither had. -/
theorem no_leak_iff (es₁ es₂ cont : List Event) (e₁ e₂ : Event) (s₁ s₂ : State)
    (h₁ : run step State.init (es₁ ++ [e₁]) = some s₁) (he₁ : e₁.isSignOut = true)
    (h₂ : run step State.init (es₂ ++ [e₂]) = some s₂) (he₂ : e₂.isSignOut = true)
    (hcont : ∀ e ∈ cont, e.isEntry = true) :
    SameLater s₁ s₂ cont ↔
      cont = [] ∨ cont.head? = some .guestEntry ∨ (.guestEntry ∈ es₁ ↔ .guestEntry ∈ es₂) := by
  have hsame : s₁.auth.user = s₂.auth.user ↔ (.guestEntry ∈ es₁ ↔ .guestEntry ∈ es₂) := by
    rw [(signedOut h₁ he₁).1, (signedOut h₂ he₂).1]
    by_cases hg₁ : .guestEntry ∈ es₁ <;> by_cases hg₂ : .guestEntry ∈ es₂ <;>
      simp [hg₁, hg₂, guest_ne_default, guest_ne_default.symm]
  cases cont with
  | nil => simp [sameLater_nil]
  | cons e cont =>
    rw [sameLater_cons (hcont e List.mem_cons_self), hsame]
    simp

/-- A login before the sign-out of a parent, the session of a guest before that of a child. -/
def parentSession : List Event := [.login "parent@example.com" "secret", .parentSignOut]

def guestSession (returns : Bool) : List Event := [.guestEntry, .childSignOut returns]

def nextLogin : Event := .login "next@example.com" "secret"

/-- After a guest has signed out, the next login shows the guest's user and the child page,
whether or not `FirebaseAuth` returns; after a parent has, it shows the empty user and the
parent page. -/
theorem guest_leaks_into_login :
    ∃ s₁ s₂ s₃ t₁ t₂ t₃, run step State.init parentSession = some s₁ ∧
      run step State.init (guestSession true) = some s₂ ∧
      run step State.init (guestSession false) = some s₃ ∧
      run step s₁ [nextLogin] = some t₁ ∧ run step s₂ [nextLogin] = some t₂ ∧
      run step s₃ [nextLogin] = some t₃ ∧
      t₁.auth.user ≠ t₂.auth.user ∧ t₁.auth.user ≠ t₃.auth.user ∧
      t₁.shown = some .parent ∧ t₂.shown = some .child ∧ t₃.shown = some .child :=
  ⟨_, _, _, _, _, _, rfl, rfl, rfl, rfl, rfl, rfl, by decide, by decide, by decide, by decide,
    by decide⟩

theorem no_leak_guestSession :
    ∃ s₁ s₂, run step State.init (guestSession true) = some s₁ ∧
      run step State.init (nextLogin :: guestSession false) = some s₂ ∧
      SameLater s₁ s₂ [nextLogin, nextLogin] := by
  refine ⟨_, _, rfl, rfl, ?_⟩
  refine (no_leak_iff [.guestEntry] [nextLogin, .guestEntry] _ (.childSignOut true)
    (.childSignOut false) _ _ rfl rfl rfl rfl (by decide)).2 (.inr (.inr ?_))
  decide

end HomeBank.Session
