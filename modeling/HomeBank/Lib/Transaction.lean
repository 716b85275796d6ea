import Mathlib.Logic.Function.Basic

/-! One call of `runTransaction` while nobody else writes, with every way in which
the server can let it fail. The handler may itself act on the rest of the world,
for instance run another transaction, and what it did there stays when its own
attempt is refused. -/

namespace Transaction

/-- What becomes of one attempt: its read fails, or its commit is refused or accepted. -/
inductive Fate where
  | readFails
  | refused
  | accepted
  deriving DecidableEq, Repr

/-- A document inside a world of documents. -/
structure DocRef (W D : Type*) where
  get : W → Option D
  put : D → W → W
  get_put : ∀ d w, get (put d w) = some d

/-- The errors that the server raises: a read failed, the commit was refused and no
retry is left, the updated document does not exist. -/
structure Errors (ε : Type*) where
  unavailable : ε
  aborted : ε
  invalidArgument : ε

variable {W D U τ ε : Type*} (err : Errors ε) (ref : DocRef W D) (apply : U → D → D)

/-- The document that a commit stores for what the handler has buffered, `none` when it
has buffered nothing. -/
def commit (doc : Option D) : Option U → Except ε (Option D)
  | none => .ok none
  | some u =>
    match doc with
    | none => .error err.invalidArgument
    | some d => .ok (some (apply u d))

/-- The attempts of a call with the fate of each; `body` gets its own part `t` of the
script, the snapshot and the world. The list ends where no retry is left. -/
def runTransaction (body : τ → Option D → W → Except ε (Option U) × W) :
    List (Fate × τ) → W → Except ε Unit × W
  | [], w => (.error err.aborted, w)
  | (fate, t) :: rest, w =>
    if fate = .readFails then (.error err.unavailable, w)
    else
      match body t (ref.get w) w with
      | (.error e, w') => (.error e, w')
      | (.ok u, w') =>
        -- nobody else writes, so the snapshot is still the stored document
        match commit err apply (ref.get w) u with
        | .error e => (.error e, w')
        | .ok d =>
          if fate = .refused then runTransaction body rest w'
          else (.ok (), d.elim w' (ref.put · w'))

/-- The part of the script for the attempt that is accepted. -/
def accepted : List (Fate × τ) → Option τ
  | [] | (.readFails, _) :: _ => none
  | (.refused, _) :: rest => accepted rest
  | (.accepted, t) :: _ => some t

/-- What the handler and the write to the document keep, the whole call keeps. -/
theorem runTransaction_invariant {P : W → Prop}
    {body : τ → Option D → W → Except ε (Option U) × W} (hbody : ∀ t doc w, P w → P (body t doc w).2)
    (hput : ∀ d w, P w → P (ref.put d w)) (fates : List (Fate × τ)) {w : W} (h : P w) :
    P (runTransaction err ref apply body fates w).2 := by
  induction fates generalizing w with
  | nil => exact h
  | cons a rest ih =>
    obtain ⟨fate, t⟩ := a
    have hw := hbody t (ref.get w) w h
    rw [runTransaction]
    split
    · exact h
    · split
      · next heq => rwa [heq] at hw
      · next heq =>
        rw [heq] at hw
        split
        · exact hw
        · next d _ =>
          split
          · exact ih hw
          · cases d with
            | none => exact hw
            | some d => exact hput d _ hw

/-- A call on a world with another representation does the same, if the handler does, and reading
and writing the document do. -/
theorem runTransaction_map {W' D' U' : Type*} {ref' : DocRef W' D'} {apply' : U' → D' → D'}
    {φ : W → W'} {δ : D → D'} {υ : U → U'}
    {body : τ → Option D → W → Except ε (Option U) × W}
    {body' : τ → Option D' → W' → Except ε (Option U') × W'}
    (hget : ∀ w, ref'.get (φ w) = (ref.get w).map δ)
    (hput : ∀ d w, φ (ref.put d w) = ref'.put (δ d) (φ w))
    (happly : ∀ u d, δ (apply u d) = apply' (υ u) (δ d))
    (hbody : ∀ t doc w, body' t (doc.map δ) (φ w) =
      (body t doc w).map (Except.map (Option.map υ)) φ)
    (fates : List (Fate × τ)) (w : W) : runTransaction err ref' apply' body' fates (φ w) =
      (runTransaction err ref apply body fates w).map id φ := by
  have hcommit : ∀ (doc : Option D) (u : Option U), commit err apply' (doc.map δ) (u.map υ) =
      (commit err apply doc u).map (Option.map δ) := by
    rintro (_ | d) (_ | u)
    · rfl
    · rfl
    · rfl
    · exact congrArg (fun d' => Except.ok (some d')) (happly u d).symm
  induction fates generalizing w with
  | nil => rfl
  | cons a rest ih =>
    obtain ⟨fate, t⟩ := a
    simp only [runTransaction, hget, hbody]
    split
    · rfl
    · obtain ⟨u | u, w'⟩ := body t (ref.get w) w
      · rfl
      · simp only [Prod.map_apply, Except.map, hcommit]
        cases commit err apply (ref.get w) u with
        | error e => rfl
        | ok d =>
          simp only
          split
          · exact ih w'
          · cases d with
            | none => rfl
            | some d => exact congrArg (Prod.mk _) (hput d w').symm

section Pure

variable (body : τ → Option D → Except ε (Option U))

/-- A handler that only reads its snapshot. -/
def pureBody (t : τ) (doc : Option D) (w : W) : Except ε (Option U) × W := (body t doc, w)

/-- What one attempt would store. -/
def attempt (doc : Option D) (t : τ) : Except ε (Option D) :=
  (body t doc).bind (commit err apply doc)

/-- What a whole call stores. -/
def result (doc : Option D) : List (Fate × τ) → Except ε (Option D)
  | [] => .error err.aborted
  | (fate, t) :: rest =>
    if fate = .readFails then .error err.unavailable
    else
      match attempt err apply body doc t with
      | .error e => .error e
      | .ok d => if fate = .refused then result doc rest else .ok d

/-- What a call stores is what its accepted attempt would store. -/
theorem result_ok {doc d : Option D} {fates : List (Fate × τ)}
    (h : result err apply body doc fates = .ok d) :
    ∃ t, accepted fates = some t ∧ attempt err apply body doc t = .ok d := by
  induction fates with
  | nil => cases h
  | cons a rest ih =>
    obtain ⟨fate, t⟩ := a
    cases fate with
    | readFails => simp [result] at h
    | refused =>
      simp only [result, reduceCtorEq, if_false, if_true] at h
      split at h
      · cases h
      · exact ih h
    | accepted =>
      simp only [result, reduceCtorEq, if_false] at h
      split at h
      · cases h
      · next d' hd' => exact ⟨t, rfl, hd'.trans h⟩

/-- Refusals delay a call, they do not change what it stores. -/
theorem result_of_attempt {doc d : Option D} {t : τ} (h : attempt err apply body doc t = .ok d)
    (n : Nat) : result err apply body doc (List.replicate n (.refused, t) ++ [(.accepted, t)]) =
      .ok d := by
  induction n with
  | zero => simp [result, h]
  | succ n ih => simp [List.replicate_succ, result, h, ih]

/-- A transaction whose handler has no effects of its own is all or nothing. -/
theorem runTransaction_pureBody (fates : List (Fate × τ)) (w : W) :
    runTransaction err ref apply (pureBody body) fates w =
      match result err apply body (ref.get w) fates with
      | .error e => (.error e, w)
      | .ok d => (.ok (), d.elim w (ref.put · w)) := by
  induction fates with
  | nil => rfl
  | cons a rest ih =>
    obtain ⟨fate, t⟩ := a
    simp only [runTransaction, result, pureBody, attempt]
    split
    · rfl
    · cases body t (ref.get w) with
      | error e => rfl
      | ok u =>
        simp only [Except.bind]
        cases commit err apply (ref.get w) u with
        | error e => rfl
        | ok d =>
          simp only
          split
          · exact ih
          · rfl

/-- The handler returns, and what it has buffered can be stored. -/
def Storable (doc : Option D) (t : τ) : Bool :=
  match body t doc with
  | .error _ => false
  | .ok none => true
  | .ok (some _) => doc.isSome

/-- The script lets a call return: an attempt is accepted before any read fails, and the
handlers up to it throw nothing and update no missing document. -/
def Returns (doc : Option D) : List (Fate × τ) → Bool
  | [] => false
  | (.readFails, _) :: _ => false
  | (.refused, t) :: rest => Storable body doc t && Returns doc rest
  | (.accepted, t) :: _ => Storable body doc t

theorem storable_iff (doc : Option D) (t : τ) :
    Storable body doc t = true ↔ ∃ d, attempt err apply body doc t = .ok d := by
  unfold Storable attempt
  cases body t doc with
  | error e => simp [Except.bind]
  | ok u =>
    cases u with
    | none => simp [Except.bind, commit]
    | some u => cases doc <;> simp [Except.bind, commit]

theorem returns_iff (doc : Option D) (fates : List (Fate × τ)) :
    Returns body doc fates = true ↔ ∃ d, result err apply body doc fates = .ok d := by
  induction fates with
  | nil => simp [Returns, result]
  | cons a rest ih =>
    obtain ⟨fate, t⟩ := a
    have hs := storable_iff err apply body doc t
    cases fate with
    | readFails => simp [Returns, result]
    | refused =>
      simp only [Returns, result, Bool.and_eq_true, hs, ih]
      cases attempt err apply body doc t <;> simp
    | accepted =>
      simp only [Returns, result, hs]
      cases attempt err apply body doc t <;> simp

/-- On documents on which the attempts fare alike a call fares alike. -/
theorem returns_congr {doc doc' : Option D} (h : ∀ t, Storable body doc t = Storable body doc' t)
    (fates : List (Fate × τ)) : Returns body doc fates = Returns body doc' fates := by
  induction fates with
  | nil => rfl
  | cons a rest ih =>
    obtain ⟨fate, t⟩ := a
    cases fate <;> simp [Returns, h, ih]

end Pure

end Transaction
