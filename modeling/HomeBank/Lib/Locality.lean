import HomeBank.Lib.Transaction

/-! Programs that read and write one part of a world only. Parts have names, and a view
gives what a name has in a world. Local programs compose, transactions on local handlers are
local, and a sequence of local programs leaves in each part what those about this part leave. -/

namespace Locality

variable {W V κ α β : Type*} (view : κ → W → V)

/-- The program reads and writes the part `k` only. -/
structure Local (k : κ) (f : W → α × W) : Prop where
  alike : ∀ {w w'}, view k w = view k w' → (f w).1 = (f w').1 ∧ view k (f w).2 = view k (f w').2
  frame : ∀ {k'}, k' ≠ k → ∀ w, view k' (f w).2 = view k' w

/-- The program writes nothing at all. -/
def Idle (f : W → α × W) : Prop := ∀ k w, view k (f w).2 = view k w

variable {view} {k : κ}

theorem Local.pure (a : α) : Local view k fun w => (a, w) := ⟨fun h => ⟨rfl, h⟩, fun _ _ => rfl⟩

theorem Local.bind {f : W → α × W} {g : α → W → β × W} (hf : Local view k f)
    (hg : ∀ a, Local view k (g a)) : Local view k fun w => g (f w).1 (f w).2 where
  alike h := by
    obtain ⟨hresult, hworld⟩ := hf.alike h
    rw [hresult]
    exact (hg _).alike hworld
  frame hne w := ((hg _).frame hne _).trans (hf.frame hne w)

theorem Local.map {f : W → α × W} (hf : Local view k f) (g : α → β) :
    Local view k fun w => (g (f w).1, (f w).2) :=
  hf.bind fun a => .pure (g a)

/-- A program that throws when its first part does, and goes on where that returns. -/
theorem Local.andThen {ε : Type*} {f : W → Except ε α × W} {g : α → W → Except ε β × W}
    {p : W → Except ε β × W} (hf : Local view k f) (hg : ∀ a, Local view k (g a))
    (herror : ∀ {w e w'}, f w = (.error e, w') → p w = (.error e, w'))
    (hok : ∀ {w a w'}, f w = (.ok a, w') → p w = g a w') : Local view k p := by
  have hrest : ∀ result : Except ε α, Local view k fun w =>
      match result with
      | .error e => (.error e, w)
      | .ok a => g a w := by
    intro result
    cases result with
    | error e => exact .pure _
    | ok a => exact hg a
  refine (congrArg (Local view k) (funext fun w => ?_)).mp (hf.bind hrest)
  cases hw : f w with
  | mk result w' =>
    cases result with
    | error e => exact (herror hw).symm
    | ok a => exact (hok hw).symm

section Transaction

open Transaction

variable {D U τ ε : Type*} {err : Errors ε} {ref : DocRef W D} {apply : U → D → D}

/-- A transaction on a document of the part is local when its handler is. -/
theorem local_runTransaction {body : τ → Option D → W → Except ε (Option U) × W}
    (hget : ∀ {w w'}, view k w = view k w' → ref.get w = ref.get w')
    (hput : ∀ d, Local view k fun w => ((), ref.put d w)) (hbody : ∀ t doc, Local view k (body t doc))
    (fates : List (Fate × τ)) : Local view k (runTransaction err ref apply body fates) := by
  induction fates with
  | nil => exact .pure _
  | cons attempt rest ih =>
    obtain ⟨fate, t⟩ := attempt
    refine ⟨fun {w w'} h => ?_, fun {k'} hne w => ?_⟩
    · obtain ⟨hresult, hworld⟩ := (hbody t (ref.get w)).alike h
      rw [runTransaction, runTransaction, ← hget h]
      split
      · exact ⟨rfl, h⟩
      -- both handlers have ended alike, so both calls go on alike
      · cases hb : body t (ref.get w) w with
        | mk result v =>
          cases hb' : body t (ref.get w) w' with
          | mk result' v' =>
            rw [hb, hb'] at hresult hworld
            obtain rfl : result = result' := hresult
            cases result with
            | error e => exact ⟨rfl, hworld⟩
            | ok u =>
              dsimp only at hworld ⊢
              cases commit err apply (ref.get w) u with
              | error e => exact ⟨rfl, hworld⟩
              | ok d =>
                dsimp only
                split
                · exact ih.alike hworld
                · cases d with
                  | none => exact ⟨rfl, hworld⟩
                  | some d => exact ⟨rfl, ((hput d).alike hworld).2⟩
    · refine runTransaction_invariant err ref apply (P := fun v => view k' v = view k' w)
        (fun t doc v hv => ((hbody t doc).frame hne v).trans hv)
        (fun d v hv => ((hput d).frame hne v).trans hv) _ rfl

end Transaction

section Exec

variable {P : Type*} (handle : P → W → α × W)

/-- Programs one after another, each with what it has answered. -/
def exec : List P → W → List (P × α) × W
  | [], w => ([], w)
  | p :: ps, w =>
    let (answer, w') := handle p w
    let (answers, w'') := exec ps w'
    ((p, answer) :: answers, w'')

variable {handle} {key : P → Option κ}

/-- The programs about a part, and what these have answered. -/
def about [DecidableEq κ] (key : P → Option κ) (k : κ) (ps : List P) : List P :=
  ps.filter fun p => key p = some k

def answersAbout [DecidableEq κ] (key : P → Option κ) (k : κ) (log : List (P × α)) : List (P × α) :=
  log.filter fun entry => key entry.1 = some k

/-- Only the programs about a part matter to it. -/
theorem exec_about [DecidableEq κ] (hlocal : ∀ p k, key p = some k → Local view k (handle p))
    (hidle : ∀ p, key p = none → Idle view (handle p)) (ps : List P) {w w' : W}
    (h : view k w = view k w') :
    answersAbout key k (exec handle ps w).1 = (exec handle (about key k ps) w').1 ∧
      view k (exec handle ps w).2 = view k (exec handle (about key k ps) w').2 := by
  induction ps generalizing w w' with
  | nil => exact ⟨rfl, h⟩
  | cons p ps ih =>
    by_cases hp : key p = some k
    · obtain ⟨hanswer, hworld⟩ := (hlocal p k hp).alike h
      obtain ⟨hlog, hrest⟩ := ih hworld
      rw [about, List.filter_cons_of_pos (by simpa using hp)]
      refine ⟨?_, hrest⟩
      simp only [exec, answersAbout]
      rw [List.filter_cons_of_pos (by simpa using hp), hanswer]
      exact congrArg _ hlog
    · have hsame : view k (handle p w).2 = view k w' := by
        rw [← h]
        cases hkey : key p with
        | none => exact hidle p hkey k w
        | some k' => exact (hlocal p k' hkey).frame (fun heq => hp (hkey.trans (congrArg some heq.symm))) w
      obtain ⟨hlog, hrest⟩ := ih hsame
      rw [about, List.filter_cons_of_neg (by simpa using hp)]
      refine ⟨?_, hrest⟩
      simp only [exec, answersAbout]
      rw [List.filter_cons_of_neg (by simpa using hp)]
      exact hlog

/-- Two sequences with the same programs about a part, started in worlds that have the same
there, get the same answers to these programs and leave the same there. -/
theorem exec_alike [DecidableEq κ] (hlocal : ∀ p k, key p = some k → Local view k (handle p))
    (hidle : ∀ p, key p = none → Idle view (handle p)) {ps ps' : List P}
    (hps : about key k ps = about key k ps') {w w' : W} (h : view k w = view k w') :
    answersAbout key k (exec handle ps w).1 = answersAbout key k (exec handle ps' w').1 ∧
      view k (exec handle ps w).2 = view k (exec handle ps' w').2 := by
  obtain ⟨hlog, hrest⟩ := exec_about hlocal hidle ps h
  obtain ⟨hlog', hrest'⟩ := exec_about hlocal hidle ps' (rfl : view k w' = view k w')
  rw [hlog, hrest, hlog', hrest', hps]
  exact ⟨rfl, rfl⟩

/-- What holds at the start, and is kept by every program, holds after a sequence. -/
theorem exec_induction {I : List (P × α) → W → Prop} {w : W} (h : I [] w)
    (hstep : ∀ log w p, I log w → I (log ++ [(p, (handle p w).1)]) (handle p w).2) (ps : List P) :
    I (exec handle ps w).1 (exec handle ps w).2 := by
  have hrest : ∀ log w, I log w → I (log ++ (exec handle ps w).1) (exec handle ps w).2 := by
    induction ps with
    | nil =>
      intro log w hlog
      simpa [exec] using hlog
    | cons p ps ih =>
      intro log w hlog
      simpa [exec] using ih _ _ (hstep log w p hlog)
  simpa using hrest [] w h

end Exec

end Locality
