import HomeBank.Lib.Numerals
import HomeBank.Spec.Account

/-! Any number of `changePoint` calls on one email, at the granularity of their
attempts. The users transaction reads its document and runs its handler; the handler
starts the points transaction of `addRecord`, which has its own attempts; then the
users transaction commits, if its document is as it was read, or starts over. Among the records
in the order of their writing, those of the attempts that have committed are a chain of balances. -/

namespace HomeBank.Ledger

open Dart Firestore Optimistic

/-- Where one call stands. `snap` is the users document that its open attempt has read
and `total` the balance it has buffered. -/
inductive Phase where
  | idle
  /-- the next attempt has not read the users document yet -/
  | ready
  /-- inside the handler, before `addRecord` has read the point document -/
  | opened (snap : Cell (Option UserDoc)) (total : Int64)
  /-- `addRecord` has read the point document, at time `today` -/
  | recording (snap : Cell (Option UserDoc)) (total : Int64)
      (recordSnap : Cell (Option PointDoc)) (today : DateTime)
  /-- `addRecord` has returned, the users transaction is about to commit -/
  | recorded (snap : Cell (Option UserDoc)) (total : Int64)
  | returned
  | threw

structure State (ι : Type) where
  users : Cell (Option UserDoc)
  point : Cell (Option PointDoc)
  phase : ι → Phase

inductive Event (ι : Type) where
  | start (i : ι)
  | readUser (i : ι)
  | readPoint (i : ι) (today : DateTime)
  | commitPoint (i : ι)
  | rerunPoint (i : ι)
  | commitUser (i : ι)
  | rerunUser (i : ι)
  /-- a read fails, a handler throws, a commit is rejected or refused for the last time -/
  | fail (i : ι)

variable {ι : Type}

def State.init (users : Option UserDoc) (point : Option PointDoc) : State ι :=
  ⟨⟨users, 0⟩, ⟨point, 0⟩, fun _ => .idle⟩

variable [DecidableEq ι]

def State.goto (s : State ι) (i : ι) (p : Phase) : State ι :=
  { s with phase := Function.update s.phase i p }

/-- `calls i` are the arguments of call `i`. -/
def step (calls : ι → PointArgs) (s : State ι) : Event ι → Option (State ι)
  | .start i =>
    match s.phase i with
    | .idle => some (s.goto i .ready)
    | _ => none
  | .readUser i =>
    match s.phase i with
    | .ready =>
      match newTotal (calls i).point s.users.val with
      | .ok total => some (s.goto i (.opened s.users total))
      | .error _ => none
    | _ => none
  | .readPoint i today =>
    match s.phase i with
    | .opened snap total => some (s.goto i (.recording snap total s.point today))
    | _ => none
  | .commitPoint i =>
    match s.phase i with
    | .recording snap total recordSnap today =>
      if recordSnap.ver = s.point.ver then
        match addRecordBody (calls i) total today recordSnap.val, s.point.val with
        | .ok (some u), some d =>
          some { s.goto i (.recorded snap total) with point := s.point.write (some (u.apply d)) }
        | _, _ => none
      else none
    | _ => none
  | .rerunPoint i =>
    match s.phase i with
    | .recording snap total recordSnap _ =>
      if recordSnap.ver = s.point.ver then none else some (s.goto i (.opened snap total))
    | _ => none
  | .commitUser i =>
    match s.phase i with
    | .recorded snap total =>
      if snap.ver = s.users.ver then
        s.users.val.map fun d =>
          { s.goto i .returned with users := s.users.write (some ((totalUpdate total).apply d)) }
      else none
    | _ => none
  | .rerunUser i =>
    match s.phase i with
    | .recorded snap _ => if snap.ver = s.users.ver then none else some (s.goto i .ready)
    | _ => none
  | .fail i =>
    match s.phase i with
    | .idle | .returned | .threw => none
    | _ => some (s.goto i .threw)

def Event.started? : Event ι → Option ι
  | .start i => some i
  | _ => none

def Event.committed? : Event ι → Option ι
  | .commitUser i => some i
  | _ => none

def Event.stored? : Event ι → Option ι
  | .commitPoint i => some i
  | _ => none

def Event.rolledBack? : Event ι → Option ι
  | .rerunUser i => some i
  | _ => none

/-- The calls that have been started. -/
def started (es : List (Event ι)) : List ι := es.filterMap Event.started?

/-- The calls whose users transaction has committed, in commit order. -/
def committed (es : List (Event ι)) : List ι := es.filterMap Event.committed?

/-- The calls whose `addRecord` has committed, once for each time it has. -/
def stored (es : List (Event ι)) : List ι := es.filterMap Event.stored?

/-- The calls with an attempt whose commit was refused, once for each such attempt. -/
def rolledBack (es : List (Event ι)) : List ι := es.filterMap Event.rolledBack?

/-- What the records of a point document say about the calls that wrote them. -/
def recorded (d : PointDoc) : Multiset PointArgs :=
  (rows d).map fun row =>
    let model := row.toModel
    ⟨model.type, model.note, model.point⟩

def Event.readTime? : Event ι → Option DateTime
  | .readPoint _ today => some today
  | _ => none

/-- The readings of the clock, in the order in which they were made. -/
def clock (es : List (Event ι)) : List DateTime := es.filterMap Event.readTime?

/-- The balance after the records of the chain. -/
def lastTotal (b₀ : Int64) (chain : List Entry) : Int64 := (chain.getLast?.map Entry.total).getD b₀

/-- `entries` are the records that the calls have written since the documents were `users`
and `point`, and `chain` those among them that belong to committed attempts. -/
structure Trail (calls : ι → PointArgs) (b₀ : Int64) (users : UserDoc) (point : PointDoc)
    (es : List (Event ι)) (s : State ι) (entries chain : List Entry) : Prop where
  written : entries.map Entry.args = (stored es).map calls
  chosen : chain.map Entry.args = (committed es).map calls
  within : chain.Sublist entries
  times : (entries.map Entry.today).Sublist (clock es)
  totals : RunningTotals b₀ (chain.map Entry.model)
  balance : intField s.users.val "point" = .ok (lastTotal b₀ chain)
  users_eq : s.users.val =
    some (chain.foldl (fun doc entry => (totalUpdate entry.total).apply doc) users)
  point_eq : entries.foldlM (fun doc entry => recordHandlers.commit entry doc) (some point) =
    some s.point.val

end HomeBank.Ledger
