import HomeBank.Spec.Ledger

/-! The confirm button of the work detail page marks the job as finished, then it pays the
points of the job. Any number of parent devices work on the jobs of one child. A device creates
a job, deletes the job of a tile, or confirms the job of a tile: `finishJob` first, then the
transactions of `changePoint`. The transactions of all devices are interleaved, and a tile stays
on a screen for as long as it likes, whatever other devices do in the meantime. -/

namespace HomeBank

open Dart Firestore Transaction

/-- `onPressed` of the confirmation dialog for the tile of `job`, with the fates of the
attempts of both calls. -/
def confirm (email : String) (job : JobModel) (finishFates : List Fate)
    (payFates : List (Fate × RecordScript)) (db : Db) : Except Exception Unit × Db :=
  match finishJob email job.type job.note job.date job.point finishFates db with
  | (.error e, db') => (.error e, db')
  | (.ok (), db') => changePoint email ⟨job.type, job.note, job.point⟩ payFates db'

/-- The checkbox of a tile: whether pressing it opens the confirmation dialog. -/
def opensConfirmation (job : JobModel) : Bool := !job.finish

/-- A stored unfinished job has the values of the tile. -/
def matchesTile (tile : JobModel) (doc : Option JobDoc) : Bool :=
  match parseDate tile.date with
  | .error _ => false
  | .ok date =>
    match listField doc (getYearMonth date) with
    | .error _ => false
    | .ok data =>
      data.any (matchesDetail ⟨tile.type, tile.note, getDateTimeString date, tile.point, false⟩)

end HomeBank

namespace HomeBank.Payment

open Dart Firestore Transition

/-- The payment of a confirmation. -/
def payment (tile : JobModel) : PointArgs := ⟨tile.type, tile.note, tile.point⟩

/-- `ι` are the confirmations. -/
structure State (ι : Type) where
  job : Option JobDoc
  /-- the unfinished jobs that have been displayed at some moment -/
  displayed : List JobModel
  /-- the confirmations that have returned from `finishJob` -/
  finished : List ι
  ledger : Ledger.State ι

inductive Event (ι : Type) where
  | create (type note : String) (date : DateTime) (point : Int64)
  /-- a device reads the job document and shows the tiles of all unfinished jobs -/
  | display
  | delete (tile : JobModel)
  | finish (i : ι)
  /-- a step of the `changePoint` call of a confirmation -/
  | pay (e : Ledger.Event ι)

variable {ι : Type}

def State.init (job : Option JobDoc) (users : Option UserDoc) (point : Option PointDoc) : State ι :=
  ⟨job, [], [], .init users point⟩

/-- The call that a confirmation makes first. -/
def finishTile (tile : JobModel) : JobOp := .finishJob tile.type tile.note tile.date tile.point

def deleteTile (tile : JobModel) : JobOp := .deleteJob tile.type tile.note tile.date tile.point

variable [DecidableEq ι]

/-- `tiles i` is the tile that confirmation `i` is about. A transaction on the job document
is one step, its commit; one that throws is no step. -/
def step (tiles : ι → JobModel) (s : State ι) : Event ι → Option (State ι)
  | .create type note date point =>
    (jobHandlers.commit (.createJob type note date point) s.job).map fun job => { s with job }
  | .display =>
    match getJobRecord s.job with
    | .error _ => none
    | .ok list => some { s with displayed := s.displayed ++ list.all.filter opensConfirmation }
  | .delete tile =>
    if tile ∈ s.displayed then
      (jobHandlers.commit (deleteTile tile) s.job).map fun job => { s with job }
    else none
  | .finish i =>
    if tiles i ∈ s.displayed ∧ i ∉ s.finished then
      (jobHandlers.commit (finishTile (tiles i)) s.job).map fun job =>
        { s with job, finished := s.finished ++ [i] }
    else none
  | .pay e =>
    -- `changePoint` is called when `finishJob` has returned
    if ∀ i ∈ e.started?, i ∈ s.finished then
      (Ledger.step (fun i => payment (tiles i)) s.ledger e).map fun ledger => { s with ledger }
    else none

/-- Every confirmation that has returned from `finishJob` has returned from `changePoint`. -/
def State.NoneHalfDone (s : State ι) : Prop := ∀ i ∈ s.finished, s.ledger.phase i = .returned

/-- The sum of the points of the finished jobs. -/
def finishedPoints (doc : Option JobDoc) : Int64 :=
  doc.elim 0 fun d => ((finishedRows d).map fun row => row.point.getD 0).sum

/-- Whoever confirms a tile finds an unfinished job that matches it, or pays nothing. -/
def Fresh (tiles : ι → JobModel) (s : State ι) : Event ι → Prop
  | .finish i => matchesTile (tiles i) s.job = true ∨ (tiles i).point = 0
  | _ => True

def Event.payment? : Event ι → Option (Ledger.Event ι)
  | .pay e => some e
  | _ => none

/-- The steps of the `changePoint` calls. -/
def payments (es : List (Event ι)) : List (Ledger.Event ι) := es.filterMap Event.payment?

/-- A confirmation that returns from `finishJob` although no unfinished job matches its tile. -/
def Event.stale? (tiles : ι → JobModel) (s : State ι) : Event ι → Option ι
  | .finish i => if matchesTile (tiles i) s.job then none else some i
  | _ => none

/-- The confirmations that have found no job. -/
def stale (tiles : ι → JobModel) (s₀ : State ι) (es : List (Event ι)) : List ι :=
  observed (step tiles) (Event.stale? tiles) s₀ es

def hasReturned (s : State ι) (i : ι) : Bool :=
  match s.ledger.phase i with
  | .returned => true
  | _ => false

/-- The confirmations that have returned from `finishJob` and not, or not yet, from `changePoint`. -/
def owed (s : State ι) : List ι := s.finished.filter fun i => !hasReturned s i

/-- The points of the tiles of some confirmations. -/
def pointsOf (tiles : ι → JobModel) (is : List ι) : Int64 := (is.map fun i => (tiles i).point).sum

end HomeBank.Payment
