import HomeBank.Lib.StreamController
import HomeBank.Spec.Statistics

/-! `StatisticsPage` and `MyStatisticsPage` from their opening to `dispose`, with the stream
that makes their charts draw again. Closing a page does not cancel its requests. -/

namespace HomeBank.StreamUpdates

open Dart Firestore

/-- What the pages read of `AuthProvider`. -/
structure AuthProvider where
  user : UserModel
  children : List UserModel

/-- The parts in which the two pages differ. -/
structure Page where
  /-- whom `_fetchData` selects -/
  fetched : AuthProvider → Option UserModel
  /-- whom `build` selects -/
  built : AuthProvider → Option UserModel → Option UserModel
  /-- whom the tiles of the drawer show -/
  drawer : AuthProvider → List UserModel

def statisticsPage : Page where
  fetched auth := auth.children.head?
  built auth selected := selected.or auth.children.head?
  drawer auth := auth.children

/-- The child sees its own statistics and has no drawer. -/
def myStatisticsPage : Page where
  fetched auth := some auth.user
  built auth _ := some auth.user
  drawer _ := []

inductive Lifecycle where
  | notOpened
  | opened
  | disposed
  deriving DecidableEq

structure State where
  auth : AuthProvider
  lifecycle : Lifecycle
  selected : Option UserModel
  currentDate : Date
  /-- `_pointRecords`, with the requests sent by taps -/
  pointRecords : Slot String (Records PointModel)
  jobRecords : Slot String (Records JobModel)
  fetch : Statistics.Fetch
  streamController : StreamController String

def State.init (auth : AuthProvider) (now : Date) : State :=
  ⟨auth, .notOpened, none, now, ⟨∅, 0⟩, ⟨∅, 0⟩, .notCalled, {}⟩

inductive Event where
  | opened
  | authChanged (auth : AuthProvider)
  /-- a build after the first one -/
  | build
  /-- the callback after the first frame -/
  | fetchData
  | tap (index : ℕ)
  | arrowLeft
  | arrowRight
  /-- the answer to a request that a tap has sent for the email -/
  | pointResponse (email : String) (result : Except Exception (Records PointModel))
  | jobResponse (email : String) (result : Except Exception (Records JobModel))
  /-- the answer that `_fetchData` awaits -/
  | fetchPointResponse (result : Except Exception (Records PointModel))
  | fetchJobResponse (result : Except Exception (Records JobModel))
  | closed

namespace State

/-- `_fetchData` up to its first `await` -/
def fetchData (page : Page) (s : State) : State :=
  match page.fetched s.auth with
  | some child => { s with selected := some child, fetch := .awaitingPoint child.email }
  | none => { s with selected := none, fetch := .finished }

def onTap (s : State) (child : UserModel) : State :=
  { s with
    selected := some child
    pointRecords := s.pointRecords.request child.email
    jobRecords := s.jobRecords.request child.email }

def moveTo (s : State) (currentDate : Date) : State :=
  { s with currentDate, streamController := s.streamController.add "update" }

/-- The callback of all calls of `getPointRecord`. -/
def updatePoints (s : State) (map : Records PointModel) : State :=
  { s with
    pointRecords := { s.pointRecords with held := map }
    streamController := s.streamController.add "update" }

def updateJobs (s : State) (map : Records JobModel) : State :=
  { s with
    jobRecords := { s.jobRecords with held := map }
    streamController := s.streamController.add "update" }

/-- The answer to a request of a tap. Without a map the callback is not called. -/
def pointResponse (s : State) (email : String) :
    Except Exception (Records PointModel) → State
  | .ok map =>
    { s with pointRecords.inFlight := s.pointRecords.inFlight.erase email }.updatePoints map
  | .error _ => { s with pointRecords.inFlight := s.pointRecords.inFlight.erase email }

def jobResponse (s : State) (email : String) : Except Exception (Records JobModel) → State
  | .ok map => { s with jobRecords.inFlight := s.jobRecords.inFlight.erase email }.updateJobs map
  | .error _ => { s with jobRecords.inFlight := s.jobRecords.inFlight.erase email }

/-- `_fetchData` sends its second request unless the first or its callback has thrown. -/
def fetchPointResponse (s : State) : Except Exception (Records PointModel) → State
  | .ok map =>
    { s.updatePoints map with
      fetch := if s.streamController.isClosed then .finished else .requestJob s.selected }
  | .error _ => { s with fetch := .finished }

def fetchJobResponse (s : State) : Except Exception (Records JobModel) → State
  | .ok map => { s.updateJobs map with fetch := .finished }
  | .error _ => { s with fetch := .finished }

def dispose (s : State) : State :=
  { s with lifecycle := .disposed, streamController := s.streamController.close }

end State

/-- Builds, taps and the arrows belong to an open page; answers arrive at any time. A
`_fetchData` that starts after `dispose` has no `context` and ends at once. -/
def step (page : Page) (s : State) : Event → Option State
  | .opened =>
    if s.lifecycle = .notOpened then
      some { s with lifecycle := .opened, selected := page.built s.auth s.selected }
    else none
  | .authChanged auth => some { s with auth }
  | .build =>
    if s.lifecycle = .opened then some { s with selected := page.built s.auth s.selected } else none
  | .fetchData =>
    if s.fetch = .notCalled then
      match s.lifecycle with
      | .notOpened => none
      | .opened => some (s.fetchData page)
      | .disposed => some { s with fetch := .finished }
    else none
  | .tap index =>
    if s.lifecycle = .opened then (page.drawer s.auth)[index]?.map s.onTap else none
  | .arrowLeft =>
    if s.lifecycle = .opened then some (s.moveTo s.currentDate.previousMonth) else none
  | .arrowRight =>
    if s.lifecycle = .opened then some (s.moveTo s.currentDate.nextMonth) else none
  | .pointResponse email result =>
    if email ∈ s.pointRecords.inFlight then some (s.pointResponse email result) else none
  | .jobResponse email result =>
    if email ∈ s.jobRecords.inFlight then some (s.jobResponse email result) else none
  | .fetchPointResponse result =>
    match s.fetch with
    | .awaitingPoint _ => some (s.fetchPointResponse result)
    | _ => none
  | .fetchJobResponse result =>
    match s.fetch with
    | .awaitingJob _ => some (s.fetchJobResponse result)
    | _ => none
  | .closed => if s.lifecycle = .opened then some s.dispose else none

/-- `_fetchData` awaits an answer. -/
def awaits : Statistics.Fetch → Bool
  | .awaitingPoint _ | .awaitingJob _ => true
  | .notCalled | .finished => false

/-- No answer is outstanding, neither to a tap nor to `_fetchData`. -/
structure State.AtRest (s : State) : Prop where
  point : s.pointRecords.inFlight = 0
  job : s.jobRecords.inFlight = 0
  fetch : awaits s.fetch = false

instance (s : State) : Decidable s.AtRest :=
  decidable_of_iff
    (s.pointRecords.inFlight = 0 ∧ s.jobRecords.inFlight = 0 ∧ awaits s.fetch = false)
    ⟨fun h => ⟨h.1, h.2.1, h.2.2⟩, fun h => ⟨h.point, h.job, h.fetch⟩⟩

/-- The page is closed only at rest. -/
def ClosesAtRest (s : State) : Event → Prop
  | .closed => s.AtRest
  | _ => True

instance (s : State) : ∀ e, Decidable (ClosesAtRest s e)
  | .closed => inferInstanceAs (Decidable s.AtRest)
  | .opened | .authChanged _ | .build | .fetchData | .tap _ | .arrowLeft | .arrowRight
  | .pointResponse _ _ | .jobResponse _ _ | .fetchPointResponse _ | .fetchJobResponse _ =>
    inferInstanceAs (Decidable True)

end HomeBank.StreamUpdates
