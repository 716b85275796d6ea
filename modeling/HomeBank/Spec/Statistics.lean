import HomeBank.Lib.Run
import HomeBank.Lib.Slot
import HomeBank.Spec.Point

/-! The state of `StatisticsPage`: the selected child, the records held, and the requests
whose responses will overwrite them. The store does not change meanwhile, but it may be out of
reach when a request gets there. -/

namespace HomeBank.Statistics

open Dart Firestore

/-- What `getPointRecord` makes of the document of an email, whenever it gets to read it. It
throws on a document with a field that it takes for a month and that is no list. -/
def pointRecord (db : Db) (email : String) : Except Exception (Records PointModel) :=
  getPointRecord (db.point email)

def jobRecord (db : Db) (email : String) : Except Exception (Records JobModel) :=
  getJobRecord (db.job email)

/-- The response to a request: the exception with which the read has failed, if it has, or
what the reader makes of the document. -/
def response {β : Type} (record : Except Exception β) : Option Exception → Except Exception β
  | some e => .error e
  | none => record

/-- How far `_fetchData` has come, with the email of the request that it awaits. -/
inductive Fetch where
  | notCalled
  | awaitingPoint (email : String)
  | awaitingJob (email : String)
  | finished
  deriving DecidableEq

structure State where
  /-- `AuthProvider.children`, which the drawer shares -/
  children : List UserModel
  built : Bool
  selected : Option UserModel
  /-- `_pointRecords`, with the requests sent by taps -/
  pointRecords : Slot String (Records PointModel)
  jobRecords : Slot String (Records JobModel)
  fetch : Fetch

def State.init (children : List UserModel) : State :=
  ⟨children, false, none, ⟨∅, 0⟩, ⟨∅, 0⟩, .notCalled⟩

inductive Event where
  | childrenChanged (children : List UserModel)
  /-- the first build, or any later one -/
  | build
  /-- the callback after the first build -/
  | fetchData
  | tap (index : Nat)
  /-- the response to a request that a tap has sent for the email -/
  | pointResponse (email : String) (failure : Option Exception)
  | jobResponse (email : String) (failure : Option Exception)
  /-- the response that `_fetchData` awaits -/
  | fetchResponse (failure : Option Exception)
  deriving DecidableEq

def State.onTap (s : State) (child : UserModel) : State :=
  { s with
    selected := some child
    pointRecords := s.pointRecords.request child.email
    jobRecords := s.jobRecords.request child.email }

/-- `_fetchData` up to its first `await` -/
def State.fetchData (s : State) : State :=
  match s.children.head? with
  | some child => { s with selected := some child, fetch := .awaitingPoint child.email }
  | none => { s with selected := none, fetch := .finished }

/-- The second request of `_fetchData` is for whoever is selected when the first is answered. -/
def Fetch.requestJob : Option UserModel → Fetch
  | some child => .awaitingJob child.email
  | none => .finished

/-- Nothing catches the exception of a failed request, with which `_fetchData` ends. -/
def State.pointFetched (s : State) (result : Except Exception (Records PointModel)) : State :=
  { s with
    pointRecords := s.pointRecords.receive result
    fetch := if result.isOk then .requestJob s.selected else .finished }

def State.jobFetched (s : State) (result : Except Exception (Records JobModel)) : State :=
  { s with jobRecords := s.jobRecords.receive result, fetch := .finished }

def step (db : Db) (s : State) : Event → Option State
  | .childrenChanged children => some { s with children }
  | .build => some { s with built := true, selected := s.selected.or s.children.head? }
  | .fetchData => if s.built = true ∧ s.fetch = .notCalled then some s.fetchData else none
  | .tap index => if s.built = true then s.children[index]?.map s.onTap else none
  | .pointResponse email failure =>
    (s.pointRecords.deliver email (response (pointRecord db email) failure)).map
      fun pointRecords => { s with pointRecords }
  | .jobResponse email failure =>
    (s.jobRecords.deliver email (response (jobRecord db email) failure)).map
      fun jobRecords => { s with jobRecords }
  | .fetchResponse failure =>
    match s.fetch with
    | .awaitingPoint email => some (s.pointFetched (response (pointRecord db email) failure))
    | .awaitingJob email => some (s.jobFetched (response (jobRecord db email) failure))
    | _ => none

/-- No request is in flight and `_fetchData` has finished. -/
def State.Settled (s : State) : Prop :=
  s.pointRecords.inFlight = 0 ∧ s.jobRecords.inFlight = 0 ∧ s.fetch = .finished

instance (s : State) : Decidable s.Settled := inferInstanceAs (Decidable (_ ∧ _ ∧ _))

/-- The records held are those of the selected child. -/
def State.ShowsSelected (db : Db) (s : State) : Prop :=
  ∀ child ∈ s.selected, s.pointRecords.Holds (pointRecord db) child.email ∧
    s.jobRecords.Holds (jobRecord db) child.email

instance (db : Db) (s : State) : Decidable (s.ShowsSelected db) :=
  inferInstanceAs (Decidable (∀ child ∈ s.selected, _ ∧ _))

/-- `_fetchData` awaits the points of the child, or will still choose for whom to ask. -/
def Fetch.AsksPoint (email : String) : Fetch → Prop
  | .notCalled => True
  | .awaitingPoint awaited => awaited = email
  | .awaitingJob _ | .finished => False

def Fetch.AsksJob (email : String) : Fetch → Prop
  | .notCalled | .awaitingPoint _ => True
  | .awaitingJob awaited => awaited = email
  | .finished => False

instance (email : String) : ∀ fetch : Fetch, Decidable (fetch.AsksPoint email)
  | .notCalled => inferInstanceAs (Decidable True)
  | .awaitingPoint _ => inferInstanceAs (Decidable (_ = _))
  | .awaitingJob _ | .finished => inferInstanceAs (Decidable False)

instance (email : String) : ∀ fetch : Fetch, Decidable (fetch.AsksJob email)
  | .notCalled | .awaitingPoint _ => inferInstanceAs (Decidable True)
  | .awaitingJob _ => inferInstanceAs (Decidable (_ = _))
  | .finished => inferInstanceAs (Decidable False)

/-- A response brings the records of the selected child, or it is a failure and the page holds
those records already, or another response of the same kind is still to come for that child. A
first request of `_fetchData` that fails takes the second with it, which is then not to come. And
`build` selects a child by itself only while `_fetchData` has not been called, or when that child
has just the records that the page holds. -/
def InOrder (db : Db) (s : State) : Event → Prop
  | .build => s.selected = none → s.fetch ≠ .notCalled → ∀ child ∈ s.children.head?,
      s.pointRecords.Holds (pointRecord db) child.email ∧
        s.jobRecords.Holds (jobRecord db) child.email
  | .pointResponse email failure => ∀ child ∈ s.selected,
      s.pointRecords.Suits (pointRecord db) child.email (response (pointRecord db email) failure) ∨
        child.email ∈ s.pointRecords.inFlight.erase email ∨ s.fetch.AsksPoint child.email
  | .jobResponse email failure => ∀ child ∈ s.selected,
      s.jobRecords.Suits (jobRecord db) child.email (response (jobRecord db email) failure) ∨
        child.email ∈ s.jobRecords.inFlight.erase email ∨ s.fetch.AsksJob child.email
  | .fetchResponse failure =>
    match s.fetch with
    | .awaitingPoint email => ∀ child ∈ s.selected,
        (s.pointRecords.Suits (pointRecord db) child.email
            (response (pointRecord db email) failure) ∨
          child.email ∈ s.pointRecords.inFlight) ∧
        ((response (pointRecord db email) failure).isOk ∨
          s.jobRecords.Settles (jobRecord db) child.email)
    | .awaitingJob email => ∀ child ∈ s.selected,
        s.jobRecords.Suits (jobRecord db) child.email (response (jobRecord db email) failure) ∨
          child.email ∈ s.jobRecords.inFlight
    | _ => True
  | _ => True

instance (db : Db) (s : State) (e : Event) : Decidable (InOrder db s e) := by
  unfold InOrder
  split
  case h_4 => split <;> infer_instance
  all_goals infer_instance

end HomeBank.Statistics
