import HomeBank.Lib.Filing
import HomeBank.Lib.FirstMatch
import HomeBank.Spec.Job

/-! What the job document of one child is for: a bag of jobs. `createJob` puts in an
unfinished job, `finishJob` turns one into a finished job, `deleteJob` takes one out. -/

namespace HomeBank

open Dart Firestore FirstMatch

/-- A job of the bag. Its date-time has no fraction of a second and no time zone. -/
@[ext]
structure Job where
  type : String
  note : String
  date : {d : DateTime // d.toSecond = d}
  point : Int64
  finish : Bool
  deriving DecidableEq

namespace Job

/-- The unfinished job with these four values. -/
def opened (type note : String) (date : DateTime) (point : Int64) : Job :=
  ⟨type, note, ⟨date.toSecond, rfl⟩, point, false⟩

def finished (job : Job) : Job := { job with finish := true }

def reopened (job : Job) : Job := { job with finish := false }

/-- The key of the month list to which the job belongs. -/
def month (job : Job) : String := getYearMonth job.date

def model (job : Job) : JobModel :=
  ⟨job.type, job.note, getDateTimeString job.date, job.point, job.finish⟩

/-- The row that stands for the job in the document. -/
def stored (job : Job) : JobMap := job.model.toJson

end Job

namespace JobOp

/-- The effect of a call on the bag. -/
def perform (bag : Multiset Job) : JobOp → Multiset Job
  | .createJob type note date point => Job.opened type note date point ::ₘ bag
  | .finishJob type note date point =>
    match parseDate date with
    | .error _ => bag
    | .ok date =>
      let job := Job.opened type note date point
      if job ∈ bag then job.finished ::ₘ bag.erase job else bag
  | .deleteJob type note date point =>
    match parseDate date with
    | .error _ => bag
    | .ok date => bag.erase (Job.opened type note date point)

/-- The same on the jobs in the order of their creation, where the first match counts. -/
def arrange (jobs : List Job) : JobOp → List Job
  | .createJob type note date point => jobs ++ [Job.opened type note date point]
  | .finishJob type note date point =>
    match parseDate date with
    | .error _ => jobs
    | .ok date =>
      changeFirst (fun job => decide (job = Job.opened type note date point))
        (fun job => [job.finished]) jobs
  | .deleteJob type note date point =>
    match parseDate date with
    | .error _ => jobs
    | .ok date =>
      changeFirst (fun job => decide (job = Job.opened type note date point)) (fun _ => []) jobs

/-- The month list on which a call works, if its date can be read. -/
def month : JobOp → Option String
  | .createJob _ _ date _ => some (getYearMonth date)
  | .finishJob _ _ date _ | .deleteJob _ _ date _ => (DateTime.parse date).map getYearMonth

/-- The job that the call has created, as it was then. -/
def created? : JobOp → Option Job
  | .createJob type note date point => some (Job.opened type note date point)
  | _ => none

end JobOp

/-- The document keeps the jobs of the list: each in the list of its own month, in the order
of the list, and the parent's email under its own key. -/
abbrev Keeps (parent : String) (jobs : List Job) (doc : JobDoc) : Prop :=
  Files "parent" (some (.string parent)) Job.month Job.stored jobs doc

end HomeBank
