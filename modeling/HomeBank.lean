import HomeBank.Lib.Run
import HomeBank.Lib.Optimistic
import HomeBank.Lib.Digits
import HomeBank.Lib.DateTime
import HomeBank.Lib.FirstMatch
import HomeBank.Lib.Document
import HomeBank.Lib.Filing
import HomeBank.Lib.Slot
import HomeBank.Lib.StreamController
import HomeBank.Lib.Transaction
import HomeBank.Lib.Histogram
import HomeBank.Lib.Numerals
import HomeBank.Lib.Select
import HomeBank.Lib.Joined
import HomeBank.Lib.Regex
import HomeBank.Spec.Common
import HomeBank.Spec.Models
import HomeBank.Spec.Job
import HomeBank.Spec.JobBag
import HomeBank.Proofs.JobStore
import HomeBank.Spec.Point
import HomeBank.Spec.Account
import HomeBank.Spec.ListPages
import HomeBank.Proofs.MonthPages
import HomeBank.Proofs.Account
import HomeBank.Spec.Ledger
import HomeBank.Proofs.Ledger
import HomeBank.Spec.Statistics
import HomeBank.Proofs.Atomicity
import HomeBank.Spec.Payment
import HomeBank.Proofs.Confirm
import HomeBank.Proofs.Payment
import HomeBank.Spec.Session
import HomeBank.Proofs.Session
import HomeBank.Proofs.Statistics
import HomeBank.Spec.WeeklyCounts
import HomeBank.Proofs.WeeklyCounts
import HomeBank.Proofs.ListPages
import HomeBank.Proofs.Reconcile
import HomeBank.Proofs.JobViews
import HomeBank.Spec.WorkAdd
import HomeBank.Proofs.WorkAdd
import HomeBank.Proofs.FirstWrite
import HomeBank.Proofs.Contents
import HomeBank.Spec.PointEntry
import HomeBank.Proofs.PointEntry
import HomeBank.Proofs.Redemption
import HomeBank.Spec.EmailValidator
import HomeBank.Proofs.EmailValidator
import HomeBank.Spec.CustomInput
import HomeBank.Proofs.CustomInput
import HomeBank.Spec.StreamUpdates
import HomeBank.Proofs.StreamUpdates
import HomeBank.Spec.StoredDates
import HomeBank.Proofs.StoredDates
import HomeBank.Lib.Contention
import HomeBank.Proofs.JobCalls
import HomeBank.Proofs.Audit
import HomeBank.Proofs.PaymentCalls
import HomeBank.Lib.Locality
import HomeBank.Spec.Family
import HomeBank.Proofs.Family
import HomeBank.Spec.MonthNavigation
import HomeBank.Proofs.MonthNavigation
import HomeBank.Proofs.MonthStatistics
import HomeBank.Proofs.Books
import HomeBank.Spec.WorkCycle
import HomeBank.Proofs.WorkCycle
