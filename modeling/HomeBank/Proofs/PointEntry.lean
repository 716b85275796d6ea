import HomeBank.Proofs.Atomicity
import HomeBank.Spec.PointEntry

/-! What the forms make of the text in the points field. Any text reaches `changePoint`, as 0
when it is no integer, and every call that returns stores at least one record. -/

namespace HomeBank

open Dart Firestore Transaction

theorem recorded_appended (args : PointArgs) (total : Int64) (today : DateTime) (doc : PointDoc) :
    Ledger.recorded (appended args total today doc) = args ::ₘ Ledger.recorded doc := by
  rw [Ledger.recorded, appended, rows_append, Multiset.map_cons]
  rfl

theorem recorded_appendedAll (args : PointArgs) (total : Int64) (times : List DateTime)
    (doc : PointDoc) : Ledger.recorded (appendedAll args total times doc) =
      Multiset.replicate times.length args + Ledger.recorded doc := by
  unfold appendedAll
  induction times generalizing doc with
  | nil => simp
  | cons today times ih =>
    rw [List.foldl_cons, ih, recorded_appended, List.length_cons, Multiset.replicate_succ,
      Multiset.cons_add, Multiset.add_cons]

/-- The users transaction is accepted at its first attempt. -/
def firstAccepted : List (Fate × RecordScript) → Bool
  | (.accepted, _) :: _ => true
  | _ => false

theorem isSome_accepted {point : Option PointDoc} {inner : RecordScript}
    (h : recordReturns point inner = true) : (accepted inner).isSome = true := by
  induction inner with
  | nil => cases h
  | cons attempt rest ih =>
    obtain ⟨fate, today⟩ := attempt
    cases fate with
    | readFails => cases h
    | refused =>
      simp only [recordReturns, Bool.and_eq_true] at h
      exact ih h.2
    | accepted => rfl

theorem clocks_ne_nil {users : Option UserDoc} {point : Option PointDoc}
    {fates : List (Fate × RecordScript)} (h : runsThrough users point fates = true) :
    clocks fates ≠ [] := by
  cases fates with
  | nil => cases h
  | cons attempt rest =>
    obtain ⟨fate, inner⟩ := attempt
    cases fate <;> simp only [runsThrough, recordStored, Bool.and_eq_true, Bool.false_eq_true] at h
    · obtain ⟨today, htoday⟩ := Option.isSome_iff_exists.1 (isSome_accepted h.1.2.2)
      simp [clocks, htoday]
    · obtain ⟨today, htoday⟩ := Option.isSome_iff_exists.1 (isSome_accepted h.2.2)
      simp [clocks, htoday]

/-- A call stores a single record exactly when its first attempt is accepted. -/
theorem length_clocks_iff {users : Option UserDoc} {point : Option PointDoc}
    {fates : List (Fate × RecordScript)} (h : runsThrough users point fates = true) :
    (clocks fates).length = 1 ↔ firstAccepted fates = true := by
  cases fates with
  | nil => cases h
  | cons attempt rest =>
    obtain ⟨fate, inner⟩ := attempt
    cases fate <;> simp only [runsThrough, recordStored, Bool.and_eq_true, Bool.false_eq_true] at h
    · obtain ⟨today, htoday⟩ := Option.isSome_iff_exists.1 (isSome_accepted h.1.2.2)
      have hrest := List.length_pos_of_ne_nil (clocks_ne_nil h.2)
      simp only [clocks, htoday, firstAccepted, Option.toList_some, List.length_append,
        List.length_singleton, Bool.false_eq_true, iff_false]
      omega
    · obtain ⟨today, htoday⟩ := Option.isSome_iff_exists.1 (isSome_accepted h.2.2)
      simp [clocks, htoday, firstAccepted]

theorem oneNewRecord_iff {users : Option UserDoc} {point : Option PointDoc}
    {fates : List (Fate × RecordScript)} (h : runsThrough users point fates = true) (args : PointArgs)
    (total : Int64) (doc : PointDoc) :
    OneNewRecord args (some doc) (some (appendedAll args total (clocks fates) doc)) ↔
      firstAccepted fates = true := by
  rw [← length_clocks_iff h]
  refine ⟨?_, fun hone => ⟨doc, _, rfl, rfl, ?_⟩⟩
  · intro ⟨_, _, hbefore, hafter, hrecorded⟩
    cases hbefore
    cases hafter
    have hcard := congrArg Multiset.card hrecorded
    rw [recorded_appendedAll, Multiset.card_add, Multiset.card_replicate, Multiset.card_cons] at hcard
    omega
  · rw [recorded_appendedAll, hone]
    rfl

/-- No call that returns leaves the records as they were. -/
theorem appendedAll_ne {users : Option UserDoc} {point : Option PointDoc}
    {fates : List (Fate × RecordScript)} (h : runsThrough users point fates = true) (args : PointArgs)
    (total : Int64) (doc : PointDoc) : appendedAll args total (clocks fates) doc ≠ doc := by
  intro hsame
  have hcard := congrArg (fun doc => (Ledger.recorded doc).card) hsame
  have hpos := List.length_pos_of_ne_nil (clocks_ne_nil h)
  simp only [recorded_appendedAll, Multiset.card_add, Multiset.card_replicate] at hcard
  omega

section Entry

variable {email pointText : String} {sign : ℤ} {args : PointArgs}

/-- The number, or its sum with the balance, does not fit in 64 bits. -/
def Overflows (users : Option UserDoc) (sign n : ℤ) : Prop :=
  2 ^ 63 ≤ n ∨ ∀ balance, intField users "point" = .ok balance →
    balance.toInt + sign * n < -2 ^ 63 ∨ 2 ^ 63 ≤ balance.toInt + sign * n

theorem toInt_add_ofInt {balance : Int64} {m : ℤ} (hm : -2 ^ 63 ≤ m ∧ m < 2 ^ 63)
    (hlo : -2 ^ 63 ≤ balance.toInt + m) (hhi : balance.toInt + m < 2 ^ 63) :
    (balance + .ofInt m).toInt = balance.toInt + m := by
  rw [Int64.toInt_add, Int64.toInt_ofInt_of_le hm.1 hm.2]
  exact Int.bmod_eq_of_le (by omega) (by omega)

/-- What is asked of every completed call holds when the call throws, or when it is so after the
call. -/
theorem completed_iff {fates : List (Fate × RecordScript)} {db : Db} {Q : Db → Prop} {C : Prop}
    (h : ∀ db', changePoint email args fates db = (.ok (), db') → (Q db' ↔ C)) :
    (∀ db', changePoint email args fates db = (.ok (), db') → Q db') ↔
      runsThrough (db.users email) (db.point email) fates = false ∨ C := by
  have hreturns := changePoint_returns args email fates db
  cases hres : changePoint email args fates db with
  | mk res db' =>
    rw [hres] at hreturns h
    cases res with
    | error e =>
      refine iff_of_true (fun db₁ h => by cases h) (.inl ?_)
      rw [← Bool.not_eq_true, ← hreturns]
      simp
    | ok _ =>
      have hruns := hreturns.1 rfl
      rw [hruns]
      refine ⟨fun hall => .inr ((h db' rfl).1 (hall db' rfl)), fun hor db₁ heq => ?_⟩
      exact (h db₁ heq).2 (hor.resolve_left (by decide))

theorem runsThrough_of_ok {fates : List (Fate × RecordScript)} {db db' : Db}
    (h : changePoint email args fates db = (.ok (), db')) :
    runsThrough (db.users email) (db.point email) fates = true :=
  (changePoint_returns args email fates db).1 (by rw [h])

/-- A completed flow moves the points as stated exactly when the text is a positive integer,
and the call takes one attempt unless the numbers overflow. -/
theorem movesPoints_iff (hsign : sign = 1 ∨ sign = -1)
    (hargs : ∀ n, integerOf pointText = some n → 0 < n → n < 2 ^ 63 → args.point = .ofInt (sign * n))
    {fates : List (Fate × RecordScript)} {db db' : Db}
    (h : changePoint email args fates db = (.ok (), db')) :
    MovesPoints email args.type args.note pointText sign db db' ↔
      ∃ n, integerOf pointText = some n ∧ 0 < n ∧
        (firstAccepted fates = true ∨ Overflows (db.users email) sign n) := by
  have hruns := runsThrough_of_ok h
  obtain ⟨d, p, balance, hd, hp, hbalance, husers', hpoint'⟩ := changePoint_ok args h
  have hbalance' : intField (db'.users email) "point" = .ok (balance + args.point) := by
    rw [husers']
    exact intField_insert d "point" _
  have hone := oneNewRecord_iff hruns args (balance + args.point) p
  rw [← hpoint', ← hp] at hone
  refine ⟨?_, ?_⟩
  · intro ⟨hinvalid, hvalid⟩
    by_cases hpositive : ∃ n, integerOf pointText = some n ∧ 0 < n
    · obtain ⟨n, hn, hpos⟩ := hpositive
      refine ⟨n, hn, hpos, or_iff_not_imp_right.2 fun hfits => ?_⟩
      simp only [Overflows, not_or, not_forall, not_le, not_lt] at hfits
      obtain ⟨hlt, balance₁, hbalance₁, hlo, hhi⟩ := hfits
      obtain ⟨_, -, -, hnew⟩ := hvalid n balance₁ hn hpos hlt hbalance₁ hlo hhi
      rwa [← hargs n hn hpos hlt, hone] at hnew
    · -- a text that is no positive integer has stored a record all the same
      have hsame := (hinvalid fun n hn => not_lt.1 fun hpos => hpositive ⟨n, hn, hpos⟩).2
      rw [hpoint', hp] at hsame
      exact absurd (Option.some.inj hsame) (appendedAll_ne hruns args _ p)
  · intro ⟨n, hn, hpos, hor⟩
    refine ⟨fun h => absurd (h n hn) (not_le.2 hpos), ?_⟩
    intro n₁ balance₁ hn₁ _ hlt hbalance₁ hlo hhi
    obtain rfl : n = n₁ := Option.some.inj (hn.symm.trans hn₁)
    have hfirst : firstAccepted fates = true := by
      refine hor.resolve_right fun hover => ?_
      rcases hover with hbig | hover
      · omega
      · rcases hover balance₁ hbalance₁ with h | h <;> omega
    obtain rfl : balance = balance₁ := by
      rw [hd, hbalance] at hbalance₁
      exact Except.ok.inj hbalance₁
    have hpoint := hargs n hn hpos hlt
    refine ⟨_, hbalance', ?_, hpoint ▸ hone.2 hfirst⟩
    rw [hpoint]
    exact toInt_add_ofInt (by rcases hsign with rfl | rfl <;> omega) hlo hhi

end Entry

theorem tryParse_getD {pointText : String} {n : ℤ} (h : integerOf pointText = some n) (hpos : 0 < n)
    (hlt : n < 2 ^ 63) : (tryParse pointText).getD 0 = .ofInt n := by
  rw [tryParse_of_integerOf h (by omega) hlt, Option.getD_some]

/-- Both flows move points as stated exactly when they are not completed, or the text is a
positive integer and the users transaction is accepted at once, unless the numbers overflow. -/
theorem point_entry_iff (email noteText pointText : String) (selectedDate : DateTime)
    (fates : List (Fate × RecordScript)) (db : Db) :
    ((∀ db', TransferConfirmPage.onTap (TransferPage.onTap email noteText pointText) fates db =
        (.ok (), db') → MovesPoints email "" noteText pointText 1 db db') ↔
      runsThrough (db.users email) (db.point email) fates = false ∨
        ∃ n, integerOf pointText = some n ∧ 0 < n ∧
          (firstAccepted fates = true ∨ Overflows (db.users email) 1 n)) ∧
    ((∀ db', AwardAddPage.onPressed ⟨selectedDate, email, noteText, pointText⟩ fates db =
        (.ok (), db') → MovesPoints email "兌換獎勵" noteText pointText (-1) db db') ↔
      runsThrough (db.users email) (db.point email) fates = false ∨
        ∃ n, integerOf pointText = some n ∧ 0 < n ∧
          (firstAccepted fates = true ∨ Overflows (db.users email) (-1) n)) := by
  refine ⟨completed_iff fun db' h => movesPoints_iff (.inl rfl) (fun n hn hpos hlt => ?_) h,
    completed_iff fun db' h => movesPoints_iff (.inr rfl) (fun n hn hpos hlt => ?_) h⟩
  · rw [one_mul]
    exact tryParse_getD hn hpos hlt
  · rw [neg_one_mul, Int64.ofInt_neg]
    exact congrArg Neg.neg (tryParse_getD hn hpos hlt)

def sampleDb : Db := ⟨fun _ => some sampleUsers, fun _ => some samplePoint, fun _ => none⟩

/-- An empty text in the transfer form. -/
def emptyTransfer : Except Exception Unit × Db :=
  TransferConfirmPage.onTap (TransferPage.onTap "child@example.com" "gift" "") (acceptedAt sampleTime)
    sampleDb

/-- A redemption of minus five points. -/
def negativeRedemption : Except Exception Unit × Db :=
  AwardAddPage.onPressed ⟨sampleTime, "child@example.com", "ice cream", "-5"⟩ (acceptedAt sampleTime)
    sampleDb

/-- The empty text leaves a record behind, and the negative redemption raises the balance. -/
theorem invalid_text_moves_points :
    (emptyTransfer.1 = .ok () ∧ integerOf "" = none ∧
      emptyTransfer.2.point "child@example.com" ≠ sampleDb.point "child@example.com" ∧
      ¬ MovesPoints "child@example.com" "" "gift" "" 1 sampleDb emptyTransfer.2) ∧
    negativeRedemption.1 = .ok () ∧ integerOf "-5" = some (-5) ∧
      intField (sampleDb.users "child@example.com") "point" = .ok 0 ∧
      intField (negativeRedemption.2.users "child@example.com") "point" = .ok 5 ∧
      ¬ MovesPoints "child@example.com" "兌換獎勵" "ice cream" "-5" (-1) sampleDb
        negativeRedemption.2 := by
  have hempty : integerOf "" = none := by decide +kernel
  have hminus : integerOf "-5" = some (-5) := by decide +kernel
  have hrecord : emptyTransfer.2.point "child@example.com" ≠ sampleDb.point "child@example.com" := by
    intro hsame
    have hread := congrArg (fun doc => (getPointRecord doc).toOption.map Records.all) hsame
    revert hread
    decide +kernel
  have hbefore : intField (sampleDb.users "child@example.com") "point" = .ok 0 := by decide +kernel
  have hafter : intField (negativeRedemption.2.users "child@example.com") "point" = .ok 5 := by
    decide +kernel
  refine ⟨⟨by decide +kernel, hempty, hrecord, fun h => ?_⟩, by decide +kernel, hminus, hbefore,
    hafter, fun h => ?_⟩
  · refine hrecord (h.1 (fun n hn => ?_)).2
    rw [hempty] at hn
    cases hn
  · have hsame := (h.1 fun n hn => by rw [hminus] at hn; cases hn; decide).1
    rw [hbefore, hafter] at hsame
    cases hsame

end HomeBank
