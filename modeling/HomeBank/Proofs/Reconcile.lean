import HomeBank.Proofs.ListPages

/-! The statement of the child against the pages of the parent. The split of the records is
exact; the amounts agree except that the child's tile prints a second minus sign in front of
a negative number. -/

namespace HomeBank

open Dart Firestore Select

theorem shownAmount_append (cs : List Char) :
    shownAmount (String.ofList (cs ++ ['點'])) = integerOf (String.ofList cs) := by
  simp [shownAmount]

theorem shownAmount_detail (point : Int64) :
    shownAmount (DetailPage.amount point) = some point.toInt := by
  have htext : DetailPage.amount point =
      String.ofList (([' ', ' '] ++ (toString point.toInt).toList) ++ ['點']) := by
    rw [← String.toList_inj]
    simp only [DetailPage.amount, String.toList_append, String.toList_ofList]
    rfl
  rw [htext, shownAmount_append, integerOf_toString (List.all_eq_true.1 rfl)]

theorem shownAmount_award (point : Int64) :
    shownAmount (AwardPage.amount point) = some (-point).toInt := by
  have htext : AwardPage.amount point =
      String.ofList (([' ', ' '] ++ (toString (-point).toInt).toList) ++ ['點']) := by
    rw [← String.toList_inj]
    simp only [AwardPage.amount, String.toList_append, String.toList_ofList]
    rfl
  rw [htext, shownAmount_append, integerOf_toString (List.all_eq_true.1 rfl)]

/-- The sign on the child's tile is followed by the number with its own sign. -/
theorem toList_child_amount (point : Int64) : MyDetailPage.amount point =
    String.ofList (((if point > 0 then '+' else '-') :: point.toInt.repr.toList) ++ ['點']) := by
  rw [← String.toList_inj]
  simp only [MyDetailPage.amount, String.toList_append, String.toList_ofList]
  split <;> rfl

/-- The integer named by a sign with a number of its own behind it. -/
theorem integerOf_signed {sign : Char} (hsign : isWhitespace sign = false) (n : ℤ) :
    integerOf (String.ofList (sign :: n.repr.toList)) =
      (scanSign (sign :: n.repr.toList)).map Numeral.value := by
  refine integerOf_ofList (List.forall_mem_cons.2 ⟨hsign, fun c hc => ?_⟩)
  rw [Int.repr_eq_if] at hc
  split at hc
  · rw [Nat.toList_repr] at hc
    exact not_isWhitespace_of_mem_toDigits hc
  · rw [String.toList_append, Nat.toList_repr] at hc
    rcases List.mem_append.1 hc with hminus | hdigit
    · rw [List.mem_singleton.1 hminus]
      rfl
    · exact not_isWhitespace_of_mem_toDigits hdigit

theorem shownAmount_child_nonneg {point : Int64} (h : 0 ≤ point) :
    shownAmount (MyDetailPage.amount point) = some point.toInt := by
  have hpos : 0 ≤ point.toInt := Int64.le_iff_toInt_le.1 h
  rw [toList_child_amount, shownAmount_append]
  split
  · rw [integerOf_signed rfl, Int.repr_eq_if, if_pos hpos, Nat.toList_repr, scanSign,
      scanMagnitude_toDigits]
    exact congrArg some (Int.toNat_of_nonneg hpos)
  · next hzero =>
    -- only zero has the minus sign and is shown as itself
    have hle : ¬ (0 : Int64).toInt < point.toInt := fun hlt => hzero (Int64.lt_iff_toInt_lt.2 hlt)
    have hz : point.toInt = 0 := le_antisymm (not_lt.1 hle) hpos
    rw [integerOf_signed rfl, hz]
    decide +kernel

theorem shownAmount_child_neg {point : Int64} (h : ¬ 0 ≤ point) :
    shownAmount (MyDetailPage.amount point) = none := by
  have hneg : ¬ 0 ≤ point.toInt := fun hpos => h (Int64.le_iff_toInt_le.2 hpos)
  have hminus : ¬ point > 0 := fun hlt => hneg (le_of_lt (Int64.lt_iff_toInt_lt.1 hlt))
  have hlist : ("-" ++ (-point.toInt).toNat.repr).toList =
      '-' :: Nat.toDigits 10 (-point.toInt).toNat := by
    rw [String.toList_append, Nat.toList_repr]
    rfl
  rw [toList_child_amount, shownAmount_append, if_neg hminus, integerOf_signed rfl, Int.repr_eq_if,
    if_neg hneg, hlist, scanSign, scanMagnitude_minus, Option.map_none]

theorem shownSum_eq {amount : Int64 → String} {value : PointModel → ℤ} {data : List PointModel}
    (h : ∀ r ∈ data, shownAmount (amount r.point) = some (value r)) :
    shownSum amount data = some (data.map value).sum := by
  have hmap : (data.mapM fun r => shownAmount (amount r.point)) = some (data.map value) := by
    induction data with
    | nil => rfl
    | cons r data ih =>
      rw [List.forall_mem_cons] at h
      simp [h.1, ih h.2]
  rw [shownSum, hmap, Option.map_some]

theorem readable_of_shownSum {amount : Int64 → String} {data : List PointModel} {n : ℤ}
    (h : shownSum amount data = some n) : ∀ r ∈ data, shownAmount (amount r.point) ≠ none := by
  obtain ⟨l, hl, -⟩ := Option.map_eq_some_iff.1 h
  clear h
  induction data generalizing l with
  | nil => simp
  | cons r data ih =>
    simp only [List.mapM_cons, Option.bind_eq_bind, Option.bind_eq_some_iff] at hl
    obtain ⟨a, ha, rest, hrest, -⟩ := hl
    exact List.forall_mem_cons.2 ⟨by simp [ha], ih rest hrest⟩

section Month

variable {contains : DateRange → DateTime → Bool} {currentDate : DateTime}

theorem passes_month {dateString : String} (h : ∃ d, parseDate dateString = .ok d) :
    Selection.passes contains ⟨currentDate, []⟩ dateString =
      .ok (inMonthOf currentDate dateString) := by
  obtain ⟨d, hd⟩ := h
  simp only [Selection.passes, List.head?_nil, isInMonth, inMonthOf, hd]
  rfl

theorem exists_parseDate_of_passes {dateString : String} {b : Bool}
    (h : Selection.passes contains ⟨currentDate, []⟩ dateString = .ok b) :
    ∃ d, parseDate dateString = .ok d := by
  simp only [Selection.passes, List.head?_nil, isInMonth] at h
  cases hd : parseDate dateString with
  | error e => simp [hd, bind, Except.bind] at h
  | ok d => exact ⟨d, rfl⟩

/-- A month is selected as it should be when all dates can be read. -/
theorem where_month {α : Type} {own : α → Bool} {date : α → String} {data : List α}
    (h : ∀ element ∈ data, ∃ d, parseDate (date element) = .ok d) :
    Selection.where contains ⟨currentDate, []⟩ own date data =
      .ok ((data.filter fun element => inMonthOf currentDate (date element)).filter own) :=
  where_eq_ok fun element helement => passes_month (h element helement)

end Month

theorem toInt_neg_of_nonneg {point : Int64} (h : 0 ≤ point) : (-point).toInt = -point.toInt := by
  have hpos : 0 ≤ point.toInt := Int64.le_iff_toInt_le.1 h
  have hlt := point.toInt_lt
  rw [Int64.toInt_neg]
  exact Int.bmod_eq_of_le (by omega) (by omega)

/-- The award page shows what the detail page leaves out. -/
theorem awardPage_own : AwardPage.own = fun r => !DetailPage.own r := by
  funext r
  exact (Bool.not_not _).symm

/-- On records whose points are not negative the three pages agree. -/
theorem sums_agree {child : List PointModel} (h : ∀ r ∈ child, 0 ≤ r.point) :
    ∃ c d a : ℤ, shownSum MyDetailPage.amount child = some c ∧
      shownSum DetailPage.amount (child.filter DetailPage.own) = some d ∧
      shownSum AwardPage.amount (child.filter AwardPage.own) = some a ∧
      c = d - a ∧ c = (child.map fun r => r.point.toInt).sum := by
  have hperm := (List.filter_append_perm DetailPage.own child).map fun r => r.point.toInt
  have hsum := hperm.sum_eq
  rw [List.map_append, List.sum_append] at hsum
  have haward : ∀ r ∈ child.filter AwardPage.own, shownAmount (AwardPage.amount r.point) =
      some (-r.point.toInt) := by
    intro r hr
    rw [shownAmount_award, toInt_neg_of_nonneg (h r (List.mem_filter.1 hr).1)]
  refine ⟨_, _, _, shownSum_eq fun r hr => shownAmount_child_nonneg (h r hr),
    shownSum_eq fun r _ => shownAmount_detail r.point, shownSum_eq haward, ?_, rfl⟩
  have hneg : ((child.filter AwardPage.own).map fun r => -r.point.toInt).sum =
      -((child.filter AwardPage.own).map fun r => r.point.toInt).sum := by
    rw [List.sum_neg, List.map_map]
    rfl
  rw [hneg, ← hsum, awardPage_own]
  omega

/-- The three pages agree on a month exactly when all records can be dated and no record of
the month has a negative number of points. -/
theorem reconciles_iff (contains : DateRange → DateTime → Bool) (currentDate : DateTime)
    (data : List PointModel) : Reconciles contains currentDate data ↔
      (∀ r ∈ data, ∃ d, parseDate r.date = .ok d) ∧
        ∀ r ∈ data, inMonthOf currentDate r.date = true → 0 ≤ r.point := by
  refine ⟨?_, fun ⟨hdates, hpoints⟩ => ?_⟩
  · rintro ⟨child, detail, award, hchild, -, -, hmonth, -, -, c, -, -, hsum, -⟩
    refine ⟨fun r hr => ?_, fun r hr hin => ?_⟩
    · obtain ⟨b, hb⟩ := exists_ok_of_whereM hchild r (by simpa [MyDetailPage.own] using hr)
      exact exists_parseDate_of_passes hb
    · by_contra hneg
      have hmem : r ∈ child := hmonth ▸ List.mem_filter.2 ⟨hr, hin⟩
      exact readable_of_shownSum hsum r hmem (shownAmount_child_neg hneg)
  · have hchild : ∀ r ∈ data.filter fun r => inMonthOf currentDate r.date, 0 ≤ r.point := by
      intro r hr
      obtain ⟨hr, hin⟩ := List.mem_filter.1 hr
      exact hpoints r hr hin
    have hall : (data.filter fun r => inMonthOf currentDate r.date).filter MyDetailPage.own =
        data.filter fun r => inMonthOf currentDate r.date := List.filter_eq_self.2 fun _ _ => rfl
    refine ⟨_, _, _, where_month hdates, where_month hdates, where_month hdates, hall, ?_, ?_, ?_⟩
    · rw [hall, awardPage_own]
      exact List.filter_append_perm DetailPage.own _
    · intro r hdetail haward
      have howner := (List.mem_filter.1 hdetail).2
      have hother := (List.mem_filter.1 haward).2
      simp [awardPage_own, howner] at hother
    · rw [hall]
      exact sums_agree hchild

/-- A payment of minus five points, as the page of a child shows it. -/
def negativeRecord : PointModel := ⟨"", "transfer", "2024-03-05 12:00:00", -5, 2⟩

theorem negative_record_unreadable :
    MyDetailPage.amount negativeRecord.point = "--5點" ∧
    ¬ Reconciles betweenEnds sampleTime [negativeRecord] := by
  refine ⟨by decide +kernel, ?_⟩
  rintro ⟨child, detail, award, -, -, -, hmonth, -, -, c, -, -, hsum, -⟩
  have hchild : child = [negativeRecord] := hmonth.trans (by decide +kernel)
  rw [hchild] at hsum
  revert hsum
  have hnone : shownSum MyDetailPage.amount [negativeRecord] = none := by decide +kernel
  simp [hnone]

end HomeBank
