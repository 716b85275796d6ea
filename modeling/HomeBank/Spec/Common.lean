import Std.Data.String.ToInt
import HomeBank.Lib.DateTime
import HomeBank.Lib.Document

/-! The date helpers of `lib/common_functions.dart`: the key of a month list, the
text under which a date is stored, and the month test of the list pages. -/

namespace HomeBank

open Dart Decimal

/-- `String.padLeft` -/
def padLeft (s : String) (width : ℕ) (padding : Char) : String :=
  String.ofList (s.toList.leftpad width padding)

/-- `s.split(sep).first` for a separator of one character -/
def splitFirst (s : String) (sep : Char) : String :=
  String.ofList (s.toList.takeWhile (· ≠ sep))

def getYearMonth (date : DateTime) : String :=
  toString date.year ++ "-" ++ padLeft (toString date.month) 2 '0'

abbrev workTypes : List String := ["作業類", "家事類", "運動類", "藝術類"]

/-- `WORK_TYPES[i]` with one of the four indices that the pages write out -/
abbrev workType (i : ℕ) : String := workTypes.getD i ""

abbrev allWorkTypes : List String := ["作業類", "家事類", "運動類", "藝術類", "兌換獎勵"]

def getDateTimeString (date : DateTime) : String := splitFirst date.toString '.'

/-- `DateTime.parse`, with its exception -/
def parseDate (s : String) : Except Firestore.Exception DateTime :=
  match DateTime.parse s with
  | none => .error .formatException
  | some d => .ok d

def isInMonth (dateString : String) (compareDate : DateTime) :
    Except Firestore.Exception Bool := do
  let date ← parseDate dateString
  return date.year = compareDate.year && date.month = compareDate.month

/-- The key of the month list of a year and a month. -/
def monthKey (year : ℤ) (month : ℕ) : String :=
  toString year ++ "-" ++ padLeft (toString month) 2 '0'

theorem getYearMonth_eq (d : DateTime) : getYearMonth d = monthKey d.year d.month := rfl

theorem toList_monthKey (year : ℤ) (month : ℕ) :
    (monthKey year month).toList = (toString year).toList ++ '-' :: padded 2 month := by
  simp [monthKey, padLeft, padded, Nat.toList_repr]

/-- The year in a key has no fixed width; the month closes it with two digits. -/
theorem monthKey_inj {y y' : ℤ} {m m' : ℕ} (hm : m < 100) (hm' : m' < 100) :
    monthKey y m = monthKey y' m' ↔ y = y' ∧ m = m' := by
  refine ⟨?_, ?_⟩
  · intro h
    have hl := congrArg String.toList h
    rw [toList_monthKey, toList_monthKey] at hl
    have hlen : ('-' :: padded 2 m).length = ('-' :: padded 2 m').length := by
      rw [List.length_cons, List.length_cons, length_padded_of_lt (by decide) hm,
        length_padded_of_lt (by decide) hm']
    obtain ⟨hy, hmonth⟩ := List.append_inj' hl hlen
    refine ⟨?_, padded_injective 2 (List.cons.inj hmonth).2⟩
    exact Int.repr_injective (String.toList_inj.1 hy)
  · rintro ⟨rfl, rfl⟩
    rfl

theorem getYearMonth_inj {a b : DateTime} :
    getYearMonth a = getYearMonth b ↔ a.year = b.year ∧ a.month = b.month :=
  monthKey_inj (lt_of_le_of_lt a.month_le (by decide)) (lt_of_le_of_lt b.month_le (by decide))

theorem monthKey_ne_parent (year : ℤ) (month : ℕ) : monthKey year month ≠ "parent" := by
  intro h
  have hmem : '-' ∈ (monthKey year month).toList := by
    rw [toList_monthKey]
    simp
  rw [h] at hmem
  revert hmem
  decide

theorem getDateTimeString_eq (d : DateTime) : getDateTimeString d = String.ofList d.secondsText := by
  rw [getDateTimeString, splitFirst, DateTime.toString, String.toList_ofList,
    DateTime.takeWhile_toText]

/-- Reading a stored date gives the date-time up to its second. -/
theorem parseDate_getDateTimeString (d : DateTime) :
    parseDate (getDateTimeString d) = .ok d.toSecond := by
  rw [parseDate, getDateTimeString_eq, DateTime.parse_secondsText]

@[simp] theorem getDateTimeString_toSecond (d : DateTime) :
    getDateTimeString d.toSecond = getDateTimeString d := by
  rw [getDateTimeString_eq, getDateTimeString_eq, DateTime.secondsText_toSecond]

theorem getDateTimeString_inj {a b : DateTime} :
    getDateTimeString a = getDateTimeString b ↔ a.toSecond = b.toSecond := by
  refine ⟨?_, ?_⟩
  · intro h
    have hp := congrArg parseDate h
    rw [parseDate_getDateTimeString, parseDate_getDateTimeString] at hp
    exact Except.ok.inj hp
  · intro h
    rw [← getDateTimeString_toSecond a, h, getDateTimeString_toSecond]

theorem getDateTimeString_le {a b : DateTime} (h : a.stamp ≤ b.stamp)
    (ha : 0 ≤ a.year ∧ a.year ≤ 9999) (hb : 0 ≤ b.year ∧ b.year ≤ 9999) :
    getDateTimeString a ≤ getDateTimeString b := by
  rw [getDateTimeString_eq, getDateTimeString_eq, String.le_iff_toList_le, String.toList_ofList,
    String.toList_ofList]
  exact DateTime.secondsText_le h ha hb

@[simp] theorem getYearMonth_toSecond (d : DateTime) : getYearMonth d.toSecond = getYearMonth d := rfl

/-- The month test on a stored date compares the keys of the month lists. -/
theorem isInMonth_getDateTimeString (a d : DateTime) :
    isInMonth (getDateTimeString a) d = .ok (decide (getYearMonth a = getYearMonth d)) := by
  rw [isInMonth, parseDate_getDateTimeString]
  refine congrArg Except.ok ?_
  rw [Bool.eq_iff_iff, Bool.and_eq_true, decide_eq_true_iff, decide_eq_true_iff,
    decide_eq_true_iff, getYearMonth_inj]
  rfl

/-- The time that a text gives. -/
def timeOf (s : String) (h : (DateTime.parse s).isSome = true) : DateTime := (DateTime.parse s).get h

/-- The time of day in the runs below. -/
def sampleTime : DateTime := timeOf "2024-03-05 12:00:00" (by decide +kernel)

end HomeBank
