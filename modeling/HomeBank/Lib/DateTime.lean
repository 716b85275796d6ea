import Mathlib.Logic.Function.Iterate
import Mathlib.Tactic.Ring
import HomeBank.Lib.Digits

/-! Dart's `DateTime` as a civil date-time without time zones: calendar dates,
the constructor's overflow of out-of-range fields, `toString`, and `parse` on the
format that Dart documents. An offset in a parsed text is applied and the result
is in UTC; local times are taken as they are written. -/

namespace Dart

open Decimal

def isLeapYear (year : ℤ) : Bool :=
  year % 4 = 0 && (year % 100 ≠ 0 || year % 400 = 0)

def daysInMonth (year : ℤ) : ℕ → ℕ
  | 2 => if isLeapYear year then 29 else 28
  | 4 | 6 | 9 | 11 => 30
  | _ => 31

theorem daysInMonth_pos (year : ℤ) (month : ℕ) : 1 ≤ daysInMonth year month := by
  unfold daysInMonth
  split <;> (try split) <;> omega

theorem daysInMonth_le (year : ℤ) (month : ℕ) : daysInMonth year month ≤ 31 := by
  unfold daysInMonth
  split <;> (try split) <;> omega

/-- A day of the calendar, in the proleptic Gregorian calendar. -/
@[ext]
structure Date where
  year : ℤ
  month : ℕ
  day : ℕ
  month_pos : 1 ≤ month
  month_le : month ≤ 12
  day_pos : 1 ≤ day
  day_le : day ≤ daysInMonth year month
  deriving DecidableEq

namespace Date

def first (year : ℤ) (month : ℕ) (hpos : 1 ≤ month) (hle : month ≤ 12) : Date :=
  ⟨year, month, 1, hpos, hle, le_rfl, daysInMonth_pos year month⟩

def next (d : Date) : Date :=
  if h : d.day < daysInMonth d.year d.month then
    ⟨d.year, d.month, d.day + 1, d.month_pos, d.month_le, by omega, h⟩
  else if h : d.month < 12 then first d.year (d.month + 1) (by omega) h
  else first (d.year + 1) 1 le_rfl (by omega)

def prev (d : Date) : Date :=
  if h : 1 < d.day then
    ⟨d.year, d.month, d.day - 1, d.month_pos, d.month_le, by omega,
      (Nat.sub_le _ _).trans d.day_le⟩
  else if h : 1 < d.month then
    ⟨d.year, d.month - 1, daysInMonth d.year (d.month - 1), by omega,
      (Nat.sub_le _ _).trans d.month_le, daysInMonth_pos _ _, le_rfl⟩
  else ⟨d.year - 1, 12, 31, by omega, le_rfl, by omega, le_rfl⟩

/-- The first day of the month before. -/
def previousMonth (d : Date) : Date :=
  if h : 1 < d.month then
    first d.year (d.month - 1) (by omega) ((Nat.sub_le _ _).trans d.month_le)
  else first (d.year - 1) 12 (by omega) le_rfl

def nextMonth (d : Date) : Date :=
  if h : d.month < 12 then first d.year (d.month + 1) (by omega) h
  else first (d.year + 1) 1 le_rfl (by omega)

def addDays (d : Date) : ℤ → Date
  | .ofNat n => next^[n] d
  | .negSucc n => prev^[n + 1] d

theorem next_of_lt (d : Date) (h : d.day < daysInMonth d.year d.month) :
    d.next = ⟨d.year, d.month, d.day + 1, d.month_pos, d.month_le, by omega, h⟩ := dif_pos h

/-- Days added inside a month only move the day. -/
theorem next_iterate (d : Date) (n : ℕ) (h : d.day + n ≤ daysInMonth d.year d.month) :
    next^[n] d = ⟨d.year, d.month, d.day + n, d.month_pos, d.month_le,
      Nat.le_add_right_of_le d.day_pos, h⟩ := by
  induction n generalizing d with
  | zero => rfl
  | succ n ih =>
    rw [Function.iterate_succ_apply, next_of_lt d (by omega), ih _ (by simp only; omega)]
    ext <;> simp only
    omega

theorem first_addDays (d : Date) :
    (first d.year d.month d.month_pos d.month_le).addDays (d.day - 1 : ℤ) = d := by
  have hday := d.day_le
  have hn : (d.day - 1 : ℤ) = Int.ofNat (d.day - 1) := by
    have := d.day_pos
    simp only [Int.ofNat_eq_natCast]
    omega
  rw [hn, addDays, next_iterate _ _ (by simp only [first]; have := d.day_pos; omega)]
  ext
  · rfl
  · rfl
  · simp only [first]
    have := d.day_pos
    omega

end Date

/-- A number that grows with the date-time, for comparing and for the range of `DateTime`. -/
def stampOf (year : ℤ) (month day hour minute second micros : ℕ) : ℤ :=
  (year * 10000 + month * 100 + day) * 86400000000 +
    (((hour * 60 + minute) * 60 + second) * 1000000 + micros : ℕ)

/-- Dart's `DateTime` reaches 100,000,000 days to both sides of 1970-01-01. -/
def InRange (stamp : ℤ) : Prop :=
  stampOf (-271821) 4 20 0 0 0 0 ≤ stamp ∧ stamp ≤ stampOf 275760 9 13 0 0 0 0

instance (stamp : ℤ) : Decidable (InRange stamp) := inferInstanceAs (Decidable (_ ∧ _))

@[ext]
structure DateTime extends Date where
  hour : ℕ
  minute : ℕ
  second : ℕ
  millisecond : ℕ
  microsecond : ℕ
  isUtc : Bool
  hour_lt : hour < 24
  minute_lt : minute < 60
  second_lt : second < 60
  millisecond_lt : millisecond < 1000
  microsecond_lt : microsecond < 1000
  inRange : InRange (stampOf year month day hour minute second (millisecond * 1000 + microsecond))
  deriving DecidableEq

namespace DateTime

def stamp (d : DateTime) : ℤ :=
  stampOf d.year d.month d.day d.hour d.minute d.second (d.millisecond * 1000 + d.microsecond)

theorem bounds (d : DateTime) : 1 ≤ d.month ∧ d.month ≤ 12 ∧ 1 ≤ d.day ∧ d.day ≤ 31 ∧ d.hour < 24 ∧
    d.minute < 60 ∧ d.second < 60 ∧ d.millisecond < 1000 ∧ d.microsecond < 1000 :=
  ⟨d.month_pos, d.month_le, d.day_pos, d.day_le.trans (daysInMonth_le d.year d.month), d.hour_lt,
    d.minute_lt, d.second_lt, d.millisecond_lt, d.microsecond_lt⟩

theorem year_bounds (d : DateTime) : -271821 ≤ d.year ∧ d.year ≤ 275760 := by
  obtain ⟨hlo, hhi⟩ := d.inRange
  have hbounds := d.bounds
  simp only [stampOf] at hlo hhi
  push_cast at hlo hhi
  omega

theorem natAbs_year_lt (d : DateTime) : d.year.natAbs < 10 ^ 6 := by
  have := d.year_bounds
  omega

/-- The date-time with its sub-second part and its UTC mark dropped. -/
def toSecond (d : DateTime) : DateTime :=
  { d with
    millisecond := 0
    microsecond := 0
    isUtc := false
    millisecond_lt := by decide
    microsecond_lt := by decide
    inRange := by
      obtain ⟨hlo, hhi⟩ := d.inRange
      have := d.millisecond_lt
      have := d.microsecond_lt
      simp only [InRange, stampOf] at hlo hhi ⊢
      push_cast at hlo hhi ⊢
      omega }

/-- The beginning of the day. -/
def midnight (d : DateTime) : DateTime :=
  { d with
    hour := 0
    minute := 0
    second := 0
    millisecond := 0
    microsecond := 0
    hour_lt := by decide
    minute_lt := by decide
    second_lt := by decide
    millisecond_lt := by decide
    microsecond_lt := by decide
    inRange := by
      obtain ⟨hlo, hhi⟩ := d.inRange
      have hbounds := d.bounds
      simp only [InRange, stampOf] at hlo hhi ⊢
      push_cast at hlo hhi ⊢
      omega }

theorem midnight_stamp_le (d : DateTime) : d.midnight.stamp ≤ d.stamp := by
  simp only [stamp, stampOf, midnight]
  push_cast
  omega

/-- No midnight lies between a date-time and the beginning of its day. -/
theorem stamp_le_midnight {a b : DateTime} (ha : a.midnight = a) (h : a.stamp ≤ b.stamp) :
    a.stamp ≤ b.midnight.stamp := by
  have hbounds := b.bounds
  rw [← ha] at h ⊢
  simp only [stamp, stampOf, midnight] at h ⊢
  push_cast at h ⊢
  omega

/-- `DateTime._fourDigits`: the sign, then at least four digits. -/
def yearText (year : ℤ) : List Char :=
  (if year < 0 then ['-'] else []) ++ padded 4 year.natAbs

/-- `toString` up to the seconds. -/
def secondsText (d : DateTime) : List Char :=
  yearText d.year ++ '-' :: (padded 2 d.month ++ '-' :: (padded 2 d.day ++ ' ' ::
    (padded 2 d.hour ++ ':' :: (padded 2 d.minute ++ ':' :: padded 2 d.second))))

/-- `y-MM-dd HH:mm:ss.mmm`, three more digits when there are microseconds, and `Z` for UTC. -/
def toText (d : DateTime) : List Char :=
  d.secondsText ++ '.' :: (padded 3 d.millisecond ++
    ((if d.microsecond = 0 then [] else padded 3 d.microsecond) ++ if d.isUtc then ['Z'] else []))

def toString (d : DateTime) : String := String.ofList d.toText

theorem secondsText_toSecond (d : DateTime) : d.toSecond.secondsText = d.secondsText := rfl

/-! A later date-time is in no earlier month, and its text is no smaller. -/

theorem toSecond_stamp_le {a b : DateTime} (h : a.stamp ≤ b.stamp) :
    a.toSecond.stamp ≤ b.toSecond.stamp := by
  have ha := a.bounds
  have hb := b.bounds
  simp only [stamp, stampOf, toSecond] at h ⊢
  push_cast at h ⊢
  omega

theorem fields_of_stamp_le {a b : DateTime} (h : a.stamp ≤ b.stamp) :
    a.year < b.year ∨ a.year = b.year ∧ (a.month < b.month ∨ a.month = b.month ∧
      (a.day < b.day ∨ a.day = b.day ∧ (a.hour < b.hour ∨ a.hour = b.hour ∧
        (a.minute < b.minute ∨ a.minute = b.minute ∧ a.second ≤ b.second)))) := by
  have ha := a.bounds
  have hb := b.bounds
  simp only [stamp, stampOf] at h
  push_cast at h
  omega

theorem month_of_stamp_le {a b : DateTime} (h : a.stamp ≤ b.stamp) :
    a.year < b.year ∨ a.year = b.year ∧ a.month ≤ b.month := by
  have := fields_of_stamp_le h
  omega

theorem cons_padded_le (c : Char) {m n : ℕ} (hm : m < 100) (hn : n < 100) {r r' : List Char}
    (h : m < n ∨ m = n ∧ r ≤ r') : c :: (padded 2 m ++ r) ≤ c :: (padded 2 n ++ r') := by
  exact append_le_append_left [c] (padded_append_le (by decide) hm hn h)

/-- As long as years have four digits, the texts are in the order of time. -/
theorem secondsText_le {a b : DateTime} (h : a.stamp ≤ b.stamp) (ha : 0 ≤ a.year ∧ a.year ≤ 9999)
    (hb : 0 ≤ b.year ∧ b.year ≤ 9999) : a.secondsText ≤ b.secondsText := by
  have hbounds := a.bounds
  have hbounds' := b.bounds
  rw [secondsText, secondsText, yearText, yearText, if_neg (by omega), if_neg (by omega),
    List.nil_append, List.nil_append]
  refine padded_append_le (by decide) (by omega) (by omega) ?_
  rcases fields_of_stamp_le h with hy | ⟨hy, hmonth⟩
  · exact .inl (by omega)
  refine .inr ⟨by omega, cons_padded_le '-' (by omega) (by omega) (hmonth.imp_right ?_)⟩
  refine And.imp_right fun hday => cons_padded_le '-' (by omega) (by omega) (hday.imp_right ?_)
  refine And.imp_right fun hhour => cons_padded_le ' ' (by omega) (by omega) (hhour.imp_right ?_)
  refine And.imp_right fun hmin => cons_padded_le ':' (by omega) (by omega) (hmin.imp_right ?_)
  refine And.imp_right fun hsec => ?_
  have hlast : ':' :: (padded 2 a.second ++ []) ≤ ':' :: (padded 2 b.second ++ []) :=
    cons_padded_le ':' (by omega) (by omega)
      (hsec.lt_or_eq.imp_right fun heq => ⟨heq, le_rfl⟩)
  simpa using hlast

theorem ne_dot_of_mem_padded {k n : ℕ} {c : Char} (h : c ∈ padded k n) : c ≠ '.' := by
  rintro rfl
  have := isDigit_of_mem_padded h
  revert this
  decide

theorem ne_dot_of_mem_secondsText {d : DateTime} {c : Char} (h : c ∈ d.secondsText) : c ≠ '.' := by
  simp only [secondsText, yearText, List.mem_append, List.mem_cons] at h
  rcases h with (h | h) | rfl | h | rfl | h | rfl | h | rfl | h | rfl | h
  · split at h
    · rw [List.mem_singleton.1 h]
      decide
    · cases h
  all_goals first | exact ne_dot_of_mem_padded h | decide

/-- Splitting `toString` at its dots leaves the text up to the seconds as the first piece. -/
theorem takeWhile_toText (d : DateTime) : d.toText.takeWhile (· ≠ '.') = d.secondsText := by
  rw [toText, List.takeWhile_append_of_pos]
  · simp
  · intro c hc
    simpa using ne_dot_of_mem_secondsText hc

/-! The format of `DateTime.parse`, as the regular expression in its documentation: a
signed year of four to six digits, month and day with optional hyphens, then
optionally a time and a zone. -/

/-- The fields of a text that has the format, still out of range where the text is. -/
structure Fields where
  year : ℤ
  month : ℕ
  day : ℕ
  hour : ℕ
  minute : ℕ
  second : ℕ
  micros : ℕ
  /-- minutes east of UTC -/
  offset : ℤ
  isUtc : Bool

def skip (c : Char) : List Char → List Char
  | [] => []
  | x :: xs => if x = c then xs else x :: xs

/-- `[+-]?\d{k}` -/
def scanYear (k : ℕ) : List Char → Option (ℤ × List Char)
  | '-' :: cs => (scan k cs).map fun (n, rest) => (-n, rest)
  | '+' :: cs => (scan k cs).map fun (n, rest) => (n, rest)
  | cs => (scan k cs).map fun (n, rest) => (n, rest)

/-- `( ?[zZ]| ?([-+])(\d\d)(?::?(\d\d))?)?$` -/
def scanZone (f : Fields) (cs : List Char) : Option Fields :=
  match cs, skip ' ' cs with
  | [], _ => some f
  | _, ['z'] | _, ['Z'] => some { f with isUtc := true }
  | _, sign :: rest =>
    if sign = '+' ∨ sign = '-' then
      (scan 2 rest).bind fun (hours, rest) =>
        let east (minutes : ℕ) : Fields :=
          { f with
            offset := (if sign = '-' then -1 else 1) * (60 * hours + minutes : ℕ)
            isUtc := true }
        match rest with
        | [] => some (east 0)
        | rest =>
          (scan 2 (skip ':' rest)).bind fun (minutes, rest) =>
            if rest = [] then some (east minutes) else none
    else none
  | _, [] => none

/-- `[.,](\d+)` in microseconds: six digits count, missing ones are zeros. -/
def scanFraction : List Char → Option (ℕ × List Char)
  | c :: cs =>
    let ds := cs.takeWhile Char.isDigit
    if (c = '.' ∨ c = ',') ∧ ds ≠ [] then
      some (Nat.ofDigitChars 10 ((ds ++ List.replicate 6 '0').take 6) 0, cs.drop ds.length)
    else none
  | [] => none

/-- `(?:[ T](\d\d)(?::?(\d\d)(?::?(\d\d)(?:[.,](\d+))?)?)?(zone)?)?$` -/
def scanTime (f : Fields) : List Char → Option Fields
  | [] => some f
  | c :: cs =>
    if c = ' ' ∨ c = 'T' then
      (scan 2 cs).bind fun (hour, cs) =>
        let f := { f with hour }
        match scan 2 (skip ':' cs) with
        | none => scanZone f cs
        | some (minute, cs) =>
          let f := { f with minute }
          match scan 2 (skip ':' cs) with
          | none => scanZone f cs
          | some (second, cs) =>
            let f := { f with second }
            match scanFraction cs with
            | none => scanZone f cs
            | some (micros, cs) => scanZone { f with micros } cs
    else none

/-- The whole format with a year of `k` digits. -/
def scanFields (k : ℕ) (cs : List Char) : Option Fields :=
  (scanYear k cs).bind fun (year, cs) =>
    (scan 2 (skip '-' cs)).bind fun (month, cs) =>
      (scan 2 (skip '-' cs)).bind fun (day, cs) =>
        scanTime ⟨year, month, day, 0, 0, 0, 0, 0, false⟩ cs

/-- Seconds since the start of the day, not yet carried into other days. -/
def Fields.seconds (f : Fields) : ℤ := ((f.hour * 60 + f.minute : ℤ) - f.offset) * 60 + f.second

/-- The day of the fields: months past twelve, days past the month and times past the
day overflow into the next larger field. -/
def Fields.date (f : Fields) : Date :=
  (Date.first (f.year + (f.month - 1 : ℤ) / 12) (((f.month - 1 : ℤ) % 12).toNat + 1) (by omega)
    (by omega)).addDays (f.day - 1 + f.seconds / 86400)

/-- The second of that day. -/
def Fields.clock (f : Fields) : ℕ := (f.seconds % 86400).toNat

def ofParts (date : Date) (clock micros : ℕ) (isUtc : Bool) : Option DateTime :=
  if h : clock < 86400 ∧ micros < 1000000 ∧ InRange (stampOf date.year date.month date.day
      (clock / 3600) (clock / 60 % 60) (clock % 60) (micros / 1000 * 1000 + micros % 1000)) then
    some
      { date with
        hour := clock / 3600
        minute := clock / 60 % 60
        second := clock % 60
        millisecond := micros / 1000
        microsecond := micros % 1000
        isUtc
        hour_lt := by omega
        minute_lt := by omega
        second_lt := by omega
        millisecond_lt := by omega
        microsecond_lt := by omega
        inRange := h.2.2 }
  else none

/-- What falls outside the range of `DateTime` is rejected. -/
def ofFields (f : Fields) : Option DateTime := ofParts f.date f.clock f.micros f.isUtc

/-- `DateTime.parse`; `none` is its `FormatException`. The year takes as many of its
four to six digits as let the rest match. -/
def parse (s : String) : Option DateTime :=
  ([6, 5, 4].findSome? fun k => scanFields k s.toList).bind ofFields

theorem scanYear_yearText (k : ℕ) (y : ℤ) (rest : List Char) :
    scanYear k (yearText y ++ rest) =
      (scan k (padded 4 y.natAbs ++ rest)).map fun (n, rest) => (if y < 0 then -n else n, rest) := by
  by_cases hy : y < 0
  · simp only [yearText, hy, if_true, List.cons_append, List.nil_append, scanYear]
  · simp only [yearText, hy, if_false, List.nil_append]
    -- no sign: the first character is a digit
    cases hp : padded 4 y.natAbs with
    | nil =>
      have hlen := congrArg List.length hp
      rw [length_padded] at hlen
      simp at hlen
    | cons c cs =>
      have hc : c.isDigit = true := isDigit_of_mem_padded (hp ▸ List.mem_cons_self)
      rw [List.cons_append, scanYear]
      · rintro _ ⟨⟩
        exact absurd hc (by decide)
      · rintro _ ⟨⟩
        exact absurd hc (by decide)

theorem skip_self (c : Char) (cs : List Char) : skip c (c :: cs) = cs := if_pos rfl

/-- The fields that a text made by `toString` spells out, up to the seconds. -/
def fields (d : DateTime) : Fields :=
  ⟨d.year, d.month, d.day, d.hour, d.minute, d.second, 0, 0, false⟩

theorem scan_two {n : ℕ} (h : n < 100) (rest : List Char) :
    scan 2 (padded 2 n ++ rest) = some (n, rest) :=
  scan_padded (length_padded_of_lt (by decide) h) rest

theorem scanTime_secondsText (d : DateTime) (f : Fields) :
    scanTime f (' ' :: (padded 2 d.hour ++ ':' :: (padded 2 d.minute ++ ':' :: padded 2 d.second))) =
      some { f with hour := d.hour, minute := d.minute, second := d.second } := by
  have hh : d.hour < 100 := d.hour_lt.trans (by decide)
  have hm : d.minute < 100 := d.minute_lt.trans (by decide)
  have hs : d.second < 100 := d.second_lt.trans (by decide)
  have hlast : scan 2 (padded 2 d.second) = some (d.second, []) := by
    simpa using scan_two hs []
  simp only [scanTime, true_or, if_true, scan_two hh, Option.bind_some, skip_self, scan_two hm,
    hlast, scanFraction]
  rfl

theorem scanFields_secondsText (d : DateTime) :
    scanFields (padded 4 d.year.natAbs).length d.secondsText = some d.fields := by
  have hmo : d.month < 100 := lt_of_le_of_lt d.month_le (by decide)
  have hd : d.day < 100 :=
    lt_of_le_of_lt (d.day_le.trans (daysInMonth_le d.year d.month)) (by decide)
  have hy : (if d.year < 0 then -(d.year.natAbs : ℤ) else d.year.natAbs) = d.year := by
    split <;> omega
  simp only [scanFields, secondsText, scanYear_yearText, scan_padded, Option.map_some,
    Option.bind_some, skip_self, scan_two hmo, scan_two hd, scanTime_secondsText, hy, fields]

theorem scanFields_eq_none {k : ℕ} (d : DateTime) (h : (padded 4 d.year.natAbs).length < k) :
    scanFields k d.secondsText = none := by
  have hscan := scan_eq_none h (c := '-') (by decide) (padded 2 d.month ++ '-' ::
    (padded 2 d.day ++ ' ' ::
      (padded 2 d.hour ++ ':' :: (padded 2 d.minute ++ ':' :: padded 2 d.second))))
  simp only [scanFields, secondsText, scanYear_yearText, hscan, Option.map_none, Option.bind_none]

/-- A year of `DateTime` is written with four to six digits. -/
theorem length_year_digits (d : DateTime) :
    (padded 4 d.year.natAbs).length = 4 ∨ (padded 4 d.year.natAbs).length = 5 ∨
      (padded 4 d.year.natAbs).length = 6 := by
  have hle := (Nat.length_toDigits_le_iff (b := 10) (by decide) (k := 6) (by decide)).2
    d.natAbs_year_lt
  rw [length_padded]
  omega

theorem findSome_secondsText (d : DateTime) :
    ([6, 5, 4].findSome? fun k => scanFields k d.secondsText) = some d.fields := by
  have hfound := scanFields_secondsText d
  rcases length_year_digits d with h | h | h
  · rw [h] at hfound
    simp [List.findSome?, scanFields_eq_none d (k := 6) (by omega),
      scanFields_eq_none d (k := 5) (by omega), hfound]
  · rw [h] at hfound
    simp [List.findSome?, scanFields_eq_none d (k := 6) (by omega), hfound]
  · rw [h] at hfound
    simp [List.findSome?, hfound]

theorem seconds_fields (d : DateTime) :
    d.fields.seconds = ((d.hour * 60 + d.minute) * 60 + d.second : ℕ) := by
  simp only [Fields.seconds, fields, sub_zero]
  push_cast
  rfl

theorem seconds_lt (d : DateTime) : (d.hour * 60 + d.minute) * 60 + d.second < 86400 := by
  have := d.hour_lt
  have := d.minute_lt
  have := d.second_lt
  omega

theorem first_congr {y m} (y' : ℤ) (m' : ℕ) (hy : y = y') (hm : m = m') (hpos : 1 ≤ m) (hle : m ≤ 12) :
    Date.first y m hpos hle = Date.first y' m' (hm ▸ hpos) (hm ▸ hle) := by
  subst hy hm
  rfl

/-- Fields in range overflow nowhere. -/
theorem date_fields (d : DateTime) : d.fields.date = d.toDate := by
  have hpos := d.month_pos
  have hle := d.month_le
  have hlt := d.seconds_lt
  have hday : (d.day - 1 + d.fields.seconds / 86400 : ℤ) = d.day - 1 := by
    rw [seconds_fields]
    omega
  unfold Fields.date
  rw [first_congr d.year d.month]
  · simp only [fields] at hday ⊢
    rw [hday]
    exact d.toDate.first_addDays
  · simp only [fields]
    omega
  · simp only [fields]
    omega

theorem clock_fields (d : DateTime) :
    d.fields.clock = (d.hour * 60 + d.minute) * 60 + d.second := by
  have := d.seconds_lt
  rw [Fields.clock, seconds_fields]
  omega

theorem ofFields_fields (d : DateTime) : ofFields d.fields = some d.toSecond := by
  have hh := d.hour_lt
  have hm := d.minute_lt
  have hs := d.second_lt
  have hhour : ((d.hour * 60 + d.minute) * 60 + d.second) / 3600 = d.hour := by omega
  have hmin : ((d.hour * 60 + d.minute) * 60 + d.second) / 60 % 60 = d.minute := by omega
  have hsec : ((d.hour * 60 + d.minute) * 60 + d.second) % 60 = d.second := by omega
  have hrange : InRange (stampOf d.year d.month d.day d.hour d.minute d.second (0 * 1000 + 0)) :=
    d.toSecond.inRange
  have hmicros : d.fields.micros = 0 := rfl
  rw [ofFields, date_fields, clock_fields, hmicros, ofParts, dif_pos]
  · refine congrArg some (DateTime.ext ?_ ?_ ?_ hhour hmin hsec ?_ ?_ ?_) <;> rfl
  · refine ⟨d.seconds_lt, by decide, ?_⟩
    rw [hhour, hmin, hsec, Nat.zero_div, Nat.zero_mod]
    exact hrange

theorem parse_secondsText (d : DateTime) : parse (String.ofList d.secondsText) = some d.toSecond := by
  rw [parse, String.toList_ofList, findSome_secondsText, Option.bind_some, ofFields_fields]

end DateTime

end Dart
