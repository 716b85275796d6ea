import Mathlib.Algebra.Group.Defs
import Mathlib.Algebra.Group.Int.Defs
import Mathlib.Algebra.Group.Nat.Defs
import Mathlib.Data.List.DropRight
import Std.Data.String.ToInt
import HomeBank.Lib.Digits

/-! Dart's `int`, `String.trim` and `int.tryParse`. A numeral is read as an integer of any size
first; `tryParse` then tells whether 64 bits hold it. -/

/-- Dart's `int` wraps around at 64 bits. Its addition is that of a commutative group, so that
sums over lists and bags of numbers are available. -/
instance instAddCommGroupInt64 : AddCommGroup Int64 where
  add_assoc := Int64.add_assoc
  zero_add := Int64.zero_add
  add_zero := Int64.add_zero
  add_comm := Int64.add_comm
  neg_add_cancel := Int64.add_left_neg
  sub_eq_add_neg := Int64.sub_eq_add_neg
  nsmul := nsmulRec
  zsmul := zsmulRec

namespace Dart

open Decimal

/-- The characters that `trim` removes. -/
def isWhitespace (c : Char) : Bool :=
  (0x09 ≤ c.toNat && c.toNat ≤ 0x0D) || (0x2000 ≤ c.toNat && c.toNat ≤ 0x200A) ||
    [0x20, 0x85, 0xA0, 0x1680, 0x2028, 0x2029, 0x202F, 0x205F, 0x3000, 0xFEFF].contains c.toNat

def trim (cs : List Char) : List Char := (cs.dropWhile isWhitespace).rdropWhile isWhitespace

def isHexDigit (c : Char) : Bool := c.isDigit || ('a' ≤ c && c ≤ 'f') || ('A' ≤ c && c ≤ 'F')

def hexDigitValue (c : Char) : ℕ :=
  if c.isDigit then c.toNat - '0'.toNat
  else if 'a' ≤ c then c.toNat - 'a'.toNat + 10
  else c.toNat - 'A'.toNat + 10

/-- What a numeral says. -/
structure Numeral where
  negative : Bool
  hex : Bool
  magnitude : ℕ
  deriving DecidableEq

def Numeral.value (n : Numeral) : ℤ := if n.negative then -n.magnitude else n.magnitude

/-- The digits after the sign: hexadecimal ones after `0x`, decimal ones otherwise. -/
def scanMagnitude (negative : Bool) : List Char → Option Numeral
  | '0' :: 'x' :: cs | '0' :: 'X' :: cs =>
    if cs ≠ [] ∧ cs.all isHexDigit then
      some ⟨negative, true, cs.foldl (fun n c => 16 * n + hexDigitValue c) 0⟩
    else none
  | cs =>
    if cs ≠ [] ∧ cs.all Char.isDigit then some ⟨negative, false, Nat.ofDigitChars 10 cs 0⟩ else none

def scanSign : List Char → Option Numeral
  | '-' :: cs => scanMagnitude true cs
  | '+' :: cs => scanMagnitude false cs
  | cs => scanMagnitude false cs

def scanNumeral (s : String) : Option Numeral := scanSign (trim s.toList)

/-- The integer that a text names, of any size. -/
def integerOf (s : String) : Option ℤ := (scanNumeral s).map Numeral.value

/-- Whether Dart has an `int` for the numeral: it has to lie in the range of 64 bits, but a
hexadecimal one without minus may use all 64 bits and wraps around. -/
def Numeral.fits (n : Numeral) : Bool :=
  if n.hex && !n.negative then n.magnitude < 2 ^ 64 else -2 ^ 63 ≤ n.value && n.value < 2 ^ 63

/-- `int.tryParse` -/
def tryParse (s : String) : Option Int64 :=
  ((scanNumeral s).filter Numeral.fits).map fun n => .ofInt n.value

/-- Where 64 bits hold the integer, `tryParse` gives it. -/
theorem tryParse_of_integerOf {s : String} {n : ℤ} (h : integerOf s = some n) (hlo : -2 ^ 63 ≤ n)
    (hhi : n < 2 ^ 63) : tryParse s = some (.ofInt n) := by
  obtain ⟨numeral, hscan, rfl⟩ := Option.map_eq_some_iff.1 h
  have hfits : numeral.fits = true := by
    unfold Numeral.fits
    split
    · next hwraps =>
      have hpos : numeral.negative = false := by simpa using (Bool.and_eq_true_iff.1 hwraps).2
      simp only [Numeral.value, hpos, Bool.false_eq_true, if_false] at hhi
      rw [decide_eq_true_iff]
      omega
    · rw [Bool.and_eq_true, decide_eq_true_iff, decide_eq_true_iff]
      exact ⟨hlo, hhi⟩
  rw [tryParse, hscan, Option.filter_some, if_pos hfits, Option.map_some]

theorem isWhitespace_of_isDigit {c : Char} (h : c.isDigit = true) : isWhitespace c = false := by
  have hnat := Char.isDigit_iff_toNat.1 h
  have h0 : '0'.toNat = 48 := rfl
  have h9 : '9'.toNat = 57 := rfl
  simp only [isWhitespace, List.contains_cons, List.contains_nil, Bool.or_eq_false_iff,
    Bool.and_eq_false_iff, decide_eq_false_iff_not, beq_eq_false_iff_ne, and_true]
  omega

theorem trim_append {ws cs : List Char} (hws : ∀ c ∈ ws, isWhitespace c = true)
    (hcs : ∀ c ∈ cs, isWhitespace c = false) : trim (ws ++ cs) = cs := by
  have hfront : cs.dropWhile isWhitespace = cs := by
    refine List.dropWhile_eq_self_iff.2 fun hlen => ?_
    simp [hcs _ (List.getElem_mem hlen)]
  rw [trim, List.dropWhile_append_of_pos hws, hfront, List.rdropWhile_eq_self_iff]
  intro hne
  simp [hcs _ (List.getLast_mem hne)]

/-- Only white space is trimmed to nothing. -/
theorem trim_ne_nil {cs : List Char} {c : Char} (hc : c ∈ cs) (hspace : isWhitespace c = false) :
    trim cs ≠ [] := by
  intro hnil
  have hall := List.rdropWhile_eq_nil_iff.1 hnil
  rw [← List.takeWhile_append_dropWhile (p := isWhitespace) (l := cs)] at hc
  have hwhite : isWhitespace c = true := by
    rcases List.mem_append.1 hc with hc | hc
    · exact List.mem_takeWhile_imp hc
    · exact hall c hc
  rw [hspace] at hwhite
  cases hwhite

/-- Digits are read as the number that they are. -/
theorem scanMagnitude_toDigits (negative : Bool) (n : ℕ) :
    scanMagnitude negative (Nat.toDigits 10 n) = some ⟨negative, false, n⟩ := by
  have hall : (Nat.toDigits 10 n).all Char.isDigit = true :=
    List.all_eq_true.2 fun c hc => Nat.isDigit_of_mem_toDigits (by decide) (by decide) hc
  have hne : Nat.toDigits 10 n ≠ [] := Nat.toDigits_ne_nil
  rw [scanMagnitude.eq_def]
  split
  · next cs heq =>
    simp [heq] at hall
  · next cs heq =>
    simp [heq] at hall
  · rw [if_pos ⟨hne, hall⟩, Nat.ofDigitChars_ten_toDigits]

/-- A sign is no digit. -/
theorem scanMagnitude_minus (negative : Bool) (cs : List Char) :
    scanMagnitude negative ('-' :: cs) = none := by
  rw [scanMagnitude.eq_def]
  simp

theorem scanSign_toDigits (n : ℕ) : scanSign (Nat.toDigits 10 n) = some ⟨false, false, n⟩ := by
  have hdigit : ∀ c ∈ Nat.toDigits 10 n, c.isDigit = true := fun c hc =>
    Nat.isDigit_of_mem_toDigits (by decide) (by decide) hc
  rw [scanSign.eq_def]
  split
  · next cs heq =>
    simp [heq] at hdigit
  · next cs heq =>
    simp [heq] at hdigit
  · exact scanMagnitude_toDigits false n

theorem not_isWhitespace_of_mem_toDigits {n : ℕ} {c : Char} (h : c ∈ Nat.toDigits 10 n) :
    isWhitespace c = false :=
  isWhitespace_of_isDigit (Nat.isDigit_of_mem_toDigits (by decide) (by decide) h)

/-- The reading of a text with nothing but white space in front. -/
theorem integerOf_append {ws cs : List Char} (hws : ∀ c ∈ ws, isWhitespace c = true)
    (hcs : ∀ c ∈ cs, isWhitespace c = false) :
    integerOf (String.ofList (ws ++ cs)) = (scanSign cs).map Numeral.value := by
  rw [integerOf, scanNumeral, String.toList_ofList, trim_append hws hcs]

theorem integerOf_ofList {cs : List Char} (hcs : ∀ c ∈ cs, isWhitespace c = false) :
    integerOf (String.ofList cs) = (scanSign cs).map Numeral.value :=
  @integerOf_append [] cs (by simp) hcs

/-- What Dart prints for an integer is read as that integer. -/
theorem integerOf_toString {ws : List Char} (hws : ∀ c ∈ ws, isWhitespace c = true) (z : ℤ) :
    integerOf (String.ofList (ws ++ (toString z).toList)) = some z := by
  rw [Int.toString_eq_repr, Int.repr_eq_if]
  split
  · next hpos =>
    rw [Nat.toList_repr, integerOf_append hws fun c hc => not_isWhitespace_of_mem_toDigits hc,
      scanSign_toDigits]
    simp [Numeral.value, Int.toNat_of_nonneg hpos]
  · next hneg =>
    have hminus : ∀ c ∈ '-' :: Nat.toDigits 10 (-z).toNat, isWhitespace c = false :=
      List.forall_mem_cons.2 ⟨rfl, fun c hc => not_isWhitespace_of_mem_toDigits hc⟩
    have hlist : ("-" ++ (-z).toNat.repr).toList = '-' :: Nat.toDigits 10 (-z).toNat := by
      rw [String.toList_append, Nat.toList_repr]
      rfl
    rw [hlist, integerOf_append hws hminus, scanSign, scanMagnitude_toDigits]
    simp only [Option.map_some, Numeral.value, if_true, Option.some.injEq]
    omega

end Dart
