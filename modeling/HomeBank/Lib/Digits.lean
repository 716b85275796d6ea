import Mathlib.Data.String.Basic

/-! Decimal text: numbers padded with zeros to a width, their order as texts, and a
scanner for a fixed number of digits that reads them back. -/

namespace Decimal

/-- The decimal digits of `n`, padded with zeros on the left to at least `k` of them. -/
def padded (k n : ℕ) : List Char := (Nat.toDigits 10 n).leftpad k '0'

theorem padded_eq (k n : ℕ) :
    padded k n = List.replicate (k - (Nat.toDigits 10 n).length) '0' ++ Nat.toDigits 10 n := rfl

theorem length_padded (k n : ℕ) : (padded k n).length = max k (Nat.toDigits 10 n).length := by
  rw [padded_eq, List.length_append, List.length_replicate]
  omega

theorem length_padded_of_lt {k n : ℕ} (hk : 0 < k) (h : n < 10 ^ k) : (padded k n).length = k := by
  have hle := (Nat.length_toDigits_le_iff (b := 10) (by decide) hk).2 h
  rw [length_padded]
  omega

theorem isDigit_of_mem_padded {k n : ℕ} {c : Char} (h : c ∈ padded k n) : c.isDigit = true := by
  rw [padded_eq, List.mem_append] at h
  rcases h with h | h
  · rw [List.eq_of_mem_replicate h]
    rfl
  · exact Nat.isDigit_of_mem_toDigits (by decide) (by decide) h

theorem ofDigitChars_padded (k n : ℕ) : Nat.ofDigitChars 10 (padded k n) 0 = n := by
  rw [padded_eq, Nat.ofDigitChars_append, Nat.ofDigitChars_replicate_zero, Nat.mul_zero,
    Nat.ofDigitChars_ten_toDigits]

theorem padded_injective (k : ℕ) : Function.Injective (padded k) := by
  intro m n h
  rw [← ofDigitChars_padded k m, h, ofDigitChars_padded]

theorem padded_inj {k m n : ℕ} : padded k m = padded k n ↔ m = n := (padded_injective k).eq_iff

/-- A larger start gives a larger number, when the digits that follow are as many. -/
theorem ofDigitChars_lt {ds ds' : List Char} (hlen : ds.length = ds'.length)
    (hds : ∀ c ∈ ds, c.isDigit = true) {m n : ℕ} (h : m < n) :
    Nat.ofDigitChars 10 ds m < Nat.ofDigitChars 10 ds' n := by
  induction ds generalizing ds' m n with
  | nil =>
    obtain rfl := List.length_eq_zero_iff.1 hlen.symm
    simpa using h
  | cons c ds ih =>
    obtain ⟨c', ds', rfl⟩ := List.exists_cons_of_length_eq_add_one hlen.symm
    rw [List.forall_mem_cons] at hds
    have hc := (Char.isDigit_iff_toNat.1 hds.1).2
    have h0 : '0'.toNat = 48 := rfl
    have h9 : '9'.toNat = 57 := rfl
    rw [Nat.ofDigitChars_cons, Nat.ofDigitChars_cons]
    refine ih (by simpa using hlen) hds.2 ?_
    omega

theorem ofDigitChars_lt_of_lt {ds ds' : List Char} (hlen : ds.length = ds'.length)
    (hds : ∀ c ∈ ds, c.isDigit = true) (h : ds < ds') (n : ℕ) :
    Nat.ofDigitChars 10 ds n < Nat.ofDigitChars 10 ds' n := by
  induction ds generalizing ds' n with
  | nil =>
    obtain rfl := List.length_eq_zero_iff.1 hlen.symm
    exact absurd h (List.not_lt_nil _)
  | cons c ds ih =>
    obtain ⟨c', ds', rfl⟩ := List.exists_cons_of_length_eq_add_one hlen.symm
    rw [List.forall_mem_cons] at hds
    rw [Nat.ofDigitChars_cons, Nat.ofDigitChars_cons]
    rcases List.cons_lt_cons_iff.1 h with hc | ⟨rfl, htail⟩
    · have hzero := (Char.isDigit_iff_toNat.1 hds.1).1
      have hlt : c.toNat < c'.toNat := hc
      refine ofDigitChars_lt (by simpa using hlen) hds.2 ?_
      omega
    · exact ih (by simpa using hlen) hds.2 htail _

/-- Texts of one length that begin alike up to smaller and larger digits. -/
theorem append_lt_append {l l' : List Char} (hlen : l.length = l'.length) (h : l < l')
    (r r' : List Char) : l ++ r < l' ++ r' := by
  induction l generalizing l' with
  | nil =>
    obtain rfl := List.length_eq_zero_iff.1 hlen.symm
    exact absurd h (List.not_lt_nil _)
  | cons c l ih =>
    obtain ⟨c', l', rfl⟩ := List.exists_cons_of_length_eq_add_one hlen.symm
    rw [List.cons_append, List.cons_append, List.cons_lt_cons_iff]
    rcases List.cons_lt_cons_iff.1 h with hc | ⟨rfl, htail⟩
    · exact .inl hc
    · exact .inr ⟨rfl, ih (by simpa using hlen) htail⟩

theorem append_le_append_left (l : List Char) {r r' : List Char} (h : r ≤ r') : l ++ r ≤ l ++ r' := by
  rcases h.lt_or_eq with hlt | rfl
  · exact le_of_lt (List.append_left_lt hlt)
  · exact le_rfl

/-- Padded to one width, numbers are ordered as their texts. -/
theorem padded_append_le {k m n : ℕ} (hk : 0 < k) (hm : m < 10 ^ k) (hn : n < 10 ^ k)
    {r r' : List Char} (h : m < n ∨ m = n ∧ r ≤ r') : padded k m ++ r ≤ padded k n ++ r' := by
  rcases h with hlt | ⟨rfl, hle⟩
  · have hlen : (padded k m).length = (padded k n).length := by
      rw [length_padded_of_lt hk hm, length_padded_of_lt hk hn]
    refine le_of_lt (append_lt_append hlen ?_ r r')
    by_contra hnot
    rcases (not_lt.1 hnot).lt_or_eq with hpad | heq
    · have hnum := ofDigitChars_lt_of_lt hlen.symm (fun _ hc => isDigit_of_mem_padded hc) hpad 0
      rw [ofDigitChars_padded, ofDigitChars_padded] at hnum
      omega
    · exact absurd (padded_inj.1 heq) (by omega)
  · exact append_le_append_left _ hle

/-- Exactly `k` digits at the front, as a number, and the rest. -/
def scan (k : ℕ) (cs : List Char) : Option (ℕ × List Char) :=
  if (cs.take k).length = k ∧ (cs.take k).all Char.isDigit then
    some (Nat.ofDigitChars 10 (cs.take k) 0, cs.drop k)
  else none

theorem scan_padded {j k n : ℕ} (h : (padded j n).length = k) (rest : List Char) :
    scan k (padded j n ++ rest) = some (n, rest) := by
  subst h
  have hall : (padded j n).all Char.isDigit = true :=
    List.all_eq_true.2 fun c hc => isDigit_of_mem_padded hc
  simp [scan, hall, ofDigitChars_padded]

/-- A scanner for more digits than there are stops at the separator. -/
theorem scan_eq_none {k : ℕ} {ds : List Char} {c : Char} (hlt : ds.length < k)
    (hc : c.isDigit = false) (rest : List Char) : scan k (ds ++ c :: rest) = none := by
  rw [scan, if_neg]
  rintro ⟨-, hall⟩
  have hmem : c ∈ (ds ++ c :: rest).take k := by
    obtain ⟨m, rfl⟩ : ∃ m, k = ds.length + (m + 1) := ⟨k - ds.length - 1, by omega⟩
    simp [List.take_append]
  rw [List.all_eq_true.1 hall c hmem] at hc
  cases hc

end Decimal
